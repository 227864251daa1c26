import CryptoQuant.Strategy.AdaptiveFirst

/-!
# Failed steps and the retune schedule

A step counts its events before the optimization, and the optimization raises where the
window holds no event of the symbol. The count is all such a step leaves behind, and all
the count decides is which steps retune.
-/

namespace CryptoQuant
set_option autoImplicit false

namespace AdaptiveParameterController
variable {sqrt : ℚ → ℚ} {ctl : AdaptiveParameterController} {call : AdaptiveCall} {n m : ℕ}

/-! ## The count -/

/-- Whether the step that counts `n` events retunes. -/
def retunesAt (interval : ℤ) (n : ℕ) : Bool := n == 1 || decide ((n : ℤ) % interval = 0)

/-- The controller with another count. -/
def recount (ctl : AdaptiveParameterController) (n : ℕ) : AdaptiveParameterController := { ctl with eventsSeen := n }

@[simp] theorem recount_recount : (ctl.recount n).recount m = ctl.recount m := rfl

@[simp] theorem shouldRetune_recount :
    (ctl.recount n).shouldRetune = retunesAt ctl.config.retuneIntervalEvents n := rfl

/-- The call has the history of a window. -/
def Enough (config : AdaptiveStrategyConfig) (call : AdaptiveCall) : Prop :=
  config.lookbackEvents ≤ (call.history.length : ℤ)

instance (config : AdaptiveStrategyConfig) (call : AdaptiveCall) : Decidable (Enough config call) :=
  inferInstanceAs (Decidable (_ ≤ _))

/-- The adaptation reads the count only for the schedule. -/
theorem adapt_recount (same : retunesAt ctl.config.retuneIntervalEvents n = retunesAt ctl.config.retuneIntervalEvents m)
    (sqrt : ℚ → ℚ) (closes : List ℚ) :
    (ctl.recount n).adapt sqrt closes =
      (((ctl.recount m).adapt sqrt closes).1, ((ctl.recount m).adapt sqrt closes).2.recount n) := by
  have retunes (k : ℕ) (model : Option OnlineLinearReturnModel) :
      shouldRetune { ctl.recount k with model } = retunesAt ctl.config.retuneIntervalEvents k := rfl
  unfold adapt
  cases model : ctl.model with
  | none => rw [show (ctl.recount n).model = none from model, show (ctl.recount m).model = none from model]; rfl
  | some fitted =>
    rw [show (ctl.recount n).model = some fitted from model, show (ctl.recount m).model = some fitted from model]
    simp only [retunes, same]
    split
    · simp only [recount, dynamicEpsilon]
      split <;> rfl
    · rfl

theorem settle_recount (ctl : AdaptiveParameterController)
    (same : retunesAt ctl.config.retuneIntervalEvents n = retunesAt ctl.config.retuneIntervalEvents m)
    (optimization : StrategyOptimizationResult) (predicted epsilon : Option ℚ) :
    (ctl.recount n).settle call optimization predicted epsilon =
      (ctl.recount m).settle call optimization predicted epsilon := by
  unfold settle pick
  simp only [shouldRetune_recount, same]
  rfl

theorem conclude_recount (ctl : AdaptiveParameterController)
    (same : retunesAt ctl.config.retuneIntervalEvents n = retunesAt ctl.config.retuneIntervalEvents m)
    (optimization : StrategyOptimizationResult) :
    (ctl.recount n).conclude sqrt call optimization =
      (((ctl.recount m).conclude sqrt call optimization).1, ((ctl.recount m).conclude sqrt call optimization).2.recount n) := by
  obtain ⟨model, epsilon, after, -, -⟩ := adapt_cases sqrt (ctl.recount m) ((ctl.windowOf call.history).map MarketEvent.close)
  unfold conclude
  rw [show (ctl.recount n).windowOf call.history = ctl.windowOf call.history from rfl,
    show (ctl.recount m).windowOf call.history = ctl.windowOf call.history from rfl, adapt_recount same]
  generalize (ctl.recount m).adapt sqrt ((ctl.windowOf call.history).map MarketEvent.close) = outcome at after
  obtain ⟨_ | ⟨predicted, rate⟩, adapted⟩ := outcome
  · rfl
  · simp only at after ⊢
    have settles : (adapted.recount n).settle call optimization predicted rate =
        adapted.settle call optimization predicted rate := by
      subst after
      exact settle_recount { ctl with model, bandit := { ctl.bandit with epsilon } } same optimization predicted rate
    rw [settles]
    split <;> rfl

/-- A step with the history of a window counts it first. -/
theorem step_enough (enough : Enough ctl.config call) (n : ℕ) : (ctl.recount n).step sqrt call =
    match (ctl.recount (n + 1)).optimization (ctl.windowOf call.history) with
    | .error e => (.error e, ctl.recount (n + 1))
    | .ok o => ({ ctl with lastOptimization := some o }.recount (n + 1)).conclude sqrt call o := by
  unfold step
  rw [if_neg (show ¬ (call.history.length : ℤ) < (ctl.recount n).config.lookbackEvents from not_lt.mpr enough)]
  rfl

theorem step_short (short : ¬ Enough ctl.config call) :
    ctl.step sqrt call = (.error (.valueError "insufficient history for adaptive tuning"), ctl) := by
  unfold step
  rw [if_pos (not_le.mp short)]

theorem optimization_recount (same : retunesAt ctl.config.retuneIntervalEvents n = retunesAt ctl.config.retuneIntervalEvents m)
    (window : List MarketEvent) : (ctl.recount n).optimization window = (ctl.recount m).optimization window := by
  unfold optimization
  rw [shouldRetune_recount, shouldRetune_recount, same]
  rfl

/-- **Step lemma.** Two counts that agree on the schedule give the same answer, and
states that differ in the count. -/
theorem step_recount (ctl : AdaptiveParameterController) (sqrt : ℚ → ℚ) (enough : Enough ctl.config call)
    (same : retunesAt ctl.config.retuneIntervalEvents (n + 1) = retunesAt ctl.config.retuneIntervalEvents (m + 1)) :
    (ctl.recount n).step sqrt call =
      (((ctl.recount m).step sqrt call).1, ((ctl.recount m).step sqrt call).2.recount (n + 1)) := by
  rw [step_enough enough n, step_enough enough m, optimization_recount same]
  split
  · rfl
  · exact conclude_recount { ctl with lastOptimization := some _ } same _

/-- What a step leaves of the controller, and the mode of its decision. -/
theorem conclude_spec (sqrt : ℚ → ℚ) (ctl : AdaptiveParameterController) (call : AdaptiveCall)
    (optimization : StrategyOptimizationResult) :
    (ctl.conclude sqrt call optimization).2.eventsSeen = ctl.eventsSeen ∧
      (ctl.conclude sqrt call optimization).2.config = ctl.config ∧
      ∀ decision, (ctl.conclude sqrt call optimization).1 = .ok decision →
        decision.mode = if ctl.shouldRetune then .retune else .hold := by
  obtain ⟨model, epsilon, after, -, -⟩ := adapt_cases sqrt ctl ((ctl.windowOf call.history).map MarketEvent.close)
  unfold conclude
  generalize ctl.adapt sqrt ((ctl.windowOf call.history).map MarketEvent.close) = outcome at after
  obtain ⟨_ | ⟨predicted, rate⟩, adapted⟩ := outcome
  · simp only at after
    subst after
    exact ⟨rfl, rfl, fun decision here => by cases here⟩
  simp only at after ⊢
  subst after
  split
  · exact ⟨rfl, rfl, fun decision here => by cases here⟩
  · rename_i d bandit settled
    refine ⟨rfl, rfl, fun decision here => ?_⟩
    cases here
    obtain ⟨params, -, rest⟩ := Run.bind_ok.mp settled
    obtain ⟨rewarded, -, rest⟩ := Run.bind_ok.mp rest
    obtain ⟨_, -, done⟩ := Run.bind_ok.mp rest
    cases done
    rfl

/-- A step that has its window counts it, also when it raises. -/
theorem step_counts (sqrt : ℚ → ℚ) (enough : Enough ctl.config call) :
    (ctl.step sqrt call).2.eventsSeen = ctl.eventsSeen + 1 ∧ (ctl.step sqrt call).2.config = ctl.config := by
  rw [show ctl.step sqrt call = _ from step_enough enough ctl.eventsSeen]
  split
  · exact ⟨rfl, rfl⟩
  · obtain ⟨seen, config, -⟩ := conclude_spec sqrt _ call _
    exact ⟨seen, config⟩

/-- The mode of a decision is the schedule at its count. -/
theorem mode_of_step {decision : AdaptiveDecision} (answered : (ctl.step sqrt call).1 = .ok decision) :
    decision.mode = if retunesAt ctl.config.retuneIntervalEvents (ctl.eventsSeen + 1) then .retune else .hold := by
  by_cases enough : Enough ctl.config call
  · rw [show ctl.step sqrt call = _ from step_enough enough ctl.eventsSeen] at answered
    split at answered
    · cases answered
    · exact (conclude_spec sqrt _ call _).2.2 decision answered
  · rw [step_short enough] at answered
    cases answered

/-! ## Runs with failed steps -/

section Runs
variable {symbol : String} {candidates : List StrategyParameterSet} {config : AdaptiveStrategyConfig}
  {objective : OptimizationObjective} {baseQty : ℚ} {pipeline : Bool} {done : List AdaptiveCall}

/-- The call raises for want of history or in the optimizer: before its optimization is
there. -/
def RaisesEarly (ctl : AdaptiveParameterController) (call : AdaptiveCall) : Prop :=
  ¬ Enough ctl.config call ∨
    ∃ e, (ctl.recount (ctl.eventsSeen + 1)).optimization (ctl.windowOf call.history) = .error e

/-- The call runs the optimizer. -/
def runsOptimizer (ctl : AdaptiveParameterController) (call : AdaptiveCall) : Bool :=
  decide (Enough ctl.config call) && ((ctl.recount (ctl.eventsSeen + 1)).shouldRetune || ctl.lastOptimization.isNone)

/-- The calls that do not raise. -/
def answeredCalls (sqrt : ℚ → ℚ) (ctl : AdaptiveParameterController) (calls : List AdaptiveCall) : List AdaptiveCall :=
  (machine sqrt).kept Except.isOk ctl calls

/-- The decision of the call, and whether it runs the optimizer, are the same when the
calls before it that raised are deleted. -/
def Unchanged (sqrt : ℚ → ℚ) (ctl : AdaptiveParameterController) (done : List AdaptiveCall) (call : AdaptiveCall) : Prop :=
  ∀ decision, (machine sqrt).answer ((machine sqrt).after ctl done) call = .ok decision →
    (machine sqrt).answer ((machine sqrt).after ctl (answeredCalls sqrt ctl done)) call = .ok decision ∧
      runsOptimizer ((machine sqrt).after ctl (answeredCalls sqrt ctl done)) call =
        runsOptimizer ((machine sqrt).after ctl done) call

/-- At the call, the schedule is the same for the number of windows seen and for the
number of decisions made. -/
def OnSchedule (sqrt : ℚ → ℚ) (ctl : AdaptiveParameterController) (done : List AdaptiveCall) (call : AdaptiveCall) : Prop :=
  ∀ decision, (machine sqrt).answer ((machine sqrt).after ctl done) call = .ok decision →
    retunesAt ctl.config.retuneIntervalEvents (done.countP (Enough ctl.config ·) + 1) =
      retunesAt ctl.config.retuneIntervalEvents ((answeredCalls sqrt ctl done).length + 1)

/-- What the deletion of the failed calls changes of a run: the count of its windows. -/
structure Tracks (sqrt : ℚ → ℚ) (ctl : AdaptiveParameterController) (done : List AdaptiveCall) : Prop where
  same : (machine sqrt).after ctl done =
    ((machine sqrt).after ctl (answeredCalls sqrt ctl done)).recount (done.countP (Enough ctl.config ·))
  answered : ((machine sqrt).after ctl (answeredCalls sqrt ctl done)).eventsSeen = (answeredCalls sqrt ctl done).length
  config : ((machine sqrt).after ctl (answeredCalls sqrt ctl done)).config = ctl.config

theorem RaisesEarly.next (early : RaisesEarly ctl call) :
    (machine sqrt).next ctl call = ctl.recount (if Enough ctl.config call then ctl.eventsSeen + 1 else ctl.eventsSeen) := by
  show (ctl.step sqrt call).2 = _
  by_cases enough : Enough ctl.config call
  · obtain short | ⟨e, refused⟩ := early
    · exact absurd enough short
    · rw [if_pos enough, show ctl.step sqrt call = _ from step_enough enough ctl.eventsSeen, refused]
  · rw [if_neg enough, step_short enough]
    rfl

theorem enough_of_answer (ctl : AdaptiveParameterController) {decision : AdaptiveDecision} (answered : (ctl.step sqrt call).1 = .ok decision) :
    Enough ctl.config call := by
  by_contra short
  rw [step_short short] at answered
  cases answered

/-- At a call that decides, the two properties agree. -/
theorem Tracks.agree (tracks : Tracks sqrt ctl done) : Unchanged sqrt ctl done call ↔ OnSchedule sqrt ctl done call := by
  obtain ⟨same, answered, config⟩ := tracks
  unfold Unchanged OnSchedule
  rw [same, ← answered, ← config]
  generalize (machine sqrt).after ctl (answeredCalls sqrt ctl done) = u
  generalize done.countP (Enough u.config ·) = n
  refine forall₂_congr fun decision decides => ?_
  have decides : ((u.recount n).step sqrt call).1 = .ok decision := decides
  constructor
  · intro holds
    -- a decision shows its schedule by its mode
    have again : (u.step sqrt call).1 = .ok decision := holds.1
    have mode := (mode_of_step decides).symm.trans (mode_of_step again)
    rw [show (u.recount n).config = u.config from rfl, show (u.recount n).eventsSeen = n from rfl] at mode
    generalize retunesAt u.config.retuneIntervalEvents (n + 1) = here at mode ⊢
    generalize retunesAt u.config.retuneIntervalEvents (u.eventsSeen + 1) = there at mode ⊢
    cases here <;> cases there <;> first | rfl | cases mode
  · intro schedule
    have enough : Enough u.config call := enough_of_answer (u.recount n) decides
    have step := step_recount u sqrt enough schedule
    have answer : ((u.recount n).step sqrt call).1 = (u.step sqrt call).1 := by rw [step]; rfl
    refine ⟨answer.symm.trans decides, ?_⟩
    unfold runsOptimizer
    rw [recount_recount, shouldRetune_recount, shouldRetune_recount]
    show (_ && (retunesAt u.config.retuneIntervalEvents _ || _)) = (_ && (retunesAt u.config.retuneIntervalEvents (n + 1) || _))
    rw [schedule]
    rfl

/-- Step lemma of the run: a step on schedule, or one that raises early. -/
theorem Tracks.snoc (tracks : Tracks sqrt ctl done)
    (early : ∀ e, (machine sqrt).answer ((machine sqrt).after ctl done) call = .error e →
      RaisesEarly ((machine sqrt).after ctl done) call)
    (schedule : OnSchedule sqrt ctl done call) : Tracks sqrt ctl (done ++ [call]) := by
  obtain ⟨same, answered, config⟩ := tracks
  unfold OnSchedule at schedule
  have split : answeredCalls sqrt ctl (done ++ [call]) =
      if ((machine sqrt).answer ((machine sqrt).after ctl done) call).isOk then answeredCalls sqrt ctl done ++ [call]
      else answeredCalls sqrt ctl done := Run.Machine.kept_snoc _ _ _ _ _
  have count : (done ++ [call]).countP (Enough ctl.config ·) =
      done.countP (Enough ctl.config ·) + if Enough ctl.config call then 1 else 0 := by
    rw [List.countP_append, List.countP_singleton]
    simp
  cases outcome : (machine sqrt).answer ((machine sqrt).after ctl done) call with
  | error e =>
    have early := early e outcome
    rw [outcome] at split
    have split : answeredCalls sqrt ctl (done ++ [call]) = answeredCalls sqrt ctl done := split
    refine ⟨?_, by rw [split]; exact answered, by rw [split]; exact config⟩
    rw [split, Run.Machine.after_snoc, early.next, count, same, recount_recount]
    generalize (machine sqrt).after ctl (answeredCalls sqrt ctl done) = u at config ⊢
    refine congrArg u.recount ?_
    show (if Enough u.config call then _ + 1 else _) = _
    rw [config]
    split <;> rfl
  | ok decision =>
    rw [outcome] at split
    have split : answeredCalls sqrt ctl (done ++ [call]) = answeredCalls sqrt ctl done ++ [call] := split
    have schedule := schedule decision outcome
    rw [same] at outcome
    rw [← congrArg AdaptiveStrategyConfig.retuneIntervalEvents config, ← answered] at schedule
    have enough : Enough ((machine sqrt).after ctl (answeredCalls sqrt ctl done)).config call :=
      enough_of_answer (((machine sqrt).after ctl (answeredCalls sqrt ctl done)).recount (done.countP (Enough ctl.config ·)))
        outcome
    have step := step_recount _ sqrt enough schedule
    obtain ⟨seen, kept⟩ := step_counts sqrt enough
    rw [config] at enough
    refine ⟨?_, ?_, ?_⟩
    · rw [split, Run.Machine.after_snoc, Run.Machine.after_snoc, count, if_pos enough, same]
      exact congrArg Prod.snd step
    · rw [split, Run.Machine.after_snoc, List.length_append, List.length_singleton, ← answered]
      exact seen
    · rw [split, Run.Machine.after_snoc]
      exact kept.trans config

/-- Where every step retunes, the count does not matter. -/
theorem onSchedule_of_everyStep (every : ctl.config.retuneIntervalEvents = 1) : OnSchedule sqrt ctl done call := by
  have always (k : ℕ) : retunesAt ctl.config.retuneIntervalEvents k = true := by
    unfold retunesAt
    rw [every, Int.emod_one]
    simp
  intro decision _
  rw [always, always]

theorem config_after (sqrt : ℚ → ℚ) (calls : List AdaptiveCall) : ((machine sqrt).after ctl calls).config = ctl.config := by
  refine (machine sqrt).always (P := fun t => t.config = ctl.config) rfl (fun t c before => ?_) calls
  show (t.step sqrt c).2.config = ctl.config
  by_cases enough : Enough t.config c
  · exact (step_counts sqrt enough).2.trans before
  · rw [step_short enough]
    exact before

/-- Where the steps so far failed only for want of history, the windows seen are the
decisions made. -/
theorem onSchedule_of_short (short : ∀ before c rest e, done = before ++ c :: rest →
      (machine sqrt).answer ((machine sqrt).after ctl before) c = .error e → ¬ Enough ctl.config c) :
    OnSchedule sqrt ctl done call := by
  have equal : done.countP (Enough ctl.config ·) = (answeredCalls sqrt ctl done).length := by
    induction done using List.reverseRecOn with
    | nil => rfl
    | append_singleton done c ih =>
      have before := ih fun first c' rest e split => short first c' (rest ++ [c]) e (by rw [split]; simp)
      unfold answeredCalls at before ⊢
      rw [List.countP_append, List.countP_singleton, Run.Machine.kept_snoc, before]
      cases outcome : (machine sqrt).answer ((machine sqrt).after ctl done) c with
      | error e =>
        have lacks := short done c [] e rfl outcome
        simp [lacks, Except.isOk, Except.toBool]
      | ok decision =>
        have enough : Enough ctl.config c := config_after sqrt done ▸ enough_of_answer _ outcome
        simp [enough, Except.isOk, Except.toBool]
  intro decision _
  rw [equal]

theorem Tracks.init (fresh : ctl.eventsSeen = 0) : Tracks sqrt ctl [] where
  same := by
    show ctl = ctl.recount 0
    rw [← fresh]
    rfl
  answered := fresh
  config := rfl

/-- **Deleting the failed steps of a run changes nothing else** exactly when every
decision is on schedule: the number of windows seen before it and the number of decisions
made before it call for the same mode. So it is where no step raises in the optimizer, and
where every step retunes. -/
theorem failed_steps_traceless_iff (built : new symbol candidates config objective baseQty pipeline = .ok ctl)
    (calls : List AdaptiveCall)
    (early : ∀ done call rest e, calls = done ++ call :: rest →
      (machine sqrt).answer ((machine sqrt).after ctl done) call = .error e →
        RaisesEarly ((machine sqrt).after ctl done) call) :
    (∀ done call rest, calls = done ++ call :: rest → Unchanged sqrt ctl done call) ↔
      ∀ done call rest, calls = done ++ call :: rest → OnSchedule sqrt ctl done call :=
  Run.each_iff (P := Tracks sqrt ctl) (Tracks.init (built_of_new built).seen)
    (fun _ _ _ _ tracks => tracks.agree)
    (fun done call rest split tracks schedule => tracks.snoc (fun e => early done call rest e split) schedule)

/-- A call without history. -/
def emptyCall : AdaptiveCall := { flatCall with history := [] }

/-- A window of another symbol. -/
def foreignCall : AdaptiveCall := { flatCall with history := List.replicate 20 ⟨"ETHUSDT", .m1, 100, 0, "dummy"⟩ }

/-- A call that comes too early. -/
theorem failed_steps_traceless_iff_short : ∃ ctl, new "BTCUSDT" [⟨2, 30⟩, ⟨3, 5⟩] shortest = .ok ctl ∧
    ∀ done call rest, [emptyCall, flatCall] = done ++ call :: rest → Unchanged id ctl done call := by
  obtain ⟨ctl, built, check⟩ := Run.endsIn_iff.mp
    (show Run.endsIn (new "BTCUSDT" [⟨2, 30⟩, ⟨3, 5⟩] shortest) (fun ctl =>
      Run.endsIn ((machine id).answer ((machine id).after ctl [emptyCall]) flatCall) fun _ => true) = true by decide +kernel)
  obtain ⟨decision, second, -⟩ := Run.endsIn_iff.mp check
  have configured : ctl.config = shortest := (built_of_new built).configured
  have lacks : ∀ done call rest e, [emptyCall, flatCall] = done ++ call :: rest →
      (machine id).answer ((machine id).after ctl done) call = .error e → ¬ Enough ctl.config call := by
    intro done call rest e split raised
    rw [configured]
    match done, split with
    | [], split =>
      obtain ⟨rfl, -⟩ := List.cons.inj split
      decide
    | [c], split =>
      obtain ⟨rfl, tail⟩ := List.cons.inj split
      obtain ⟨rfl, -⟩ := List.cons.inj tail
      rw [second] at raised
      cases raised
    | c :: c' :: more, split => simp at split
  refine ⟨ctl, built, (failed_steps_traceless_iff built _ ?_).mpr ?_⟩
  · intro done call rest e split raised
    exact .inl (by rw [config_after]; exact lacks done call rest e split raised)
  · intro done call rest split
    exact onSchedule_of_short fun before c more e cut raised =>
      lacks before c (more ++ call :: rest) e (by rw [split, cut]; simp) raised

/-- After a window of another symbol, the first decision holds a selection that was never
made; without that window it retunes. -/
theorem failed_step_holds_foreign : ∃ ctl, new "BTCUSDT" [⟨2, 30⟩, ⟨3, 5⟩] shortest = .ok ctl ∧
    (∃ e, (machine id).answer ctl foreignCall = .error e) ∧ ¬ Unchanged id ctl [foreignCall] flatCall := by
  obtain ⟨ctl, built, check⟩ := Run.endsIn_iff.mp
    (show Run.endsIn (new "BTCUSDT" [⟨2, 30⟩, ⟨3, 5⟩] shortest) (fun ctl =>
      !((machine id).answer ctl foreignCall).isOk &&
      Run.endsIn ((machine id).answer ((machine id).after ctl [foreignCall]) flatCall) (fun d => d.mode = .hold) &&
      Run.endsIn ((machine id).answer ctl flatCall) fun d => d.mode = .retune) = true by decide +kernel)
  obtain ⟨both, retuned⟩ := Bool.and_eq_true_iff.mp check
  obtain ⟨raised, held⟩ := Bool.and_eq_true_iff.mp both
  obtain ⟨decision, second, hold⟩ := Run.endsIn_iff.mp held
  obtain ⟨first, alone, retune⟩ := Run.endsIn_iff.mp retuned
  have deleted : answeredCalls id ctl [foreignCall] = [] := by
    unfold answeredCalls Run.Machine.kept
    rw [if_neg (by simpa using raised)]
    rfl
  refine ⟨ctl, built, ?_, fun unchanged => ?_⟩
  · cases outcome : (machine id).answer ctl foreignCall with
    | error e => exact ⟨e, rfl⟩
    | ok d => rw [outcome] at raised; cases raised
  · have same := (unchanged decision second).1
    rw [deleted, show (machine id).after ctl [] = ctl from rfl, alone] at same
    cases same
    exact absurd ((of_decide_eq_true hold).symm.trans (of_decide_eq_true retune)) (by decide)

end Runs

end AdaptiveParameterController

end CryptoQuant
