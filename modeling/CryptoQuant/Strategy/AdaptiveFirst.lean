import CryptoQuant.Strategy.AdaptiveSelection

/-!
# The first step of an adaptive controller

The first step retunes, and before any reward all candidates look the same to the
bandit. So every candidate whose reward can be computed is picked by some first step,
also a candidate that the optimizer skipped.
-/

namespace CryptoQuant
set_option autoImplicit false

namespace AdaptiveParameterController
variable {sqrt : ℚ → ℚ} {ctl : AdaptiveParameterController}

variable {symbol : String} {candidates : List StrategyParameterSet} {config : AdaptiveStrategyConfig}
  {objective : OptimizationObjective} {baseQty : ℚ} {pipeline : Bool} {params : StrategyParameterSet}

/-- What the constructor builds. -/
structure Built (symbol : String) (candidates : List StrategyParameterSet) (config : AdaptiveStrategyConfig)
    (pipeline : Bool) (ctl : AdaptiveParameterController) : Prop where
  checked : config.check = .ok ()
  own : ctl.candidates = candidates
  configured : ctl.config = config
  symbol : ctl.optimizer.symbol = symbol
  fee : ctl.optimizer.feeBps = 0
  slippage : ctl.optimizer.slippageBps = 0
  bandit : ctl.bandit.Unrewarded candidates
  seen : ctl.eventsSeen = 0
  last : ctl.lastSelected ∈ candidates
  cached : ctl.lastOptimization = none
  model : ctl.model.isSome = config.enableMlAdaptation
  connected : ctl.sentimentPipeline = pipeline

theorem built_of_new (built : new symbol candidates config objective baseQty pipeline = .ok ctl) :
    Built symbol candidates config pipeline ctl := by
  obtain ⟨_, checked, rest⟩ := Run.bind_ok.mp built
  cases candidates with
  | nil => cases rest
  | cons first others =>
    obtain ⟨optimizer, optimizerBuilt, rest⟩ := Run.bind_ok.mp rest
    obtain ⟨bandit, banditBuilt, done⟩ := Run.bind_ok.mp rest
    have fresh := EpsilonGreedyParameterBandit.unrewarded_new banditBuilt
    unfold AutomatedStrategyOptimizer.new at optimizerBuilt
    split at optimizerBuilt
    · cases optimizerBuilt
      cases done
      refine ⟨checked, rfl, rfl, rfl, rfl, rfl, fresh, rfl, List.mem_cons_self, rfl, ?_, rfl⟩
      cases config.enableMlAdaptation <;> rfl
    · cases optimizerBuilt

theorem Built.descends (built : Built symbol candidates config pipeline ctl) : Descends ctl ctl where
  candidates := rfl
  config := rfl
  optimizer := rfl
  pipeline := rfl
  modelled := by rw [built.model, built.configured]
  bandit := by rw [built.bandit.own, built.own]
  last := by rw [built.own]; exact built.last
  cached := fun o here => by rw [built.cached] at here; cases here

/-- The bounds of the exploration rate, and the length of a window. -/
theorem bounds_of_check (checked : config.check = .ok ()) :
    20 ≤ config.lookbackEvents ∧ 0 ≤ config.epsilonMin ∧ config.epsilonMin ≤ config.epsilonMax ∧ config.epsilonMax ≤ 1 := by
  obtain ⟨_, lookback, rest⟩ := Run.bind_ok.mp checked
  obtain ⟨_, -, rest⟩ := Run.bind_ok.mp rest
  obtain ⟨_, -, rest⟩ := Run.bind_ok.mp rest
  obtain ⟨_, -, rest⟩ := Run.bind_ok.mp rest
  obtain ⟨_, rate, -⟩ := Run.bind_ok.mp rest
  exact ⟨not_lt.mp (raiseIf_ok.mp lookback), not_not.mp (raiseIf_ok.mp rate)⟩

/-- **The exploration rate** set at a retune is between its bounds. -/
theorem dynamicEpsilon_mem (ctl : AdaptiveParameterController) (checked : ctl.config.check = .ok ()) (sqrt : ℚ → ℚ) (closes : List ℚ) (predicted : ℚ) :
    ctl.config.epsilonMin ≤ ctl.dynamicEpsilon sqrt closes predicted ∧
      ctl.dynamicEpsilon sqrt closes predicted ≤ ctl.config.epsilonMax := by
  obtain ⟨-, -, ordered, -⟩ := bounds_of_check checked
  let vol := stdevOf sqrt (returnsOf closes)
  let confidence := if vol ≤ 1 / 1000000000 then 0 else min 1 (|predicted| / vol)
  have within : 0 ≤ confidence ∧ confidence ≤ 1 := by
    by_cases calm : vol ≤ 1 / 1000000000
    · have zero : confidence = 0 := if_pos calm
      rw [zero]
      exact ⟨le_rfl, zero_le_one⟩
    · have share : confidence = min 1 (|predicted| / vol) := if_neg calm
      have positive : 0 < vol := lt_trans (by norm_num) (not_le.mp calm)
      rw [share]
      exact ⟨le_min zero_le_one (div_nonneg (abs_nonneg _) positive.le), min_le_left _ _⟩
  have spread : 0 ≤ ctl.config.epsilonMax - ctl.config.epsilonMin := sub_nonneg.mpr ordered
  have part := mul_le_mul_of_nonneg_left within.2 spread
  have lower := mul_nonneg spread within.1
  show ctl.config.epsilonMin ≤ ctl.config.epsilonMax - (ctl.config.epsilonMax - ctl.config.epsilonMin) * confidence ∧
    ctl.config.epsilonMax - (ctl.config.epsilonMax - ctl.config.epsilonMin) * confidence ≤ ctl.config.epsilonMax
  constructor <;> linarith

/-- The adaptation of an admitted configuration does not fail. -/
theorem adapt_ok (ctl : AdaptiveParameterController) (checked : ctl.config.check = .ok ()) (sqrt : ℚ → ℚ) (closes : List ℚ) :
    ∃ result, (ctl.adapt sqrt closes).1 = .ok result := by
  obtain ⟨-, low, -, high⟩ := bounds_of_check checked
  unfold adapt
  cases ctl.model with
  | none => exact ⟨_, rfl⟩
  | some m =>
    simp only
    split
    · generalize hm : OnlineLinearReturnModel.fit sqrt m closes ctl.config.mlFeatureWindow.toNat = fitted
      obtain ⟨above, below⟩ := dynamicEpsilon_mem { ctl with model := some fitted } checked sqrt closes
        (fitted.predictNextReturn sqrt closes ctl.config.mlFeatureWindow.toNat)
      unfold EpsilonGreedyParameterBandit.setEpsilon
      rw [if_pos ⟨low.trans above, below.trans high⟩]
      exact ⟨_, rfl⟩
    · exact ⟨_, rfl⟩

theorem aggressiveness_defined (slow : params.slowWindow ≠ 0) : ∃ x, aggressiveness params = .ok x :=
  ⟨_, Run.bind_ok.mpr ⟨(), raiseIf_ok.mpr slow, rfl⟩⟩

/-- The reward can be computed where no adjustment divides by zero. -/
theorem reward_ok (ctl : AdaptiveParameterController) (optimization : StrategyOptimizationResult) (predicted : Option ℚ)
    (snapshot : SentimentSnapshot)
    (divides : predicted.isSome = true ∨ (ctl.config.enableSentimentOverlay = true ∧ ctl.sentimentPipeline = true) →
      params.slowWindow ≠ 0) : ∃ result, ctl.reward optimization predicted (.ok snapshot) params = .ok result := by
  have prediction : ∃ x, ctl.predictionAdjustment params predicted = .ok x := by
    cases predicted with
    | none => exact ⟨0, rfl⟩
    | some p =>
      obtain ⟨x, defined⟩ := aggressiveness_defined (divides (.inl rfl))
      exact ⟨_, Run.bind_ok.mpr ⟨x, defined, rfl⟩⟩
  have sentiment : ∃ s x, ctl.sentimentSnapshot (.ok snapshot) = .ok s ∧ ctl.snapshotAdjustment params s = .ok x := by
    unfold sentimentSnapshot
    split
    · exact ⟨none, 0, rfl, rfl⟩
    · rename_i asked
      have connected : ctl.config.enableSentimentOverlay = true ∧ ctl.sentimentPipeline = true := by simpa using asked
      obtain ⟨x, defined⟩ := aggressiveness_defined (divides (.inr connected))
      exact ⟨some snapshot, _, rfl, Run.bind_ok.mpr ⟨x, defined, rfl⟩⟩
  obtain ⟨x, predicts⟩ := prediction
  obtain ⟨s, y, asked, adjusts⟩ := sentiment
  exact ⟨_, Run.bind_ok.mpr ⟨x, predicts, Run.bind_ok.mpr ⟨s, asked, Run.bind_ok.mpr ⟨y, adjusts, rfl⟩⟩⟩⟩

/-- **First pick.** Any candidate whose reward can be computed is what some first step
of the controller selects. -/
theorem Built.selects (built : Built symbol candidates config pipeline ctl) (sqrt : ℚ → ℚ) (member : params ∈ candidates)
    (divides : ctl.AdjustsRewards → params.slowWindow ≠ 0)
    (positive : ∀ p ∈ candidates, p.fastWindow < p.slowWindow → 0 < p.fastWindow)
    (some_ : ∃ p ∈ candidates, p.fastWindow < p.slowWindow) :
    ∃ call decision, (ctl.step sqrt call).1 = .ok decision ∧ decision.selectedParams = params := by
  have lookback : 20 ≤ ctl.config.lookbackEvents := by
    rw [built.configured]
    exact (bounds_of_check built.checked).1
  let history : List MarketEvent := List.replicate ctl.config.lookbackEvents.toNat ⟨symbol, .m1, 1, 0, "dummy"⟩
  let counted := { ctl with eventsSeen := ctl.eventsSeen + 1 }
  have retunes : counted.shouldRetune = true := by
    show (ctl.eventsSeen + 1 == 1 || _) = true
    rw [built.seen]
    rfl
  have window : counted.windowOf history = history := by
    show history.rtake ctl.config.lookbackEvents.toNat = history
    rw [List.rtake_eq_reverse_take_reverse]
    simp [history]
  obtain ⟨o, optimized⟩ : ∃ o, counted.optimizer.optimize history counted.candidates = .ok o := by
    refine AutomatedStrategyOptimizer.optimize_succeeds built.fee.ge built.slippage.ge ?_ ?_ ?_ ?_
    · rwa [show counted.candidates = candidates from built.own]
    · rwa [show counted.candidates = candidates from built.own]
    · intro e among
      rw [List.eq_of_mem_replicate among]
      exact zero_lt_one
    · refine ⟨⟨symbol, .m1, 1, 0, "dummy"⟩, List.mem_replicate.mpr ⟨by omega, rfl⟩, ?_⟩
      exact built.symbol.symm
  have found : counted.optimization (counted.windowOf history) = .ok o := by
    unfold optimization
    rw [retunes, window]
    exact optimized
  let cached := { counted with lastOptimization := some o }
  have checked : cached.config.check = .ok () := by
    rw [show cached.config = config from built.configured]
    exact built.checked
  obtain ⟨⟨predicted, epsilon⟩, adapted⟩ := adapt_ok cached checked sqrt (history.map MarketEvent.close)
  obtain ⟨model, rate, after, -, predicts⟩ := adapt_cases sqrt cached (history.map MarketEvent.close)
  have fresh : EpsilonGreedyParameterBandit.Unrewarded candidates { ctl.bandit with epsilon := rate } :=
    ⟨built.bandit.own, built.bandit.count, built.bandit.sum⟩
  obtain ⟨draw, drawn⟩ := fresh.exists_select member
  let call : AdaptiveCall := ⟨history, draw, .ok ⟨0, 0⟩⟩
  let tuned := { cached with model, bandit := { ctl.bandit with epsilon := rate } }
  obtain ⟨⟨reward, snapshot⟩, rewarded⟩ := reward_ok tuned o predicted ⟨0, 0⟩ fun (adjusts : _ ∨ _) => divides (by
      rcases adjusts with ml | sentiment
      · exact .inl (by rw [built.configured, ← built.model]; exact (predicts _ adapted).symm.trans ml)
      · exact .inr sentiment)
  obtain ⟨bandit, booked⟩ := fresh.update_ok member reward
  have picked : tuned.pick draw = .ok params := by
    unfold pick
    rw [if_pos (show tuned.shouldRetune = true from retunes)]
    exact drawn
  obtain ⟨decision, settled, selects⟩ : ∃ decision, tuned.settle call o predicted epsilon = .ok (decision, bandit) ∧
      decision.selectedParams = params :=
    ⟨_, Run.bind_ok.mpr ⟨params, picked, Run.bind_ok.mpr ⟨_, rewarded, Run.bind_ok.mpr ⟨bandit, booked, rfl⟩⟩⟩, rfl⟩
  have enough : ¬ (history.length : ℤ) < ctl.config.lookbackEvents := by
    rw [List.length_replicate, Int.toNat_of_nonneg (by omega)]
    exact lt_irrefl _
  refine ⟨call, decision, ?_, selects⟩
  have outcome : cached.adapt sqrt ((cached.windowOf history).map MarketEvent.close) = (.ok (predicted, epsilon), tuned) := by
    rw [show cached.windowOf history = history from window]
    exact Prod.ext adapted after
  calc (ctl.step sqrt call).1
      = (cached.conclude sqrt call o).1 := by
        unfold step
        rw [if_neg enough]
        simp only
        rw [show optimization _ _ = _ from found]
    _ = .ok decision := by
        unfold conclude
        rw [show cached.adapt sqrt ((cached.windowOf call.history).map MarketEvent.close) = _ from outcome]
        simp only
        rw [settled]

/-! ## Evaluated selections -/

/-- The selection was evaluated, and is a pair the crossover strategy takes. -/
structure Evaluated (decision : AdaptiveDecision) : Prop where
  listed : ∃ e ∈ decision.optimization.leaderboard, e.params = decision.selectedParams
  valid : ∀ baseQty, 0 < baseQty → ∃ strategy, MovingAverageCrossoverStrategy.new decision.selectedParams.fastWindow
    decision.selectedParams.slowWindow baseQty = .ok strategy

/-- A decision with a pick that the optimizer does not skip. -/
theorem Decided.evaluated {decision : AdaptiveDecision} (decided : Decided ctl decision)
    (below : decision.selectedParams.fastWindow < decision.selectedParams.slowWindow) : Evaluated decision := by
  obtain ⟨window, optimized⟩ := decided.optimized
  obtain ⟨_, _, evaluated⟩ := AutomatedStrategyOptimizer.evaluations_of_optimize optimized decided.picked below
  have fast := (AutomatedStrategyOptimizer.evaluate_valid evaluated).1
  exact ⟨(AutomatedStrategyOptimizer.optimize_leaderboard optimized).mpr ⟨decided.picked, below⟩,
    fun baseQty base => MovingAverageCrossoverStrategy.exists_new fast below base⟩

/-- Every decision of a run is one the controller can come to. -/
theorem Built.decided (built : Built symbol candidates config pipeline ctl) {calls : List AdaptiveCall}
    {call : AdaptiveCall} {decision : AdaptiveDecision}
    (answered : (machine sqrt).answer ((machine sqrt).after ctl calls) call = .ok decision) : Decided ctl decision := by
  have reached : Descends ctl ((machine sqrt).after ctl calls) :=
    (machine sqrt).always built.descends (fun t i descends => (descends.step i).1) calls
  exact (reached.step call).2 decision answered

/-- **Every selection of every run was evaluated** exactly when all candidates have a
fast window below the slow one, apart from two degenerate kinds: a candidate that makes
every optimization fail, and candidates whose reward always divides by zero. -/
theorem selected_evaluated_iff (sqrt : ℚ → ℚ) (built : new symbol candidates config objective baseQty pipeline = .ok ctl)
    (some_ : ∃ p ∈ candidates, p.fastWindow < p.slowWindow) :
    (∀ calls call decision, (machine sqrt).answer ((machine sqrt).after ctl calls) call = .ok decision →
      Evaluated decision) ↔
    (∃ p ∈ candidates, p.fastWindow < p.slowWindow ∧ p.fastWindow ≤ 0) ∨
      ∀ p ∈ candidates, p.fastWindow < p.slowWindow ∨ (p.slowWindow = 0 ∧
        (config.enableMlAdaptation = true ∨ (config.enableSentimentOverlay = true ∧ pipeline = true))) := by
  have init := built_of_new built
  have adjusts : ctl.AdjustsRewards ↔
      config.enableMlAdaptation = true ∨ (config.enableSentimentOverlay = true ∧ pipeline = true) := by
    unfold AdjustsRewards
    rw [init.configured, init.connected]
  constructor
  · intro holds
    by_contra neither
    obtain ⟨nonpositive, skipped⟩ := not_or.mp neither
    push Not at nonpositive skipped
    obtain ⟨p, member, above, divides⟩ := skipped
    -- a first step selects the skipped candidate
    obtain ⟨call, decision, answered, rfl⟩ := init.selects sqrt member
      (fun a zero => absurd (adjusts.mp a) (by have := divides zero; tauto)) nonpositive some_
    have first : (machine sqrt).answer ((machine sqrt).after ctl []) call = .ok decision := answered
    have optimized := (init.decided first).optimized
    obtain ⟨window, optimized⟩ := optimized
    have below := ((AutomatedStrategyOptimizer.optimize_leaderboard optimized).mp (holds [] call decision first).listed).2
    omega
  · rintro condition calls call decision answered
    have decided := init.decided answered
    have picked : decision.selectedParams ∈ candidates := init.own ▸ decided.picked
    rcases condition with ⟨p, member, below, nonpositive⟩ | each
    · obtain ⟨window, optimized⟩ := decided.optimized
      rw [init.own] at optimized
      exact absurd optimized (AutomatedStrategyOptimizer.not_optimize_of_nonpositive member below nonpositive _)
    · rcases each _ picked with below | ⟨zero, a⟩
      · exact decided.evaluated below
      · exact absurd zero (decided.divides (adjusts.mpr a))

/-- The shortest window of events. -/
def shortest : AdaptiveStrategyConfig := { lookbackEvents := 20 }

/-- Two candidates the optimizer evaluates. -/
theorem selected_evaluated_iff_bothBelow : ∃ ctl, new "BTCUSDT" [⟨2, 30⟩, ⟨3, 5⟩] shortest = .ok ctl ∧
    ∀ calls call decision, (machine id).answer ((machine id).after ctl calls) call = .ok decision → Evaluated decision := by
  obtain ⟨ctl, built, -⟩ := Run.endsIn_iff.mp
    (show Run.endsIn (new "BTCUSDT" [⟨2, 30⟩, ⟨3, 5⟩] shortest) (fun _ => true) = true by decide +kernel)
  refine ⟨ctl, built, (selected_evaluated_iff id built ⟨⟨2, 30⟩, by decide, by decide⟩).mpr (.inr ?_)⟩
  intro p member
  rcases List.mem_pair.mp member with rfl | rfl
  · exact .inl (by decide)
  · exact .inl (by decide)

/-- A flat window, and an exploring draw of the second candidate. -/
def flatCall : AdaptiveCall where
  history := List.replicate 20 ⟨"BTCUSDT", .m1, 100, 0, "dummy"⟩
  draw := ⟨0, 1, le_rfl, zero_lt_one⟩
  snapshot := .ok ⟨0, 0⟩

/-- The bandit explores a candidate that the optimizer skipped. -/
theorem selected_skipped_flat : ∃ ctl, new "BTCUSDT" [⟨2, 30⟩, ⟨5, 3⟩] shortest = .ok ctl ∧
    ∃ decision, (machine id).answer ((machine id).after ctl []) flatCall = .ok decision ∧
      decision.selectedParams = ⟨5, 3⟩ ∧ ∀ e ∈ decision.optimization.leaderboard, e.params ≠ decision.selectedParams := by
  obtain ⟨ctl, built, check⟩ := Run.endsIn_iff.mp
    (show Run.endsIn (new "BTCUSDT" [⟨2, 30⟩, ⟨5, 3⟩] shortest) (fun ctl => Run.endsIn (ctl.step id flatCall).1
      fun d => decide (d.selectedParams = ⟨5, 3⟩ ∧ ∀ e ∈ d.optimization.leaderboard, e.params ≠ d.selectedParams)) = true
      by decide +kernel)
  obtain ⟨decision, answered, skipped⟩ := Run.endsIn_iff.mp check
  exact ⟨ctl, built, decision, answered, of_decide_eq_true skipped⟩

end AdaptiveParameterController

end CryptoQuant
