import CryptoQuant.Strategy.Adaptive
import CryptoQuant.Strategy.OptimizerPnl

/-!
# What the adaptive controller selects

The optimizer evaluates the candidates whose fast window is below the slow one and skips
the others; the bandit picks among all candidates. So a pick is on the leaderboard of its
optimization exactly when it is one of the former.
-/

namespace CryptoQuant
set_option autoImplicit false

/-! ## The optimizer -/

/-- The pairs the crossover strategy takes. -/
theorem MovingAverageCrossoverStrategy.exists_new {fastWindow slowWindow : ℤ} {baseQty : ℚ} (fast : 0 < fastWindow)
    (below : fastWindow < slowWindow) (base : 0 < baseQty) : ∃ strategy, new fastWindow slowWindow baseQty = .ok strategy := by
  unfold new
  rw [dif_neg (by omega), dif_neg (by omega), dif_neg (not_le.mpr base)]
  exact ⟨_, rfl⟩

namespace AutomatedStrategyOptimizer
variable {optimizer : AutomatedStrategyOptimizer} {events : List MarketEvent} {grid : List StrategyParameterSet}
  {params : StrategyParameterSet}

/-- An evaluation is of its parameters. -/
theorem evaluate_params {evaluation : StrategyEvaluation}
    (evaluated : optimizer.evaluate events params = .ok evaluation) : evaluation.params = params := by
  obtain ⟨ev, -, rest⟩ := Run.bind_ok.mp evaluated
  obtain ⟨last, -, done⟩ := Run.bind_ok.mp rest
  cases done
  rfl

/-- **The leaderboard** holds the candidates whose fast window is below the slow one,
and no others. -/
theorem optimize_leaderboard {result : StrategyOptimizationResult}
    (optimized : optimizer.optimize events grid = .ok result) :
    (∃ e ∈ result.leaderboard, e.params = params) ↔ params ∈ grid ∧ params.fastWindow < params.slowWindow := by
  obtain ⟨_, -, rest⟩ := Run.bind_ok.mp optimized
  obtain ⟨evaluations, mapped, rest⟩ := Run.bind_ok.mp rest
  have sorted : result.leaderboard = evaluations.insertionSort fun a b => b.score ≤ a.score := by
    generalize evaluations.insertionSort (fun a b => b.score ≤ a.score) = board at rest
    cases board with
    | nil => cases rest
    | cons best others =>
      cases rest
      rfl
  obtain ⟨forward, backward⟩ := Run.forall_of_mapM mapped
  rw [sorted]
  constructor
  · rintro ⟨e, member, rfl⟩
    obtain ⟨p, among, evaluated⟩ := backward e ((List.mem_insertionSort _).mp member)
    rw [evaluate_params evaluated]
    simpa using List.mem_filter.mp among
  · rintro ⟨member, below⟩
    obtain ⟨e, among, evaluated⟩ := forward params (List.mem_filter.mpr ⟨member, decide_eq_true below⟩)
    exact ⟨e, (List.mem_insertionSort _).mpr among, evaluate_params evaluated⟩

/-- An evaluated pair is one the crossover strategy takes. -/
theorem evaluate_valid {evaluation : StrategyEvaluation} (evaluated : optimizer.evaluate events params = .ok evaluation) :
    0 < params.fastWindow ∧ params.fastWindow < params.slowWindow := by
  obtain ⟨ev, replayed, -⟩ := Run.bind_ok.mp evaluated
  obtain ⟨strategy, built, -⟩ := Run.bind_ok.mp replayed
  unfold MovingAverageCrossoverStrategy.new at built
  split at built
  · cases built
  · split at built
    · cases built
    · omega

/-- The evaluations of an optimization are of the candidates that are not skipped. -/
theorem evaluations_of_optimize {result : StrategyOptimizationResult} (optimized : optimizer.optimize events grid = .ok result)
    (member : params ∈ grid) (below : params.fastWindow < params.slowWindow) :
    ∃ events evaluation, optimizer.evaluate events params = .ok evaluation := by
  obtain ⟨_, -, rest⟩ := Run.bind_ok.mp optimized
  obtain ⟨evaluations, mapped, -⟩ := Run.bind_ok.mp rest
  obtain ⟨e, -, evaluated⟩ := (Run.forall_of_mapM mapped).1 params
    (List.mem_filter.mpr ⟨member, decide_eq_true below⟩)
  exact ⟨_, e, evaluated⟩

/-- A candidate that is not skipped and has no positive fast window fails every
optimization. -/
theorem not_optimize_of_nonpositive (member : params ∈ grid) (below : params.fastWindow < params.slowWindow)
    (nonpositive : params.fastWindow ≤ 0) (result : StrategyOptimizationResult) :
    optimizer.optimize events grid ≠ .ok result := by
  intro optimized
  obtain ⟨_, _, evaluated⟩ := evaluations_of_optimize optimized member below
  have := (evaluate_valid evaluated).1
  omega

/-- With positive fast windows where they are not skipped, some candidate that is not
skipped, and an event of the symbol with positive closes, the optimization succeeds. -/
theorem optimize_succeeds (fee : 0 ≤ optimizer.feeBps) (slippage : 0 ≤ optimizer.slippageBps)
    (positive : ∀ p ∈ grid, p.fastWindow < p.slowWindow → 0 < p.fastWindow)
    (some_ : ∃ p ∈ grid, p.fastWindow < p.slowWindow) (closes : ∀ e ∈ events, 0 < e.close)
    (own : ∃ e ∈ events, e.symbol = optimizer.symbol) : ∃ result, optimizer.optimize events grid = .ok result := by
  let candidateEvents := sortedByTs (events.filter fun e => e.symbol = optimizer.symbol)
  have nonempty : candidateEvents ≠ [] := by
    obtain ⟨e, member, symbol⟩ := own
    exact List.ne_nil_of_mem (mem_sortedByTs.mpr (List.mem_filter.mpr ⟨member, decide_eq_true symbol⟩))
  have closes' : ∀ e ∈ candidateEvents, 0 < e.close := fun e member =>
    closes e (List.mem_of_mem_filter (mem_sortedByTs.mp member))
  have each : ∀ p ∈ grid.filter fun params => params.fastWindow < params.slowWindow,
      ∃ evaluation, optimizer.evaluate candidateEvents p = .ok evaluation := by
    intro p among
    obtain ⟨member, below⟩ := List.mem_filter.mp among
    have below := of_decide_eq_true below
    have fast := positive p member below
    obtain ⟨strategy, valid⟩ := MovingAverageCrossoverStrategy.exists_new fast below optimizer.baseQty_pos
    obtain ⟨ev, replayed, -⟩ := replay_spec valid fee slippage closes'
    obtain ⟨last, found⟩ : ∃ last, lastItem candidateEvents = .ok last := by
      unfold lastItem
      rw [List.getLast?_eq_some_getLast nonempty]
      exact ⟨_, rfl⟩
    exact ⟨_, Run.bind_ok.mpr ⟨ev, replayed, Run.bind_ok.mpr ⟨last, found, rfl⟩⟩⟩
  obtain ⟨evaluations, mapped⟩ := Run.mapM_of_forall each
  obtain ⟨p, member, below⟩ := some_
  obtain ⟨e, among, -⟩ := (Run.forall_of_mapM mapped).1 p (List.mem_filter.mpr ⟨member, decide_eq_true below⟩)
  have ranked : e ∈ evaluations.insertionSort fun a b => b.score ≤ a.score := (List.mem_insertionSort _).mpr among
  obtain ⟨best, rest, sorted⟩ := List.exists_cons_of_ne_nil (List.ne_nil_of_mem ranked)
  refine ⟨⟨best, best :: rest⟩, Run.bind_ok.mpr ⟨(), raiseIf_ok.mpr nonempty, Run.bind_ok.mpr ⟨evaluations, mapped, ?_⟩⟩⟩
  rw [sorted]

end AutomatedStrategyOptimizer

/-! ## The bandit -/

theorem Draw.mem_of_choice {α : Type} {draw : Draw} {items : List α} {item : α}
    (chosen : draw.choice items = .ok item) : item ∈ items := by
  unfold Draw.choice at chosen
  split at chosen
  · rename_i x found
    cases chosen
    exact List.mem_of_getElem? found
  · cases chosen

/-- Every item can be drawn. -/
theorem Draw.exists_choice {α : Type} {items : List α} {item : α} (member : item ∈ items) :
    ∃ draw : Draw, draw.random = 0 ∧ draw.choice items = .ok item := by
  obtain ⟨place, bound, here⟩ := List.mem_iff_getElem.mp member
  refine ⟨⟨0, place, le_rfl, zero_lt_one⟩, rfl, ?_⟩
  unfold Draw.choice
  rw [Nat.mod_eq_of_lt bound, List.getElem?_eq_getElem bound, here]

namespace EpsilonGreedyParameterBandit
variable {bandit : EpsilonGreedyParameterBandit} {params : StrategyParameterSet} {draw : Draw}

/-- The means are of candidates. -/
theorem mem_means {items : List StrategyParameterSet} {means : Py.Dict StrategyParameterSet ℚ}
    (built : items.foldlM bandit.addMean .empty = .ok means) : ∀ p ∈ means.keys, p ∈ items := by
  refine Run.invariant (P := fun done (means : Py.Dict StrategyParameterSet ℚ) => ∀ p ∈ means.keys, p ∈ done)
    (fun p member => absurd member List.not_mem_nil) ?_ (List.append_nil items).symm built
  intro done candidate rest means means' _ before added p member
  obtain ⟨mean, -, done_⟩ := Run.bind_ok.mp added
  cases done_
  rcases Py.Dict.mem_keys_set.mp member with rfl | old
  · simp
  · exact List.mem_append_left _ (before p old)

/-- **A selection is a candidate.** -/
theorem mem_of_select (selected : bandit.select draw = .ok params) : params ∈ bandit.candidates := by
  unfold select at selected
  split at selected
  · exact Draw.mem_of_choice selected
  · obtain ⟨means, built, rest⟩ := Run.bind_ok.mp selected
    obtain ⟨best, -, chosen⟩ := Run.bind_ok.mp rest
    obtain ⟨item, among, rfl⟩ := List.mem_map.mp (Draw.mem_of_choice chosen)
    exact mem_means built _ (List.mem_map_of_mem (List.mem_of_mem_filter among))

/-- The bandit has seen no reward. -/
structure Unrewarded (candidates : List StrategyParameterSet) (bandit : EpsilonGreedyParameterBandit) : Prop where
  own : bandit.candidates = candidates
  count : ∀ p ∈ candidates, bandit.rewardCount.get? p = some 0
  sum : ∀ p ∈ candidates, bandit.rewardSum.get? p = some 0

theorem unrewarded_new {candidates : List StrategyParameterSet} {epsilon : ℚ}
    (built : new candidates epsilon = .ok bandit) : Unrewarded candidates bandit := by
  obtain ⟨_, -, rest⟩ := Run.bind_ok.mp built
  obtain ⟨_, -, done⟩ := Run.bind_ok.mp rest
  cases done
  exact ⟨rfl, fun p member => by rw [Py.Dict.get?_ofKeys, if_pos member],
    fun p member => by rw [Py.Dict.get?_ofKeys, if_pos member]⟩

/-- Before any reward all means are zero. -/
theorem Unrewarded.means {candidates : List StrategyParameterSet} (fresh : Unrewarded candidates bandit) :
    ∃ means, candidates.foldlM bandit.addMean .empty = .ok means ∧
      (∀ item ∈ means.items, item.2 = 0) ∧ ∀ p ∈ candidates, p ∈ means.keys := by
  have go (done : List StrategyParameterSet) (candidate : StrategyParameterSet) (rest : List StrategyParameterSet)
      (means : Py.Dict StrategyParameterSet ℚ) (split : candidates = done ++ candidate :: rest)
      (before : (∀ item ∈ means.items, item.2 = 0) ∧ ∀ p ∈ done, p ∈ means.keys) :
      ∃ means', bandit.addMean means candidate = .ok means' ∧
        (∀ item ∈ means'.items, item.2 = 0) ∧ ∀ p ∈ done ++ [candidate], p ∈ means'.keys := by
    obtain ⟨zero, keys⟩ := before
    have among : candidate ∈ candidates := by rw [split]; simp
    have mean : bandit.meanReward candidate = .ok 0 := by
      unfold meanReward
      rw [getItem_of_get? (fresh.count candidate among)]
      rfl
    refine ⟨means.set candidate 0, Run.bind_ok.mpr ⟨0, mean, rfl⟩, fun item member => ?_, fun p member => ?_⟩
    · have found := Py.Dict.get?_of_mem member
      rw [Py.Dict.get?_set] at found
      split at found
      · exact (Option.some.inj found).symm
      · exact zero _ (Py.Dict.mem_of_get? found)
    · rw [Py.Dict.mem_keys_set]
      rcases List.mem_append.mp member with before | last
      · exact .inr (keys p before)
      · exact .inl (List.mem_singleton.mp last)
  have base : (∀ item ∈ (Py.Dict.empty : Py.Dict StrategyParameterSet ℚ).items, item.2 = 0) ∧
      ∀ p ∈ ([] : List StrategyParameterSet), p ∈ (Py.Dict.empty : Py.Dict StrategyParameterSet ℚ).keys :=
    ⟨fun item member => absurd member List.not_mem_nil, fun p member => absurd member List.not_mem_nil⟩
  obtain ⟨means, built, zero, keys⟩ := Run.progress base go (List.append_nil candidates).symm
  exact ⟨means, built, zero, keys⟩

/-- **Every candidate can be selected first**, with any epsilon. -/
theorem Unrewarded.exists_select {candidates : List StrategyParameterSet} (fresh : Unrewarded candidates bandit)
    (member : params ∈ candidates) : ∃ draw, bandit.select draw = .ok params := by
  unfold select
  rw [fresh.own]
  by_cases explores : 0 < bandit.epsilon
  · obtain ⟨draw, zero, chosen⟩ := Draw.exists_choice member
    exact ⟨draw, by rw [zero, if_pos explores, chosen]⟩
  · -- all means are equal, so the exploitation draws among all candidates
    obtain ⟨means, built, zero, keys⟩ := fresh.means
    have values : ∀ v ∈ means.values, v = 0 := by
      intro v among
      obtain ⟨item, here, rfl⟩ := List.mem_map.mp among
      exact zero item here
    obtain ⟨mean, found⟩ := Py.Dict.mem_keys_iff.mp (keys params member)
    have item := Py.Dict.mem_of_get? found
    have listed : mean ∈ means.values := List.mem_map_of_mem (f := Prod.snd) item
    obtain ⟨best, isBest⟩ : ∃ best, means.values.max? = some best := by
      cases largest : means.values.max? with
      | none => rw [List.max?_eq_none_iff] at largest; rw [largest] at listed; cases listed
      | some best => exact ⟨best, rfl⟩
    have best_zero : best = 0 := values best (List.max?_mem isBest)
    have top : params ∈ (means.items.filter fun item => item.2 = best).map Prod.fst := by
      refine List.mem_map.mpr ⟨(params, mean), List.mem_filter.mpr ⟨item, decide_eq_true ?_⟩, rfl⟩
      exact (values mean listed).trans best_zero.symm
    obtain ⟨draw, random, chosen⟩ := Draw.exists_choice top
    refine ⟨draw, ?_⟩
    rw [random, if_neg explores]
    refine Run.bind_ok.mpr ⟨means, built, Run.bind_ok.mpr ⟨best, ?_, chosen⟩⟩
    unfold maxValue
    rw [isBest]

/-- A candidate's reward is booked. -/
theorem Unrewarded.update_ok {candidates : List StrategyParameterSet} (fresh : Unrewarded candidates bandit)
    (member : params ∈ candidates) (reward : ℚ) : ∃ bandit', bandit.update params reward = .ok bandit' := by
  unfold update
  rw [fresh.sum params member]
  exact ⟨_, Run.bind_ok.mpr ⟨0, getItem_of_get? (fresh.count params member), rfl⟩⟩

theorem update_candidates {bandit' : EpsilonGreedyParameterBandit} {reward : ℚ}
    (updated : bandit.update params reward = .ok bandit') : bandit'.candidates = bandit.candidates := by
  unfold update at updated
  split at updated
  · cases updated
  · obtain ⟨_, -, done⟩ := Run.bind_ok.mp updated
    cases done
    rfl

end EpsilonGreedyParameterBandit

/-! ## The controller -/

namespace AdaptiveParameterController
variable {sqrt : ℚ → ℚ} {origin ctl : AdaptiveParameterController} {call : AdaptiveCall} {decision : AdaptiveDecision}

/-- Rewards are adjusted by the prediction or by the sentiment, which divides by the
slow window. -/
def AdjustsRewards (ctl : AdaptiveParameterController) : Prop :=
  ctl.config.enableMlAdaptation = true ∨ (ctl.config.enableSentimentOverlay = true ∧ ctl.sentimentPipeline = true)

instance (ctl : AdaptiveParameterController) : Decidable ctl.AdjustsRewards := inferInstanceAs (Decidable (_ ∨ _))

/-- What a controller keeps of the one it was built as, and what its last pick and its
cached optimization are. -/
structure Descends (origin ctl : AdaptiveParameterController) : Prop where
  candidates : ctl.candidates = origin.candidates
  config : ctl.config = origin.config
  optimizer : ctl.optimizer = origin.optimizer
  pipeline : ctl.sentimentPipeline = origin.sentimentPipeline
  modelled : ctl.model.isSome = origin.config.enableMlAdaptation
  bandit : ctl.bandit.candidates = origin.candidates
  last : ctl.lastSelected ∈ origin.candidates
  cached : ∀ o, ctl.lastOptimization = some o → ∃ window, origin.optimizer.optimize window origin.candidates = .ok o

/-- The decision is one the controller can come to: its optimization is one of the
candidates, its pick is a candidate, and no division by its slow window failed. -/
structure Decided (origin : AdaptiveParameterController) (decision : AdaptiveDecision) : Prop where
  optimized : ∃ window, origin.optimizer.optimize window origin.candidates = .ok decision.optimization
  picked : decision.selectedParams ∈ origin.candidates
  divides : origin.AdjustsRewards → decision.selectedParams.slowWindow ≠ 0

/-- The model and the epsilon of the bandit are all that `adapt` changes. -/
theorem adapt_cases (sqrt : ℚ → ℚ) (ctl : AdaptiveParameterController) (closes : List ℚ) :
    ∃ model epsilon, (ctl.adapt sqrt closes).2 = { ctl with model, bandit := { ctl.bandit with epsilon } } ∧
      model.isSome = ctl.model.isSome ∧
      ∀ result, (ctl.adapt sqrt closes).1 = .ok result → result.1.isSome = ctl.model.isSome := by
  unfold adapt
  cases model : ctl.model with
  | none => exact ⟨ctl.model, ctl.bandit.epsilon, rfl, by rw [model], fun result here => by cases here; rfl⟩
  | some m =>
    simp only
    split
    · unfold EpsilonGreedyParameterBandit.setEpsilon
      split
      · rename_i refused
        split at refused
        · cases refused
        · exact ⟨_, ctl.bandit.epsilon, rfl, rfl, fun result here => by cases here⟩
      · rename_i accepted
        split at accepted
        · cases accepted
          exact ⟨_, _, rfl, rfl, fun result here => by cases here; rfl⟩
        · cases accepted
    · exact ⟨_, ctl.bandit.epsilon, rfl, rfl, fun result here => by cases here; rfl⟩

theorem Descends.adapt (descends : Descends origin ctl) (sqrt : ℚ → ℚ) (closes : List ℚ) :
    Descends origin (ctl.adapt sqrt closes).2 ∧
      ∀ result, (ctl.adapt sqrt closes).1 = .ok result → result.1.isSome = origin.config.enableMlAdaptation := by
  obtain ⟨model, epsilon, after, modelled, predicts⟩ := adapt_cases sqrt ctl closes
  rw [after]
  exact ⟨⟨descends.candidates, descends.config, descends.optimizer, descends.pipeline,
    modelled.trans descends.modelled, descends.bandit, descends.last, descends.cached⟩,
    fun result here => (predicts result here).trans descends.modelled⟩

theorem aggressiveness_ok {params : StrategyParameterSet} {x : ℚ} (divided : aggressiveness params = .ok x) :
    params.slowWindow ≠ 0 := by
  obtain ⟨_, checked, -⟩ := Run.bind_ok.mp divided
  exact raiseIf_ok.mp checked

/-- A reward that was adjusted divided by the slow window. -/
theorem reward_divides {optimization : StrategyOptimizationResult} {predicted : Option ℚ}
    {answer : Except PyError SentimentSnapshot} {params : StrategyParameterSet} {result : ℚ × Option SentimentSnapshot}
    (rewarded : ctl.reward optimization predicted answer params = .ok result)
    (adjusts : predicted.isSome = true ∨ (ctl.config.enableSentimentOverlay = true ∧ ctl.sentimentPipeline = true)) :
    params.slowWindow ≠ 0 := by
  obtain ⟨ml, mlDone, rest⟩ := Run.bind_ok.mp rewarded
  obtain ⟨snapshot, asked, rest⟩ := Run.bind_ok.mp rest
  obtain ⟨sentiment, sentimentDone, -⟩ := Run.bind_ok.mp rest
  rcases adjusts with predicts | ⟨overlay, pipeline⟩
  · obtain ⟨p, rfl⟩ := Option.isSome_iff_exists.mp predicts
    obtain ⟨_, divided, -⟩ := Run.bind_ok.mp mlDone
    exact aggressiveness_ok divided
  · unfold sentimentSnapshot at asked
    rw [overlay, pipeline] at asked
    cases answer with
    | error e => cases asked
    | ok s =>
      cases asked
      obtain ⟨_, divided, -⟩ := Run.bind_ok.mp sentimentDone
      exact aggressiveness_ok divided

/-- A settled step picks a candidate, whose reward is booked. -/
theorem Descends.settle (descends : Descends origin ctl) {optimization : StrategyOptimizationResult}
    {predicted epsilon : Option ℚ} {bandit : EpsilonGreedyParameterBandit}
    (settled : ctl.settle call optimization predicted epsilon = .ok (decision, bandit)) :
    bandit.candidates = origin.candidates ∧ decision.optimization = optimization ∧
      decision.selectedParams ∈ origin.candidates ∧
      (predicted.isSome = true ∨ (ctl.config.enableSentimentOverlay = true ∧ ctl.sentimentPipeline = true) →
        decision.selectedParams.slowWindow ≠ 0) := by
  obtain ⟨params, picked, rest⟩ := Run.bind_ok.mp settled
  obtain ⟨⟨reward, snapshot⟩, rewarded, rest⟩ := Run.bind_ok.mp rest
  obtain ⟨bandit', updated, done⟩ := Run.bind_ok.mp rest
  cases done
  refine ⟨(EpsilonGreedyParameterBandit.update_candidates updated).trans descends.bandit, rfl, ?_,
    fun adjusts => reward_divides rewarded adjusts⟩
  unfold pick at picked
  split at picked
  · exact descends.bandit ▸ EpsilonGreedyParameterBandit.mem_of_select picked
  · cases picked
    exact descends.last

/-- A step once the optimization is there. -/
theorem Descends.conclude (descends : Descends origin ctl) {optimization : StrategyOptimizationResult}
    (optimized : ∃ window, origin.optimizer.optimize window origin.candidates = .ok optimization) :
    Descends origin (ctl.conclude sqrt call optimization).2 ∧
      ∀ decision, (ctl.conclude sqrt call optimization).1 = .ok decision → Decided origin decision := by
  obtain ⟨adapted, predicts⟩ := descends.adapt sqrt ((ctl.windowOf call.history).map MarketEvent.close)
  unfold AdaptiveParameterController.conclude
  generalize ctl.adapt sqrt ((ctl.windowOf call.history).map MarketEvent.close) = outcome at adapted predicts
  obtain ⟨_ | ⟨predicted, epsilon⟩, after⟩ := outcome
  · exact ⟨adapted, fun decision here => by cases here⟩
  simp only
  cases settled : after.settle call optimization predicted epsilon with
  | error e => exact ⟨adapted, fun decision here => by cases here⟩
  | ok result =>
    obtain ⟨decision, bandit⟩ := result
    obtain ⟨own, same, picked, divides⟩ := adapted.settle settled
    refine ⟨⟨adapted.candidates, adapted.config, adapted.optimizer, adapted.pipeline, adapted.modelled, own, picked,
      adapted.cached⟩, fun d here => ?_⟩
    cases here
    refine ⟨same ▸ optimized, picked, fun adjusts => divides ?_⟩
    rcases adjusts with ml | sentiment
    · exact .inl ((predicts _ rfl).trans ml)
    · exact .inr (by rw [adapted.config, adapted.pipeline]; exact sentiment)

/-- **Step lemma.** -/
theorem Descends.step (descends : Descends origin ctl) (call : AdaptiveCall) :
    Descends origin (ctl.step sqrt call).2 ∧ ∀ decision, (ctl.step sqrt call).1 = .ok decision → Decided origin decision := by
  unfold AdaptiveParameterController.step
  split
  · exact ⟨descends, fun decision here => by cases here⟩
  let counted := { ctl with eventsSeen := ctl.eventsSeen + 1 }
  have counts : Descends origin counted := ⟨descends.candidates, descends.config, descends.optimizer, descends.pipeline,
    descends.modelled, descends.bandit, descends.last, descends.cached⟩
  simp only
  cases found : counted.optimization (counted.windowOf call.history) with
  | error e => exact ⟨counts, fun decision here => by cases here⟩
  | ok o =>
    have optimized : ∃ window, origin.optimizer.optimize window origin.candidates = .ok o := by
      unfold optimization at found
      split at found
      · rename_i cached
        cases found
        exact descends.cached _ cached
      · rw [counts.optimizer, counts.candidates] at found
        exact ⟨_, found⟩
    refine Descends.conclude ?_ optimized
    refine ⟨counts.candidates, counts.config, counts.optimizer, counts.pipeline, counts.modelled, counts.bandit,
      counts.last, fun o' here => ?_⟩
    cases here
    exact optimized

end AdaptiveParameterController

end CryptoQuant
