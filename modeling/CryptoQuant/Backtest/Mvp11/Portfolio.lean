import CryptoQuant.Backtest.Mvp11.Scenarios
import Mathlib.Algebra.BigOperators.Ring.List

/-!
# The multi-strategy backtest of one symbol

`run_multi_strategy_portfolio_backtest` of `backtest/mvp11.py`. It normalises the
weights and hands the strategies to the engine, which normalises the weights
once more. The engine reads strategies only to compute a target, so the run is
the one of a single strategy: the weighted mean of all.
-/

namespace CryptoQuant.Mvp11
set_option autoImplicit false

/-- The target functions of one symbol, by strategy. -/
abbrev TargetFns := Py.Dict String (MarketEvent → ℚ)

/-- `names`. -/
def portfolioNames (fns : TargetFns) : List String := fns.keys.insertionSort (· ≤ ·)

/-- `normalized_weights`, with the checks before it. -/
def portfolioWeights (fns : TargetFns) (weights : Option (Py.Dict String ℚ)) :
    Except PyError (Py.Dict String ℚ) := do
  raiseIf (fns.keys = []) (.valueError "at least one strategy is required")
  let names := portfolioNames fns
  match weights with
  | none => pure (.ofKeys names fun _ => 1 / names.length)
  | some weights =>
    raiseIf (¬ (weights.keys ⊆ names ∧ names ⊆ weights.keys))
      (.valueError "weights keys must match strategy names")
    let totalWeight := (names.map fun name => weights.getD name 0).sum
    raiseIf (totalWeight ≤ 0) (.valueError "weights sum must be > 0")
    pure (.ofKeys names fun name => weights.getD name 0 / totalWeight)

/-- The arguments that `run_multi_strategy_portfolio_backtest` hands on. -/
def portfolioArgs (random : ℤ → ℕ → ℚ) (events : List MarketEvent) (symbol : String) (fns : TargetFns)
    (norm : Py.Dict String ℚ) (config : ExecutionModelConfig) : BacktestArgs where
  events
  strategyTargetQtyFns := Py.Dict.empty.set symbol fns
  strategyWeights := some norm
  config
  draws := random config.randomSeed

/-- `run_multi_strategy_portfolio_backtest`. -/
def runMultiStrategyPortfolioBacktest (random : ℤ → ℕ → ℚ) (events : List MarketEvent) (symbol : String)
    (fns : TargetFns) (weights : Option (Py.Dict String ℚ)) (config : ExecutionModelConfig) :
    Except PyError RealisticBacktestResult := do
  let norm ← portfolioWeights fns weights
  runMultiAssetMultiStrategyBacktest (portfolioArgs random events symbol fns norm config)

/-- The weighted mean of the strategies' targets. -/
def portfolioTarget (fns : TargetFns) (norm : Py.Dict String ℚ) (event : MarketEvent) : ℚ :=
  (fns.items.map fun p => norm.getD p.1 0 * p.2 event).sum

/-! ## Normalised weights -/

/-- A weight for each name, and no others; together they are 1. -/
structure Normalised (names : List String) (norm : Py.Dict String ℚ) : Prop where
  keys : norm.keys = names
  total : (names.map fun name => norm.getD name 0).sum = 1

section Weights
variable {fns : TargetFns} {norm : Py.Dict String ℚ} {weights : Option (Py.Dict String ℚ)}

theorem nodup_portfolioNames (fns : TargetFns) : (portfolioNames fns).Nodup :=
  (List.perm_insertionSort _ _).nodup_iff.mpr fns.nodup_keys

theorem mem_portfolioNames {name : String} : name ∈ portfolioNames fns ↔ name ∈ fns.keys :=
  List.mem_insertionSort _

theorem portfolioNames_ne_nil (named : fns.keys ≠ []) : portfolioNames fns ≠ [] := by
  obtain ⟨name, member⟩ := List.exists_mem_of_ne_nil _ named
  exact List.ne_nil_of_mem (mem_portfolioNames.mpr member)

/-- Shares of a total, one for each of distinct names, are normalised. -/
theorem normalised_ofKeys {names : List String} (distinct : names.Nodup) {share : String → ℚ}
    (total : (names.map share).sum = 1) : Normalised names (.ofKeys names share) where
  keys := Py.Dict.keys_ofKeys distinct share
  total := by
    rw [← total]
    congr 1
    exact List.map_congr_left fun name member => Py.Dict.getD_ofKeys member share 0

theorem portfolioWeights_ok (h : portfolioWeights fns weights = .ok norm) :
    fns.keys ≠ [] ∧ Normalised (portfolioNames fns) norm := by
  unfold portfolioWeights at h
  obtain ⟨⟨⟩, named, h⟩ := Run.bind_ok.mp h
  have named := raiseIf_ok.mp named
  refine ⟨named, ?_⟩
  cases weights with
  | none =>
    cases h
    refine normalised_ofKeys (nodup_portfolioNames fns) ?_
    have many : ((portfolioNames fns).length : ℚ) ≠ 0 := by
      have := List.length_pos_of_ne_nil (portfolioNames_ne_nil named)
      exact_mod_cast this.ne'
    rw [List.map_const', List.sum_replicate, nsmul_eq_mul]
    exact mul_one_div_cancel many
  | some weights =>
    obtain ⟨⟨⟩, -, h⟩ := Run.bind_ok.mp h
    obtain ⟨⟨⟩, positive, h⟩ := Run.bind_ok.mp h
    have positive := raiseIf_ok.mp positive
    cases h
    refine normalised_ofKeys (nodup_portfolioNames fns) ?_
    simp only [div_eq_mul_inv]
    rw [List.sum_map_mul_right]
    exact mul_inv_cancel₀ (fun zero => positive zero.le)

/-- The engine's normalisation leaves normalised weights as they are. -/
theorem normaliseStrategyWeights_of_normalised {names : List String} (distinct : names.Nodup)
    (normalised : Normalised names norm) : normaliseStrategyWeights names (some norm) = .ok norm := by
  have matching : norm.keys ⊆ names ∧ names ⊆ norm.keys := by
    rw [normalised.keys]
    exact ⟨List.Subset.refl _, List.Subset.refl _⟩
  unfold normaliseStrategyWeights
  simp only [matching, normalised.total, and_self, not_true_eq_false, if_false, div_one]
  rw [if_neg (by norm_num)]
  congr 1
  refine Py.Dict.ext_get? ((Py.Dict.keys_ofKeys distinct _).trans normalised.keys.symm) fun name => ?_
  rw [Py.Dict.get?_ofKeys]
  by_cases member : name ∈ names
  · obtain ⟨w, found⟩ := Py.Dict.mem_keys_iff.mp (normalised.keys ▸ member)
    rw [if_pos member, Py.Dict.getD, found]
    rfl
  · rw [if_neg member]
    exact (Py.Dict.get?_eq_none_iff.mpr (normalised.keys ▸ member)).symm

/-- Weights are relative: a common positive factor drops out. -/
theorem portfolioWeights_scale (weights : Py.Dict String ℚ) {c : ℚ} (positive : 0 < c) :
    portfolioWeights fns (some (weights.mapValues fun _ w => c * w)) = portfolioWeights fns (some weights) := by
  have scaled (name : String) : (weights.mapValues fun _ w => c * w).getD name 0 = c * weights.getD name 0 := by
    unfold Py.Dict.getD
    rw [Py.Dict.get?_mapValues]
    cases weights.get? name with
    | none => simp
    | some w => rfl
  have sign (total : ℚ) : c * total ≤ 0 ↔ total ≤ 0 := by
    rw [mul_nonpos_iff_pos_imp_nonpos]
    exact ⟨fun h => h.1 positive, fun h => ⟨fun _ => h, fun _ => positive.le⟩⟩
  unfold portfolioWeights
  simp only [Py.Dict.keys_mapValues, scaled, List.sum_map_mul_left, sign, mul_div_mul_left _ _ positive.ne']

end Weights

/-! ## Engines that differ in their strategies -/

/-- The engine with other strategies, at weights of their own. -/
def Engine.withStrategies (g : Engine) (symbol : String) (fns : TargetFns) (norm : Py.Dict String ℚ) : Engine :=
  { g with strategyTargetQtyFns := Py.Dict.empty.set symbol fns, normStrategyWeights := norm }

section Strategies
variable {g : Engine} {symbol : String} {fns : TargetFns} {norm : Py.Dict String ℚ}

/-- The strategies reach the loop body through the target only. -/
theorem processEvent_withStrategies {event : MarketEvent}
    (target : targetQty (g.withStrategies symbol fns norm) event = targetQty g event) (st : LoopState) :
    processEvent (g.withStrategies symbol fns norm) st event = processEvent g st event := by
  unfold processEvent
  rw [target]
  rfl

/-- The weighted sum of a target, once no weight is missing. -/
theorem weightedSum_eq {fns : List (String × (MarketEvent → ℚ))} (weighted : ∀ p ∈ fns, p.1 ∈ norm.keys)
    (event : MarketEvent) (acc : ℚ) :
    fns.foldlM (fun acc p => do let weight ← getItem norm p.1; pure (acc + weight * p.2 event)) acc =
      (.ok (acc + (fns.map fun p => norm.getD p.1 0 * p.2 event).sum) : Except PyError ℚ) := by
  induction fns generalizing acc with
  | nil => rw [List.map_nil, List.sum_nil, add_zero]; rfl
  | cons p rest ih =>
    obtain ⟨w, found⟩ := Py.Dict.mem_keys_iff.mp (weighted p List.mem_cons_self)
    have value : norm.getD p.1 0 = w := by rw [Py.Dict.getD, found]; rfl
    rw [List.foldlM_cons, getItem_of_get? found, List.map_cons, List.sum_cons, value, ← add_assoc]
    exact ih (fun q member => weighted q (List.mem_cons_of_mem _ member)) (acc + w * p.2 event)

/-- The target of a symbol whose strategies all have a weight. -/
theorem targetQty_of_weighted {event : MarketEvent} (found : g.strategyTargetQtyFns.get? event.symbol = some fns)
    (weighted : ∀ p ∈ fns.items, p.1 ∈ g.normStrategyWeights.keys) : targetQty g event =
      (getItem g.normSymbolWeights event.symbol >>= fun symbolWeight =>
        pure (portfolioTarget fns g.normStrategyWeights event * symbolWeight)) := by
  unfold targetQty
  rw [getItem_of_get? found]
  have sum := weightedSum_eq weighted event 0
  rw [zero_add] at sum
  exact congrArg (· >>= fun weightedSum =>
    getItem g.normSymbolWeights event.symbol >>= fun symbolWeight => pure (weightedSum * symbolWeight)) sum

theorem targetQty_of_missing {event : MarketEvent} (missing : g.strategyTargetQtyFns.get? event.symbol = none) :
    targetQty g event = .error .keyError := by
  unfold targetQty getItem
  rw [missing]
  rfl

end Strategies

section Run
variable (random : ℤ → ℕ → ℚ) (events : List MarketEvent) (symbol : String) (fns : TargetFns)
  (weights : Option (Py.Dict String ℚ)) (config : ExecutionModelConfig) {norm : Py.Dict String ℚ}

theorem strategyNames_portfolio :
    (portfolioArgs random events symbol fns norm config).strategyNames = portfolioNames fns := by
  show ((fns.keys ++ []).dedup).insertionSort (· ≤ ·) = _
  rw [List.append_nil, fns.nodup_keys.dedup]
  rfl

/-- Both backtests make the same checks; their engines differ in the strategies. -/
theorem setUp_portfolio (named : fns.keys ≠ []) (normalised : Normalised (portfolioNames fns) norm)
    (targetQtyFn : MarketEvent → ℚ) : setUp (portfolioArgs random events symbol fns norm config) =
      (setUp (simulationArgs random events symbol targetQtyFn config)).map (·.withStrategies symbol fns norm) := by
  have names : (portfolioArgs random events symbol fns norm config).strategyNames = portfolioNames fns :=
    strategyNames_portfolio random events symbol fns config
  have single : (simulationArgs random events symbol targetQtyFn config).strategyNames = ["default"] := rfl
  have weights : normaliseStrategyWeights (portfolioNames fns) (some norm) = .ok norm :=
    normaliseStrategyWeights_of_normalised (nodup_portfolioNames fns) normalised
  unfold setUp
  rw [names, single, show (portfolioArgs random events symbol fns norm config).strategyWeights = some norm from rfl,
    weights]
  rw [(raiseIf_ok (u := ())).mpr (portfolioNames_ne_nil named), (raiseIf_ok (u := ())).mpr (List.cons_ne_nil "default" [])]
  have bind_map {α : Type} (x : Except PyError α) (f : α → Except PyError Engine) (h : Engine → Engine) :
      (x >>= f).map h = x >>= fun a => (f a).map h := by
    cases x <;> rfl
  simp only [bind_map]
  rfl

/-- What the set-up makes of the strategies. -/
theorem setUp_strategies {args : BacktestArgs} {g : Engine} (h : setUp args = .ok g) :
    g.strategyTargetQtyFns = args.strategyTargetQtyFns ∧
      normaliseStrategyWeights args.strategyNames args.strategyWeights = .ok g.normStrategyWeights := by
  unfold setUp at h
  obtain ⟨-, -, h⟩ := Run.bind_ok.mp h
  obtain ⟨-, -, h⟩ := Run.bind_ok.mp h
  obtain ⟨-, -, h⟩ := Run.bind_ok.mp h
  obtain ⟨-, -, h⟩ := Run.bind_ok.mp h
  obtain ⟨-, -, h⟩ := Run.bind_ok.mp h
  obtain ⟨strategies, hs, h⟩ := Run.bind_ok.mp h
  obtain ⟨symbols, -, h⟩ := Run.bind_ok.mp h
  cases h
  exact ⟨rfl, hs⟩

/-- The strategies' target at their weights is the one of the single strategy
that holds their mean. -/
theorem targetQty_portfolio {g : Engine} (normalised : Normalised (portfolioNames fns) norm)
    (admitted : setUp (simulationArgs random events symbol (portfolioTarget fns norm) config) = .ok g)
    (event : MarketEvent) : targetQty (g.withStrategies symbol fns norm) event = targetQty g event := by
  obtain ⟨strategies, weights⟩ := setUp_strategies admitted
  by_cases own : event.symbol = symbol
  · subst own
    have all : ∀ p ∈ fns.items, p.1 ∈ norm.keys := by
      intro p member
      rw [normalised.keys, mem_portfolioNames]
      exact List.mem_map_of_mem member
    have default : g.normStrategyWeights = .ofKeys ["default"] fun _ => 1 / (1 : ℕ) := (Except.ok.inj weights).symm
    have single : portfolioTarget (Py.Dict.empty.set "default" (portfolioTarget fns norm)) g.normStrategyWeights event =
        portfolioTarget fns norm event := by
      rw [default]
      show (1 / (1 : ℕ) : ℚ) * portfolioTarget fns norm event + 0 = _
      simp
    have found : g.strategyTargetQtyFns.get? event.symbol =
        some (Py.Dict.empty.set "default" (portfolioTarget fns norm)) := by
      rw [strategies]
      exact Py.Dict.get?_set_self _ _ _
    have weighted : ∀ p ∈ (Py.Dict.empty.set "default" (portfolioTarget fns norm)).items,
        p.1 ∈ g.normStrategyWeights.keys := by
      rintro p member
      rw [List.mem_singleton.mp member, default]
      exact List.mem_singleton_self "default"
    rw [targetQty_of_weighted (Py.Dict.get?_set_self _ _ _) all, targetQty_of_weighted found weighted, single]
    rfl
  · have missing (other : TargetFns) : (Py.Dict.empty.set symbol other).get? event.symbol = none :=
      Py.Dict.get?_set_ne _ _ own
    rw [targetQty_of_missing (missing fns), targetQty_of_missing (by rw [strategies]; exact missing _)]

/-- **One strategy instead of many.** The portfolio's run is the run of its mean,
its errors included. -/
theorem runPortfolio_eq : runMultiStrategyPortfolioBacktest random events symbol fns weights config =
    (portfolioWeights fns weights >>= fun norm =>
      simulateRealisticExecution random events symbol (portfolioTarget fns norm) config) := by
  unfold runMultiStrategyPortfolioBacktest
  cases accepted : portfolioWeights fns weights with
  | error e => rfl
  | ok norm =>
    obtain ⟨named, normalised⟩ := portfolioWeights_ok accepted
    show runMultiAssetMultiStrategyBacktest _ = runMultiAssetMultiStrategyBacktest _
    unfold runMultiAssetMultiStrategyBacktest
    rw [setUp_portfolio random events symbol fns config named normalised (portfolioTarget fns norm)]
    cases admitted : setUp (simulationArgs random events symbol (portfolioTarget fns norm) config) with
    | error e => rfl
    | ok g =>
      have step (st : LoopState) (event : MarketEvent) :
          processEvent (g.withStrategies symbol fns norm) st event = processEvent g st event :=
        processEvent_withStrategies (targetQty_portfolio random events symbol fns config normalised admitted event) st
      have run : (g.withStrategies symbol fns norm).run (sortedByTs events) = g.run (sortedByTs events) :=
        Run.foldlM_congr (fun event _ st => step st event) g.start
      exact congrArg (· >>= fun st => pure st.result) run

/-- Strategies that agree are run as one. -/
theorem portfolioTarget_unanimous {fns : TargetFns} {targetQtyFn : MarketEvent → ℚ}
    (normalised : Normalised (portfolioNames fns) norm) (unanimous : ∀ p ∈ fns.items, p.2 = targetQtyFn) :
    portfolioTarget fns norm = targetQtyFn := by
  funext event
  have perm : fns.keys.Perm (portfolioNames fns) := (List.perm_insertionSort _ _).symm
  have total : (fns.items.map fun p => norm.getD p.1 0).sum = 1 := by
    rw [← normalised.total, ← (perm.map _).sum_eq]
    simp only [Py.Dict.keys, List.map_map]
    rfl
  calc portfolioTarget fns norm event
      = (fns.items.map fun p => norm.getD p.1 0 * targetQtyFn event).sum := by
        unfold portfolioTarget
        congr 1
        exact List.map_congr_left fun p member => by rw [unanimous p member]
    _ = targetQtyFn event := by rw [List.sum_map_mul_right, total, one_mul]

/-- **The multi-strategy backtest.** It is the backtest of the strategies'
weighted mean; strategies that agree are backtested as one; and only the
proportions of the weights count. -/
theorem portfolio_backtest :
    (runMultiStrategyPortfolioBacktest random events symbol fns weights config =
      (portfolioWeights fns weights >>= fun norm =>
        simulateRealisticExecution random events symbol (portfolioTarget fns norm) config)) ∧
    (∀ norm targetQtyFn, portfolioWeights fns weights = .ok norm → (∀ p ∈ fns.items, p.2 = targetQtyFn) →
      runMultiStrategyPortfolioBacktest random events symbol fns weights config =
        simulateRealisticExecution random events symbol targetQtyFn config) ∧
    ∀ c : ℚ, 0 < c →
      runMultiStrategyPortfolioBacktest random events symbol fns
        (weights.map fun weights => weights.mapValues fun _ w => c * w) config =
          runMultiStrategyPortfolioBacktest random events symbol fns weights config := by
  refine ⟨runPortfolio_eq random events symbol fns weights config, ?_, ?_⟩
  · intro norm targetQtyFn accepted unanimous
    obtain ⟨-, normalised⟩ := portfolioWeights_ok accepted
    rw [runPortfolio_eq, accepted]
    show simulateRealisticExecution random events symbol (portfolioTarget fns norm) config = _
    rw [portfolioTarget_unanimous normalised unanimous]
  · intro c positive
    unfold runMultiStrategyPortfolioBacktest
    cases weights with
    | none => rfl
    | some weights => rw [Option.map_some, portfolioWeights_scale weights positive]

end Run

end CryptoQuant.Mvp11
