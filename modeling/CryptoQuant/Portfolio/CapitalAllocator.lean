import CryptoQuant.Lib.Run
import CryptoQuant.Lib.Shares
import CryptoQuant.Portfolio.Optimizer
import Mathlib.Algebra.Order.BigOperators.Group.List

/-!
# The capital allocator

`portfolio/capital_allocator.py`: scores of strategies, weights in proportion to
them within bounds, and capital in proportion to the weights. A signal is finite,
as every rational number is.
-/

namespace CryptoQuant.Portfolio
set_option autoImplicit false

/-- `AllocationSignal`. -/
structure AllocationSignal where
  confidence : ℚ
  recentStability : ℚ
  drawdown : ℚ
  volatility : ℚ
  tradingCost : ℚ

/-- The fields of `CapitalAllocatorConfig`. -/
structure AllocatorFields where
  cashReserveRatio : ℚ := 5 / 100
  maxDrawdownLimit : ℚ := 30 / 100
  targetVolatility : ℚ := 2 / 100
  costBudget : ℚ := 15 / 10000
  minWeight : ℚ := 5 / 100
  maxWeight : ℚ := 65 / 100
  confidenceWeight : ℚ := 30 / 100
  stabilityWeight : ℚ := 25 / 100
  drawdownWeight : ℚ := 20 / 100
  volatilityWeight : ℚ := 15 / 100
  tradingCostWeight : ℚ := 10 / 100

/-- The weights of the five factors. -/
def AllocatorFields.factorWeights (c : AllocatorFields) : List ℚ :=
  [c.confidenceWeight, c.stabilityWeight, c.drawdownWeight, c.volatilityWeight, c.tradingCostWeight]

/-- `__post_init__`. -/
def AllocatorFields.postInit (c : AllocatorFields) : Except PyError Unit := do
  raiseIf (¬ (0 ≤ c.cashReserveRatio ∧ c.cashReserveRatio < 1)) (.valueError "cash_reserve_ratio must be in [0, 1)")
  raiseIf (c.maxDrawdownLimit ≤ 0) (.valueError "max_drawdown_limit must be > 0")
  raiseIf (c.targetVolatility ≤ 0) (.valueError "target_volatility must be > 0")
  raiseIf (c.costBudget ≤ 0) (.valueError "cost_budget must be > 0")
  raiseIf (¬ (0 ≤ c.minWeight ∧ c.minWeight ≤ c.maxWeight ∧ c.maxWeight ≤ 1))
    (.valueError "weight bounds must satisfy 0 <= min_weight <= max_weight <= 1")
  raiseIf (∃ weight ∈ c.factorWeights, weight < 0) (.valueError "factor weights must be >= 0")
  raiseIf (c.factorWeights.sum ≤ 0) (.valueError "sum of factor weights must be > 0")

/-- `CapitalAllocatorConfig`: fields that passed `__post_init__`. -/
structure CapitalAllocatorConfig extends AllocatorFields where
  checked : toAllocatorFields.postInit = .ok ()

/-- `CapitalAllocatorConfig()`: the defaults pass. -/
def CapitalAllocatorConfig.default : CapitalAllocatorConfig := ⟨{}, by decide +kernel⟩

/-- `AllocationBreakdown`. -/
structure AllocationBreakdown where
  confidenceComponent : ℚ
  stabilityComponent : ℚ
  drawdownComponent : ℚ
  volatilityComponent : ℚ
  tradingCostComponent : ℚ
  compositeScore : ℚ

/-- `CapitalAllocationResult`. -/
structure CapitalAllocationResult where
  totalCapital : ℚ
  investableCapital : ℚ
  reserveCapital : ℚ
  strategyWeights : Py.Dict String ℚ
  strategyCapital : Py.Dict String ℚ
  strategyScores : Py.Dict String ℚ
  breakdown : Py.Dict String AllocationBreakdown

/-- `_validate_signal`. -/
def validateSignal (name : String) (signal : AllocationSignal) : Except PyError Unit := do
  raiseIf (signal.volatility < 0) (.valueError s!"volatility must be >= 0 for strategy: {name}")
  raiseIf (signal.tradingCost < 0) (.valueError s!"trading_cost must be >= 0 for strategy: {name}")
  raiseIf (signal.drawdown < 0) (.valueError s!"drawdown must be >= 0 for strategy: {name}")

/-- `_clamp01`. -/
def clamp01 (value : ℚ) : ℚ := if value < 0 then 0 else if 1 < value then 1 else value

/-- `_weighted_mean`. -/
def weightedMean (values weights : List ℚ) : Except PyError ℚ := do
  raiseIf (weights.sum ≤ 0) (.valueError "sum(weights) must be > 0")
  return (List.zipWith (· * ·) values weights).sum / weights.sum

/-- The weights and the scores so far. -/
abbrev Scores := Py.Dict String ℚ × Py.Dict String AllocationBreakdown

/-- One signal of the loop of `allocate_capital`. -/
def scoreSignal (config : CapitalAllocatorConfig) (scores : Scores) (item : String × AllocationSignal) :
    Except PyError Scores := do
  let (name, signal) := item
  validateSignal name signal
  let confidenceComponent := clamp01 signal.confidence
  let stabilityComponent := clamp01 signal.recentStability
  let drawdownComponent := 1 - clamp01 (signal.drawdown / config.maxDrawdownLimit)
  let volatilityComponent := config.targetVolatility / (signal.volatility + config.targetVolatility)
  let tradingCostComponent := config.costBudget / (signal.tradingCost + config.costBudget)
  let composite ← weightedMean
    [confidenceComponent, stabilityComponent, drawdownComponent, volatilityComponent, tradingCostComponent]
    config.factorWeights
  let floorBias := max (config.minWeight * (1 / 2)) (1 / 100)
  let score := max composite floorBias
  return (scores.1.set name score,
    scores.2.set name ⟨confidenceComponent, stabilityComponent, drawdownComponent, volatilityComponent,
      tradingCostComponent, composite⟩)

/-- The tolerance of the projection. -/
def tolerance : ℚ := 1 / 10 ^ 12

section Projection
variable (names : List String) (base : String → ℚ) (total minWeight maxWeight : ℚ)

/-- The names whose weight is above the maximum. -/
def clampedHigh (projected : Py.Dict String ℚ) : List String :=
  (projected.items.filter fun item => maxWeight < item.2).map Prod.fst

/-- The names whose weight is below the minimum. -/
def clampedLow (projected : Py.Dict String ℚ) : List String :=
  (projected.items.filter fun item => item.2 < minWeight).map Prod.fst

/-- The loop of `_project_weights`: weights outside their bounds go to the bound,
and the others share what is left in proportion to their base. It stops early
when no weight is outside, or when all are. -/
def projectionLoop : ℕ → Py.Dict String ℚ → Py.Dict String ℚ
  | 0, projected => projected
  | rounds + 1, projected =>
    let high := clampedHigh maxWeight projected
    let low := clampedLow minWeight projected
    if high = [] ∧ low = [] then projected
    else
      let fixed := (high ++ low).dedup
      let projected := high.foldl (fun projected name => projected.set name maxWeight) projected
      let projected := low.foldl (fun projected name => projected.set name minWeight) projected
      let remain := total - (fixed.map fun name => projected.getD name 0).sum
      let free := names.filter fun name => name ∉ fixed
      if free = [] then projected
      else
        let freeBase := (free.map base).sum
        if freeBase ≤ 0 then
          let even := remain / free.length
          projectionLoop rounds (free.foldl (fun projected name => projected.set name even) projected)
        else
          projectionLoop rounds
            (free.foldl (fun projected name => projected.set name (remain * base name / freeBase)) projected)

end Projection

/-- The two loops of the residual correction: the names give way one by one, each
as far as it has room, until what is needed is moved. -/
def settleResidual (room : ℚ → ℚ) (sign : ℚ) : List String → Py.Dict String ℚ → ℚ → Py.Dict String ℚ
  | [], projected, _ => projected
  | name :: adjustable, projected, needed =>
    let weight := projected.getD name 0
    if room weight ≤ 0 then settleResidual room sign adjustable projected needed
    else
      let delta := min (room weight) needed
      let projected := projected.set name (weight + sign * delta)
      if needed - delta ≤ tolerance then projected
      else settleResidual room sign adjustable projected (needed - delta)

/-- The end of `_project_weights`: what the weights miss, or are too much. -/
def correctResidual (names : List String) (total minWeight maxWeight : ℚ) (projected : Py.Dict String ℚ) :
    Py.Dict String ℚ :=
  let residual := total - projected.values.sum
  let weight := fun name => projected.getD name 0
  if tolerance < |residual| then
    if 0 < residual then
      let adjustable := names.insertionSort fun a b => weight a ≤ weight b
      settleResidual (fun w => maxWeight - w) 1 adjustable projected residual
    else
      let adjustable := names.insertionSort fun a b => weight b ≤ weight a
      settleResidual (fun w => w - minWeight) (-1) adjustable projected (-residual)
  else projected

/-- `_project_weights`. -/
def projectScores (rawScores : Py.Dict String ℚ) (total minWeight maxWeight : ℚ) :
    Except PyError (Py.Dict String ℚ) := do
  let names := sortedNames rawScores.keys
  let n : ℚ := names.length
  raiseIf (total + tolerance < n * minWeight) (.valueError "infeasible bounds: min_weight * n exceeds total")
  raiseIf (n * maxWeight < total - tolerance) (.valueError "infeasible bounds: max_weight * n below total")
  let rawSum := (names.map fun name => max (rawScores.getD name 0) 0).sum
  let base : String → ℚ := fun name =>
    if rawSum ≤ 0 then total / n else total * max (rawScores.getD name 0) 0 / rawSum
  let projected := projectionLoop names base total minWeight maxWeight 16 (.ofKeys names base)
  raiseIf (projected.values.sum ≤ 0) (.valueError "projected weights sum must be > 0")
  return correctResidual names total minWeight maxWeight projected

/-- `allocate_capital`. -/
def allocateCapital (signals : Py.Dict String AllocationSignal) (totalCapital : ℚ)
    (config : CapitalAllocatorConfig := .default) : Except PyError CapitalAllocationResult := do
  raiseIf (totalCapital ≤ 0) (.valueError "total_capital must be positive")
  raiseIf (signals.items.length < 1) (.valueError "at least one strategy signal is required")
  let reserve := totalCapital * config.cashReserveRatio
  let investable := totalCapital - reserve
  let (rawScores, breakdown) ← signals.items.foldlM (scoreSignal config) (.empty, .empty)
  let weights ← projectScores rawScores 1 config.minWeight config.maxWeight
  return { totalCapital
           investableCapital := investable
           reserveCapital := reserve
           strategyWeights := weights
           strategyCapital := weights.mapValues fun _ w => investable * w
           strategyScores := rawScores
           breakdown }

end CryptoQuant.Portfolio
