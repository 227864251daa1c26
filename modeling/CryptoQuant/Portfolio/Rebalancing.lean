import CryptoQuant.Portfolio.Optimizer
import Mathlib.Data.Finset.Basic

/-!
# Rebalancing

`portfolio/rebalancing.py`: the days on which drifted weights are traded back to their
targets, and what the trades cost at several rates.
-/

namespace CryptoQuant.Rebalancing
set_option autoImplicit false

open Portfolio (sortedNames)

/-- `RebalanceScheduleConfig`. -/
structure RebalanceScheduleConfig where
  cadenceDays : ℤ
  driftThreshold : ℚ
  minTradeWeight : ℚ

/-- `RebalanceEvent`. -/
structure RebalanceEvent where
  dayIndex : ℕ
  turnover : ℚ
  maxDrift : ℚ
  estimatedCostRate : ℚ

/-- `CostSensitivityPoint`. -/
structure CostSensitivityPoint where
  costRate : ℚ
  totalTurnover : ℚ
  estimatedCost : ℚ
  netReturn : ℚ

/-- `CostSensitivityResult`. -/
structure CostSensitivityResult where
  grossReturn : ℚ
  points : List CostSensitivityPoint

/-- `RebalanceScheduleConfig()`. -/
def RebalanceScheduleConfig.default : RebalanceScheduleConfig where
  cadenceDays := 7
  driftThreshold := 8 / 100
  minTradeWeight := 0

/-- `1e-6`. -/
def tolerance : ℚ := 1 / 1000000

/-- `_validate_weight_vector`. -/
def validateWeightVector (weights : List ℚ) (label : String) : Except PyError Unit :=
  if ¬ ∀ weight ∈ weights, 0 ≤ weight ∧ weight ≤ 1 then .error (.valueError s!"{label} must be within [0, 1]")
  else if tolerance < |weights.sum - 1| then .error (.valueError s!"{label} must sum to 1")
  else .ok ()

/-- `max(abs(diff) for diff in diffs)`. -/
def maxAbs (diffs : List ℚ) : ℚ :=
  match diffs.map abs with
  | [] => 0
  | first :: rest => rest.foldl max first

/-- `[target_vec[i] - current[i] for i in range(len(names))]`. -/
def diffs (targetVec current : List ℚ) : List ℚ := List.zipWith (· - ·) targetVec current

/-- `0.5 * sum(abs(diff) for diff in diffs)`. -/
def turnover (diffs : List ℚ) : ℚ := 1 / 2 * (diffs.map abs).sum

/-- The event of a day with the weights given, if it passes the thresholds. -/
def rebalanceEvent (targetVec current : List ℚ) (costRate : ℚ) (dayIndex : ℕ) : RebalanceEvent where
  dayIndex
  turnover := turnover (diffs targetVec current)
  maxDrift := maxAbs (diffs targetVec current)
  estimatedCostRate := turnover (diffs targetVec current) * costRate

/-- `[float(weight_history[name][day_index]) for name in names]`. -/
def weightsOn (weightHistory : Py.Dict String (List ℚ)) (names : List String) (dayIndex : ℕ) : List ℚ :=
  names.map fun name => (weightHistory.getD name []).getD dayIndex 0

/-- One day of the loop of `build_rebalance_schedule`. -/
def scheduleDay (weightHistory : Py.Dict String (List ℚ)) (names : List String) (targetVec : List ℚ) (costRate : ℚ)
    (config : RebalanceScheduleConfig) (events : List RebalanceEvent) (dayIndex : ℕ) :
    Except PyError (List RebalanceEvent) :=
  if dayIndex = 0 ∨ (dayIndex : ℤ) % config.cadenceDays ≠ 0 then .ok events
  else do
    let current := weightsOn weightHistory names dayIndex
    validateWeightVector current s!"weight_history(day_index={dayIndex})"
    let event := rebalanceEvent targetVec current costRate dayIndex
    if event.maxDrift < config.driftThreshold then .ok events
    else if event.turnover < config.minTradeWeight then .ok events
    else .ok (events ++ [event])

/-- The checks of the configuration in `build_rebalance_schedule`. -/
def checkConfig (config : RebalanceScheduleConfig) (costRate : ℚ) : Except PyError Unit :=
  if config.cadenceDays ≤ 0 then .error (.valueError "cadence_days must be > 0")
  else if config.driftThreshold < 0 then .error (.valueError "drift_threshold must be >= 0")
  else if config.minTradeWeight < 0 then .error (.valueError "min_trade_weight must be >= 0")
  else if costRate < 0 then .error (.valueError "cost_rate must be >= 0")
  else .ok ()

/-- `build_rebalance_schedule`. -/
def buildRebalanceSchedule (weightHistory : Py.Dict String (List ℚ)) (targetWeights : Py.Dict String ℚ) (costRate : ℚ)
    (config : RebalanceScheduleConfig := .default) : Except PyError (List RebalanceEvent) :=
  let names := sortedNames targetWeights.keys
  if names.length < 2 then .error (.valueError "at least two strategy targets are required")
  else if weightHistory.keys.toFinset ≠ names.toFinset then
    .error (.valueError "weight_history and target_weights must contain same strategy names")
  else
    match (names.map fun name => (weightHistory.getD name []).length).dedup with
    | [length] =>
      if length = 0 then .ok []
      else do
        let targetVec := names.map fun name => targetWeights.getD name 0
        validateWeightVector targetVec "target_weights"
        checkConfig config costRate
        (List.range length).foldlM (scheduleDay weightHistory names targetVec costRate config) []
    | _ => .error (.valueError "all strategy weight series must have the same length")

/-- `analyze_transaction_cost_sensitivity`. -/
def analyzeTransactionCostSensitivity (grossReturn : ℚ) (rebalances : List RebalanceEvent) (costRates : List ℚ) :
    Except PyError CostSensitivityResult :=
  if ∃ rate ∈ costRates, rate < 0 then .error (.valueError "cost_rates must be >= 0")
  else
    let sortedRates := costRates.insertionSort (· ≤ ·)
    let totalTurnover := (rebalances.map RebalanceEvent.turnover).sum
    .ok { grossReturn
          points := sortedRates.map fun rate =>
            { costRate := rate, totalTurnover, estimatedCost := totalTurnover * rate
              netReturn := grossReturn - totalTurnover * rate } }

end CryptoQuant.Rebalancing
