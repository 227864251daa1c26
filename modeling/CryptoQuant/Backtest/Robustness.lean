import CryptoQuant.Events.Market
import CryptoQuant.Execution.Paper

/-!
# Robustness metrics

`backtest/robustness.py`. `evaluate_strategy_metrics` is a replay through a
paper executor, valued by the cash its fills moved; the walk-forward validation
evaluates windows of the events one after another.
-/

namespace CryptoQuant.Robustness
set_option autoImplicit false

/-- `StrategyMetrics`. -/
structure StrategyMetrics where
  trades : ℕ
  turnover : ℚ
  pnl : ℚ
  returnPct : ℚ
  winRate : ℚ
deriving DecidableEq

/-- `_ensure_sorted`. -/
def ensureSorted (events : List MarketEvent) (symbol : String) : Except PyError (List MarketEvent) :=
  let filtered := events.filter fun event => event.symbol = symbol
  if filtered = [] then .error (.valueError s!"no events for symbol={symbol}")
  else .ok (sortedByTs filtered)

theorem ensureSorted_ok_iff {events sorted : List MarketEvent} {symbol : String} : ensureSorted events symbol = .ok sorted ↔
    (events.filter fun event => event.symbol = symbol) ≠ [] ∧ sorted = sortedByTs (events.filter fun event => event.symbol = symbol) := by
  unfold ensureSorted
  dsimp only
  split
  · rename_i none_
    exact iff_of_false nofun fun some_ => some_.1 none_
  · rename_i some_
    rw [Except.ok.injEq, and_iff_right some_]
    exact eq_comm

/-- The running totals over the fills. -/
structure Totals where
  position : ℚ := 0
  cash : ℚ := 0
  realizedWins : ℕ := 0

/-- One fill of the accounting loop. -/
def Totals.add (t : Totals) (fill : Fill) : Totals where
  position := t.position + fill.qty
  cash := t.cash - fill.qty * fill.fillPrice - fill.fee
  realizedWins :=
    if (0 < fill.qty ∧ fill.fillPrice ≤ fill.requestedPrice) ∨
        (fill.qty < 0 ∧ fill.requestedPrice ≤ fill.fillPrice) then t.realizedWins + 1
    else t.realizedWins

def totals (fills : List Fill) : Totals := fills.foldl Totals.add {}

/-- `cash + position * final_price`. -/
def equity (fills : List Fill) (finalPrice : ℚ) : ℚ :=
  let t := totals fills
  t.cash + t.position * finalPrice

/-- One event of the replay loop, numbered from 1. -/
def replayStep (symbol : String) (targetQtyFn : MarketEvent → ℚ) (st : List Fill × PaperExecutor)
    (item : MarketEvent × ℕ) : Except PyError (List Fill × PaperExecutor) :=
  let (fills, executor) := st
  let (event, idx) := item
  match executor.executeToTarget s!"robust-{idx}" symbol (executor.position symbol) (targetQtyFn event)
    event.close event.ts with
  | (.error e, _) => .error e
  | (.ok legs, executor) => .ok (fills ++ legs, executor)

/-- The replay of `evaluate_strategy_metrics` on a new executor. -/
def replaySorted (sortedEvents : List MarketEvent) (symbol : String) (targetQtyFn : MarketEvent → ℚ)
    (feeBps slippageBps : ℚ) : Except PyError (List Fill) := do
  let executor ← PaperExecutor.new OMS.init feeBps slippageBps
  let (fills, _) ← (sortedEvents.zipIdx 1).foldlM (replayStep symbol targetQtyFn) ([], executor)
  .ok fills

/-- The accounting of `evaluate_strategy_metrics`, at the last close. -/
def metricsOf (fills : List Fill) (initialEquity finalPrice : ℚ) : StrategyMetrics where
  trades := fills.length
  turnover := (fills.map fun fill => |fill.notional|).sum
  pnl := equity fills finalPrice
  returnPct := equity fills finalPrice / initialEquity * 100
  winRate := if fills = [] then 0 else (totals fills).realizedWins / fills.length

/-- `evaluate_strategy_metrics`. -/
def evaluateStrategyMetrics (events : List MarketEvent) (symbol : String) (targetQtyFn : MarketEvent → ℚ)
    (initialEquity feeBps slippageBps : ℚ) : Except PyError StrategyMetrics := do
  raiseIf (initialEquity ≤ 0) (.valueError "initial_equity must be > 0")
  let sortedEvents ← ensureSorted events symbol
  let fills ← replaySorted sortedEvents symbol targetQtyFn feeBps slippageBps
  let last ← lastItem sortedEvents
  .ok (metricsOf fills initialEquity last.close)

/-- The fills that `evaluate_strategy_metrics` does its accounting on. -/
def replayedFills (events : List MarketEvent) (symbol : String) (targetQtyFn : MarketEvent → ℚ)
    (feeBps slippageBps : ℚ) : Except PyError (List Fill) := do
  let sortedEvents ← ensureSorted events symbol
  replaySorted sortedEvents symbol targetQtyFn feeBps slippageBps

/-! ## Walk-forward validation -/

/-- `WalkForwardConfig`. -/
structure WalkForwardConfig where
  trainSize : ℤ
  testSize : ℤ
  stepSize : Option ℤ := none
  initialEquity : ℚ := 10000
  feeBps : ℚ := 4
  slippageBps : ℚ := 2

/-- `WalkForwardSliceResult`. -/
structure WalkForwardSliceResult where
  trainStart : DateTime
  trainEnd : DateTime
  testStart : DateTime
  testEnd : DateTime
  trainMetrics : StrategyMetrics
  testMetrics : StrategyMetrics

/-- `WalkForwardReport`. -/
structure WalkForwardReport where
  slices : List WalkForwardSliceResult
  avgTestReturnPct : ℚ
  positiveTestRatio : ℚ

/-- `statistics.mean`. -/
def mean (data : List ℚ) : Except PyError ℚ :=
  if data = [] then .error (.valueError "mean requires at least one data point") else .ok (data.sum / data.length)

/-- `config.step_size or config.test_size`. -/
def WalkForwardConfig.step (config : WalkForwardConfig) : ℤ :=
  match config.stepSize with
  | none => config.testSize
  | some stepSize => if stepSize = 0 then config.testSize else stepSize

section WalkForward
variable (sortedEvents : List MarketEvent) (symbol : String) (targetQtyFn : MarketEvent → ℚ) (config : WalkForwardConfig)

/-- `sorted_events[start : stop]`. -/
def window (start stop : ℕ) : List MarketEvent := (sortedEvents.take stop).drop start

/-- `evaluate_strategy_metrics` with the settings of the validation. -/
def evaluate (events : List MarketEvent) : Except PyError StrategyMetrics :=
  evaluateStrategyMetrics events symbol targetQtyFn config.initialEquity config.feeBps config.slippageBps

/-- One round of the loop of `run_walk_forward_validation`. The sizes are positive there. -/
def walkForwardSlice (start : ℕ) : Except PyError WalkForwardSliceResult := do
  let trainSize := config.trainSize.toNat
  let testSize := config.testSize.toNat
  let train := window sortedEvents start (start + trainSize)
  let test := window sortedEvents (start + trainSize) (start + trainSize + testSize)
  let trainMetrics ← evaluate symbol targetQtyFn config train
  let testMetrics ← evaluate symbol targetQtyFn config test
  let trainFirst ← firstItem train
  let trainLast ← lastItem train
  let testFirst ← firstItem test
  let testLast ← lastItem test
  .ok {
    trainStart := trainFirst.ts
    trainEnd := trainLast.ts
    testStart := testFirst.ts
    testEnd := testLast.ts
    trainMetrics
    testMetrics }

/-- The loop of `run_walk_forward_validation`. It ends because the step is positive. -/
def walkForwardLoop (step : ℕ) (moves : 0 < step) (start : ℕ) (slices : List WalkForwardSliceResult) :
    Except PyError (List WalkForwardSliceResult) :=
  if start + config.trainSize.toNat + config.testSize.toNat ≤ sortedEvents.length then
    match walkForwardSlice sortedEvents symbol targetQtyFn config start with
    | .error e => .error e
    | .ok slice => walkForwardLoop step moves (start + step) (slices ++ [slice])
  else .ok slices
termination_by sortedEvents.length + 1 - start

end WalkForward

/-- The report of the slices. -/
def WalkForwardReport.of (slices : List WalkForwardSliceResult) : Except PyError WalkForwardReport := do
  let avgTestReturnPct ← mean (slices.map fun slice => slice.testMetrics.returnPct)
  let positiveTestRatio ← mean (slices.map fun slice => if 0 < slice.testMetrics.pnl then 1 else 0)
  .ok { slices, avgTestReturnPct, positiveTestRatio }

/-- `run_walk_forward_validation`. -/
def runWalkForwardValidation (events : List MarketEvent) (symbol : String) (targetQtyFn : MarketEvent → ℚ)
    (config : WalkForwardConfig) : Except PyError WalkForwardReport := do
  raiseIf (config.trainSize ≤ 0 ∨ config.testSize ≤ 0) (.valueError "train_size/test_size must be > 0")
  let sortedEvents ← ensureSorted events symbol
  raiseIf (sortedEvents.length < config.trainSize + config.testSize)
    (.valueError "insufficient events for requested walk-forward windows")
  if stuck : config.step ≤ 0 then .error (.valueError "step_size must be > 0")
  else
    let slices ← walkForwardLoop sortedEvents symbol targetQtyFn config config.step.toNat (by omega) 0 []
    WalkForwardReport.of slices

end CryptoQuant.Robustness
