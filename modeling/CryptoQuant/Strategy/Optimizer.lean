import CryptoQuant.Execution.Paper
import CryptoQuant.Strategy.MaCrossover

/-!
# The strategy optimizer

`strategy/optimizer.py`: a grid search over the crossover windows. Every
parameter set is replayed on a paper executor of its own, and the fills are
booked against an average entry price.
-/

namespace CryptoQuant
set_option autoImplicit false

/-- `OptimizationObjective`. -/
inductive OptimizationObjective
  | netPnl | winRate
deriving DecidableEq, Repr

/-- `StrategyParameterSet`. -/
structure StrategyParameterSet where
  fastWindow : ℤ
  slowWindow : ℤ
deriving DecidableEq, Repr

/-- `OptimizationMetrics`. -/
structure OptimizationMetrics where
  netPnl : ℚ
  winRate : ℚ
  closeTrades : ℕ
deriving DecidableEq, Repr

/-- `StrategyEvaluation`. -/
structure StrategyEvaluation where
  params : StrategyParameterSet
  score : ℚ
  metrics : OptimizationMetrics
  fills : ℕ
deriving DecidableEq, Repr

/-- `StrategyOptimizationResult`. -/
structure StrategyOptimizationResult where
  best : StrategyEvaluation
  leaderboard : List StrategyEvaluation
deriving DecidableEq, Repr

/-- `_PositionState`. -/
structure PositionState where
  qty : ℚ := 0
  avgEntryPrice : ℚ := 0
deriving DecidableEq, Repr

/-- `_apply_fill`: the position after the fill, its profit and whether it closed
anything. -/
def PositionState.applyFill (position : PositionState) (qty fillPrice : ℚ) : PositionState × ℚ × Bool :=
  let oldQty := position.qty
  let oldAvg := position.avgEntryPrice
  let newQty := oldQty + qty
  if oldQty = 0 ∨ 0 < oldQty * qty then
    let totalCost := |oldQty| * oldAvg + |qty| * fillPrice
    ({ qty := newQty, avgEntryPrice := totalCost / |newQty| }, 0, false)
  else
    let closeQty := min |oldQty| |qty|
    let side := if 0 < oldQty then 1 else -1
    let closePnl := closeQty * (fillPrice - oldAvg) * side
    if newQty = 0 then ({ qty := 0, avgEntryPrice := 0 }, closePnl, true)
    else if 0 < oldQty * newQty then ({ position with qty := newQty }, closePnl, true)
    else ({ qty := newQty, avgEntryPrice := fillPrice }, closePnl, true)

/-- `_market_event_to_bar`. -/
def marketEventToBar (event : MarketEvent) : Bar where
  symbol := event.symbol
  timeframe := event.timeframe.text
  ts := event.ts
  «open» := event.close
  high := event.close
  low := event.close
  close := event.close
  volume := 0

/-- The local variables of `_evaluate`. -/
structure Evaluation where
  bars : List Bar
  executor : PaperExecutor
  fills : ℕ
  feesAndSlippage : ℚ
  realizedPnl : ℚ
  closeTrades : ℕ
  winningCloses : ℕ
  position : PositionState

namespace Evaluation

/-- The local variables before the first event. -/
def start (executor : PaperExecutor) : Evaluation where
  bars := []
  executor
  fills := 0
  feesAndSlippage := 0
  realizedPnl := 0
  closeTrades := 0
  winningCloses := 0
  position := {}

/-- The accounting of one fill. -/
def book (ev : Evaluation) (fill : Fill) : Evaluation :=
  let (position, closePnl, closed) := ev.position.applyFill fill.qty fill.fillPrice
  let ev := { ev with fills := ev.fills + 1,
                      feesAndSlippage := ev.feesAndSlippage + (fill.fee + fill.slippageCost),
                      position }
  if closed then
    { ev with closeTrades := ev.closeTrades + 1,
              realizedPnl := ev.realizedPnl + closePnl,
              winningCloses := if 0 < closePnl then ev.winningCloses + 1 else ev.winningCloses }
  else ev

/-- `net_pnl`, at the last price. -/
def netPnl (ev : Evaluation) (lastPx : ℚ) : ℚ :=
  let unrealized := if ev.position.qty = 0 then 0 else ev.position.qty * (lastPx - ev.position.avgEntryPrice)
  ev.realizedPnl + unrealized - ev.feesAndSlippage

/-- `win_rate`. -/
def winRate (ev : Evaluation) : ℚ := if ev.closeTrades = 0 then 0 else ev.winningCloses / ev.closeTrades

end Evaluation

/-- `AutomatedStrategyOptimizer`, with what its constructor checks. -/
structure AutomatedStrategyOptimizer where
  symbol : String
  baseQty : ℚ
  objective : OptimizationObjective
  feeBps : ℚ
  slippageBps : ℚ
  baseQty_pos : 0 < baseQty

namespace AutomatedStrategyOptimizer

/-- `AutomatedStrategyOptimizer(symbol, base_qty, objective, fee_bps, slippage_bps)`. -/
def new (symbol : String) (baseQty : ℚ := 1) (objective : OptimizationObjective := .netPnl)
    (feeBps slippageBps : ℚ := 0) : Except PyError AutomatedStrategyOptimizer :=
  if base : 0 < baseQty then
    .ok { symbol, baseQty, objective, feeBps, slippageBps, baseQty_pos := base }
  else
    .error (.valueError "base_qty must be positive")

/-- The id prefix of one event. -/
def idPrefix (params : StrategyParameterSet) (idx : ℕ) : String :=
  s!"opt-{params.fastWindow}-{params.slowWindow}-{idx}"

/-- One event of the replay loop of `_evaluate`, numbered from 1. -/
def replayStep (optimizer : AutomatedStrategyOptimizer) (params : StrategyParameterSet)
    (strategy : MovingAverageCrossoverStrategy) (ev : Evaluation) (item : MarketEvent × ℕ) :
    Except PyError Evaluation :=
  let (event, idx) := item
  let bars := ev.bars ++ [marketEventToBar event]
  match ev.executor.executeToTarget (idPrefix params idx) optimizer.symbol
    (ev.executor.position optimizer.symbol) (strategy.targetQty bars) event.close event.ts with
  | (.error e, _) => .error e
  | (.ok legs, executor) => .ok (legs.foldl Evaluation.book { ev with bars, executor })

/-- `_evaluate`, up to the end of its loop. -/
def replay (optimizer : AutomatedStrategyOptimizer) (events : List MarketEvent) (params : StrategyParameterSet) :
    Except PyError Evaluation := do
  let strategy ← MovingAverageCrossoverStrategy.new params.fastWindow params.slowWindow optimizer.baseQty
  let executor ← PaperExecutor.new OMS.init optimizer.feeBps optimizer.slippageBps
  (events.zipIdx 1).foldlM (optimizer.replayStep params strategy) (.start executor)

/-- `_evaluate`, after its loop. -/
def report (optimizer : AutomatedStrategyOptimizer) (params : StrategyParameterSet) (ev : Evaluation)
    (lastPx : ℚ) : StrategyEvaluation where
  params
  score := match optimizer.objective with
    | .netPnl => ev.netPnl lastPx
    | .winRate => ev.winRate
  metrics := { netPnl := ev.netPnl lastPx, winRate := ev.winRate, closeTrades := ev.closeTrades }
  fills := ev.fills

/-- `_evaluate`. -/
def evaluate (optimizer : AutomatedStrategyOptimizer) (events : List MarketEvent) (params : StrategyParameterSet) :
    Except PyError StrategyEvaluation := do
  let ev ← optimizer.replay events params
  let last ← lastItem events
  .ok (optimizer.report params ev last.close)

/-- `optimize`. -/
def optimize (optimizer : AutomatedStrategyOptimizer) (events : List MarketEvent)
    (paramGrid : List StrategyParameterSet) : Except PyError StrategyOptimizationResult := do
  let candidateEvents := sortedByTs (events.filter fun e => e.symbol = optimizer.symbol)
  raiseIf (candidateEvents = []) (.valueError "no events for optimization symbol")
  let evaluations ← (paramGrid.filter fun params => params.fastWindow < params.slowWindow).mapM
    (optimizer.evaluate candidateEvents)
  -- `sorted(..., reverse=True)` is stable: equal scores keep the order of the grid.
  match evaluations.insertionSort fun a b => b.score ≤ a.score with
  | [] => .error (.valueError "no valid parameter set to optimize")
  | best :: rest => .ok { best, leaderboard := best :: rest }

end AutomatedStrategyOptimizer

end CryptoQuant
