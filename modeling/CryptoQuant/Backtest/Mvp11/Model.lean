import CryptoQuant.Lib.Run
import CryptoQuant.Events.Market
import CryptoQuant.Execution.Paper
import Mathlib.Data.List.Dedup

/-!
# The realistic backtest

`run_multi_asset_multi_strategy_backtest` of `backtest/mvp11.py`. The loop body
is cut where the source comments cut it: matured orders are filled, the
portfolio target of the event's symbol is turned into a new order, funding is
charged, and the liquidation check runs. The locals that the loop only reads are
an `Engine`, those it writes a `LoopState`. The random generator is a sequence
of draws read at a counter.
-/

namespace CryptoQuant.Mvp11
set_option autoImplicit false

/-- `ExecutionModelConfig`. -/
structure ExecutionModelConfig where
  feeBps : ℚ := 4
  slippageBps : ℚ := 2
  latencyBars : ℤ := 0
  latencySeconds : ℤ := 0
  initialEquity : ℚ := 10000
  makerFeeBps : Option ℚ := none
  takerFeeBps : Option ℚ := none
  makerProbability : ℚ := 35 / 100
  baseFillRatio : ℚ := 75 / 100
  queueAheadNotional : ℚ := 0
  cancelRejectProbability : ℚ := 0
  defaultDepthNotional : ℚ := 100000
  impactBps : ℚ := 8
  liquidityShortageBps : ℚ := 20
  leverage : ℚ := 3
  maintenanceMarginRate : ℚ := 2 / 10
  fundingRatePerBar : ℚ := 0
  liquidationPenaltyBps : ℚ := 10
  randomSeed : ℤ := 11

/-- `RealisticBacktestResult`. -/
structure RealisticBacktestResult where
  fills : List Fill
  equityCurve : List ℚ
  finalEquity : ℚ
  totalFee : ℚ
  totalSlippageCost : ℚ
  fundingCost : ℚ
  liquidationCount : ℕ
  regimeEquityDelta : Py.Dict String ℚ
  symbolPositions : Py.Dict String ℚ

/-- `_PendingOrder`. -/
structure PendingOrder where
  executeIdx : ℤ
  sequence : ℕ
  symbol : String
  qty : ℚ
  requestedPrice : ℚ
  ts : DateTime
  strategy : String
deriving DecidableEq

/-- The dead-band of the engine, `1e-12`. -/
def deadBand : ℚ := 1 / 10 ^ 12

/-- The floor of prices, depths and equity, `1e-9`. -/
def tiny : ℚ := 1 / 10 ^ 9

/-- `_validate_config`. -/
def validateConfig (config : ExecutionModelConfig) : Except PyError Unit :=
  if config.initialEquity ≤ 0 then .error (.valueError "initial_equity must be > 0")
  else if config.latencyBars < 0 then .error (.valueError "latency_bars must be >= 0")
  else if config.latencySeconds < 0 then .error (.valueError "latency_seconds must be >= 0")
  else if ¬ (0 ≤ config.makerProbability ∧ config.makerProbability ≤ 1) then
    .error (.valueError "maker_probability must be in [0, 1]")
  else if ¬ (0 < config.baseFillRatio ∧ config.baseFillRatio ≤ 1) then
    .error (.valueError "base_fill_ratio must be in (0, 1]")
  else if ¬ (0 ≤ config.cancelRejectProbability ∧ config.cancelRejectProbability ≤ 1) then
    .error (.valueError "cancel_reject_probability must be in [0, 1]")
  else if config.defaultDepthNotional ≤ 0 then .error (.valueError "default_depth_notional must be > 0")
  else if config.leverage ≤ 0 then .error (.valueError "leverage must be > 0")
  else .ok ()

/-- `_fee_rate`. -/
def feeRate (config : ExecutionModelConfig) (isMaker : Bool) : ℚ :=
  let makerBps := config.makerFeeBps.getD config.feeBps
  let takerBps := config.takerFeeBps.getD config.feeBps
  (if isMaker then makerBps else takerBps) / 10000

/-- The first index from `start` on whose event is not before `targetTs`: the
search loop of `_resolve_execute_idx`, over the events from `start` on. -/
def searchByTime (targetTs : DateTime) : List MarketEvent → ℕ → Option ℕ
  | [], _ => none
  | e :: rest, i => if targetTs ≤ e.ts then some i else searchByTime targetTs rest (i + 1)

/-- `_resolve_execute_idx`. The caller's `signal_idx` is an index of `events`, so
the default of the subscript is never read. -/
def resolveExecuteIdx (events : List MarketEvent) (signalIdx : ℕ) (config : ExecutionModelConfig) : ℤ :=
  let last : ℤ := events.length - 1
  let byBars := min (signalIdx + config.latencyBars) last
  if config.latencySeconds = 0 then byBars
  else
    let signalTs := ((events[signalIdx]?).map MarketEvent.ts).getD 0
    let targetTs := signalTs + config.latencySeconds * microsPerSecond
    let byTime : ℤ :=
      match searchByTime targetTs (events.drop signalIdx) signalIdx with
      | some i => i
      | none => last
    max byBars byTime

/-- `_equity`. -/
def equity (cash : ℚ) (positions prices : Py.Dict String ℚ) : ℚ :=
  cash + (prices.items.map fun p => positions.getD p.1 0 * p.2).sum

/-- `_gross_notional`. -/
def grossNotional (positions prices : Py.Dict String ℚ) : ℚ :=
  (prices.items.map fun p => |positions.getD p.1 0 * p.2|).sum

/-- The strategies: for every configured symbol, its target functions by name. -/
abbrev StrategyFns := Py.Dict String (Py.Dict String (MarketEvent → ℚ))

/-- The locals of the run that its loop only reads. -/
structure Engine where
  config : ExecutionModelConfig
  symbols : List String
  strategyTargetQtyFns : StrategyFns
  normStrategyWeights : Py.Dict String ℚ
  normSymbolWeights : Py.Dict String ℚ
  symbolEvents : Py.Dict String (List MarketEvent)
  eventIndex : Py.Dict (String × DateTime) ℕ
  regimeFn : Option (MarketEvent → String)
  draws : ℕ → ℚ

/-- The locals of the run that its loop writes. `drawn` counts the calls of
`rng.random()` made so far. -/
structure LoopState where
  cash : ℚ
  fills : List Fill
  positions : Py.Dict String ℚ
  lastPrice : Py.Dict String ℚ
  equityCurve : List ℚ
  pending : List PendingOrder
  symbolTargets : Py.Dict String ℚ
  sequence : ℕ
  regimeEquityDelta : Py.Dict String ℚ
  fundingCost : ℚ
  liquidationCount : ℕ
  drawn : ℕ

/-! ## Matured orders -/

/-- `depth_qty` at a close. -/
def depthQty (config : ExecutionModelConfig) (close : ℚ) : ℚ :=
  max (config.defaultDepthNotional / max close tiny) tiny

/-- `queue_factor` at a close. -/
def queueFactor (config : ExecutionModelConfig) (close : ℚ) : ℚ :=
  let depthQty := depthQty config close
  let queueQty := max (config.queueAheadNotional / max close tiny) 0
  if 0 < depthQty + queueQty then depthQty / (depthQty + queueQty) else 1

/-- `fill_ratio` of a remaining quantity. -/
def fillRatio (config : ExecutionModelConfig) (close remaining : ℚ) : ℚ :=
  let qtyAbs := |remaining|
  let depthQty := depthQty config close
  min 1 (config.baseFillRatio * queueFactor config close * (depthQty / max qtyAbs depthQty))

/-- `filled_qty`. -/
def filledQty (config : ExecutionModelConfig) (close remaining : ℚ) : ℚ :=
  |remaining| * fillRatio config close remaining

/-- `signed_fill_qty`. -/
def signedFillQty (config : ExecutionModelConfig) (close remaining : ℚ) : ℚ :=
  if 0 < remaining then filledQty config close remaining else -filledQty config close remaining

/-- `slippage_rate`. -/
def slippageRate (config : ExecutionModelConfig) (close remaining : ℚ) : ℚ :=
  let qtyAbs := |remaining|
  let depthQty := depthQty config close
  let impact := config.impactBps * min 2 (qtyAbs / depthQty)
  let shortage := if depthQty < qtyAbs then config.liquidityShortageBps else 0
  (config.slippageBps + impact + shortage) / 10000

/-- `fill_price`. -/
def matchPrice (config : ExecutionModelConfig) (close remaining : ℚ) : ℚ :=
  let side := if 0 < signedFillQty config close remaining then 1 else -1
  close * (1 + side * slippageRate config close remaining)

/-- The fill of a matured order at an event. -/
def maturedFill (config : ExecutionModelConfig) (event : MarketEvent) (order : PendingOrder)
    (isMaker : Bool) : Fill :=
  let signedFillQty := signedFillQty config event.close order.qty
  let fillPrice := matchPrice config event.close order.qty
  let notional := |signedFillQty| * fillPrice
  { clientOrderId := s!"mvp11-{order.sequence}", symbol := order.symbol, qty := signedFillQty,
    requestedPrice := event.close, fillPrice,
    slippageCost := |signedFillQty| * |fillPrice - event.close|,
    fee := notional * feeRate config isMaker, notional, ts := event.ts }

/-- The order re-queued for what a matured order has left. -/
def residualOrder (config : ExecutionModelConfig) (event : MarketEvent) (idx seqLen : ℕ)
    (order : PendingOrder) : PendingOrder :=
  { executeIdx := min (idx + 1) (seqLen - 1), sequence := order.sequence, symbol := order.symbol,
    qty := order.qty - signedFillQty config event.close order.qty,
    requestedPrice := event.close, ts := event.ts, strategy := order.strategy }

/-- The body of the loop over the matured orders. -/
def fillMatured (g : Engine) (event : MarketEvent) (idx seqLen : ℕ) (st : LoopState)
    (order : PendingOrder) : LoopState :=
  let remaining := order.qty
  if remaining = 0 then st
  else
    let isMaker := decide (g.draws st.drawn < g.config.makerProbability)
    let st := { st with drawn := st.drawn + 1 }
    if filledQty g.config event.close remaining ≤ 0 then { st with pending := st.pending ++ [order] }
    else
      let fill := maturedFill g.config event order isMaker
      let residual := remaining - fill.qty
      { st with
        fills := st.fills ++ [fill]
        positions := st.positions.set order.symbol (st.positions.getD order.symbol 0 + fill.qty)
        cash := st.cash - fill.qty * fill.fillPrice - fill.fee
        pending := if deadBand < |residual| then
            st.pending ++ [residualOrder g.config event idx seqLen order]
          else st.pending }

/-- `order.symbol == event.symbol and order.execute_idx <= idx`. -/
def isMatured (event : MarketEvent) (idx : ℕ) (order : PendingOrder) : Bool :=
  decide (order.symbol = event.symbol ∧ order.executeIdx ≤ idx)

/-- Process the matured orders of an event. -/
def processMatured (g : Engine) (event : MarketEvent) (idx seqLen : ℕ) (st : LoopState) : LoopState :=
  let matured := st.pending.filter (isMatured event idx)
  let kept := st.pending.filter fun order => decide (order ∉ matured)
  matured.foldl (fillMatured g event idx seqLen) { st with pending := kept }

/-! ## The portfolio target -/

/-- `target_qty` of the event's symbol. -/
def targetQty (g : Engine) (event : MarketEvent) : Except PyError ℚ := do
  let fns ← getItem g.strategyTargetQtyFns event.symbol
  let weightedSum ← fns.items.foldlM
    (fun acc p => do let weight ← getItem g.normStrategyWeights p.1; pure (acc + weight * p.2 event)) 0
  let symbolWeight ← getItem g.normSymbolWeights event.symbol
  pure (weightedSum * symbolWeight)

/-- The body of the loop over the stale orders: one cancel attempt. -/
def cancelStale (g : Engine) (st : LoopState) (stale : PendingOrder) : LoopState :=
  let draw := g.draws st.drawn
  let st := { st with drawn := st.drawn + 1 }
  if g.config.cancelRejectProbability ≤ draw then { st with pending := st.pending.erase stale } else st

/-- `o.symbol == event.symbol and o.qty * delta_qty < 0`. -/
def isStale (symbol : String) (deltaQty : ℚ) (order : PendingOrder) : Bool :=
  decide (order.symbol = symbol ∧ order.qty * deltaQty < 0)

/-- `target_qty - symbol_targets[event.symbol]`. -/
def deltaQty (event : MarketEvent) (targetQty : ℚ) (st : LoopState) : ℚ :=
  targetQty - st.symbolTargets.getD event.symbol 0

/-- The order generated at an event. -/
def newOrder (g : Engine) (event : MarketEvent) (symbolSeq : List MarketEvent) (idx : ℕ)
    (deltaQty : ℚ) (st : LoopState) : PendingOrder :=
  { executeIdx := resolveExecuteIdx symbolSeq idx g.config, sequence := st.sequence,
    symbol := event.symbol, qty := deltaQty, requestedPrice := event.close, ts := event.ts,
    strategy := "portfolio" }

/-- The stale orders of an event: its symbol's pending orders against the new direction. -/
def staleOrders (event : MarketEvent) (targetQty : ℚ) (st : LoopState) : List PendingOrder :=
  st.pending.filter (isStale event.symbol (deltaQty event targetQty st))

/-- Move the recorded target of the event's symbol: cancel attempts, then the new order. -/
def updateTarget (g : Engine) (event : MarketEvent) (symbolSeq : List MarketEvent) (idx : ℕ)
    (targetQty : ℚ) (st : LoopState) : LoopState :=
  let delta := deltaQty event targetQty st
  if deadBand < |delta| then
    let st := (staleOrders event targetQty st).foldl (cancelStale g) st
    { st with
      pending := st.pending ++ [newOrder g event symbolSeq idx delta st]
      sequence := st.sequence + 1
      symbolTargets := st.symbolTargets.set event.symbol (st.symbolTargets.getD event.symbol 0 + delta) }
  else st

/-! ## Funding and liquidation -/

/-- Charge the funding of a bar. -/
def chargeFunding (g : Engine) (st : LoopState) : LoopState :=
  let barFunding := (g.symbols.map fun sym =>
    |st.positions.getD sym 0 * st.lastPrice.getD sym 0| * g.config.fundingRatePerBar).sum
  { st with cash := st.cash - barFunding, fundingCost := st.fundingCost + barFunding }

/-- `gross > max_notional or current_equity <= maint_floor`. -/
def mustLiquidate (g : Engine) (st : LoopState) : Bool :=
  let currentEquity := equity st.cash st.positions st.lastPrice
  let gross := grossNotional st.positions st.lastPrice
  let maxNotional := max currentEquity tiny * g.config.leverage
  let maintFloor := gross * g.config.maintenanceMarginRate
  decide (maxNotional < gross ∨ currentEquity ≤ maintFloor)

/-- The fill that closes a quantity of a symbol in a liquidation. -/
def liquidationFill (g : Engine) (event : MarketEvent) (st : LoopState) (symbol : String) (qty : ℚ) :
    Fill :=
  let last := st.lastPrice.getD symbol 0
  let side := if 0 < qty then -1 else 1
  let px := last * (1 + side * (g.config.liquidationPenaltyBps / 10000))
  let notional := |qty| * px
  { clientOrderId := s!"liq-{st.sequence}-{symbol}", symbol, qty := -qty, requestedPrice := last,
    fillPrice := px, slippageCost := |qty| * |px - last|, fee := notional * feeRate g.config false,
    notional, ts := event.ts }

/-- The body of the liquidation loop over the symbols. -/
def liquidateSymbol (g : Engine) (event : MarketEvent) (st : LoopState) (symbol : String) : LoopState :=
  let qty := st.positions.getD symbol 0
  if |qty| ≤ deadBand then st
  else
    let fill := liquidationFill g event st symbol qty
    { st with
      fills := st.fills ++ [fill]
      cash := st.cash - (-qty) * fill.fillPrice - fill.fee
      positions := st.positions.set symbol 0
      sequence := st.sequence + 1 }

/-- The liquidation branch. -/
def liquidate (g : Engine) (event : MarketEvent) (st : LoopState) : LoopState :=
  g.symbols.foldl (liquidateSymbol g event) { st with liquidationCount := st.liquidationCount + 1 }

/-- The liquidation check. -/
def checkLiquidation (g : Engine) (event : MarketEvent) (st : LoopState) : LoopState :=
  if mustLiquidate g st then liquidate g event st else st

/-! ## The loop -/

/-- Append to the equity curve and attribute the change to the regime. -/
def recordEquity (g : Engine) (event : MarketEvent) (st : LoopState) : LoopState :=
  let currentEquity := equity st.cash st.positions st.lastPrice
  let previous := st.equityCurve.getLast?
  let st := { st with equityCurve := st.equityCurve ++ [currentEquity] }
  match g.regimeFn with
  | none => st
  | some regimeFn =>
    let regime := regimeFn event
    let change := match previous with
      | some equity => currentEquity - equity
      | none => 0
    { st with regimeEquityDelta :=
        st.regimeEquityDelta.set regime (st.regimeEquityDelta.getD regime 0 + change) }

/-- The state right before the liquidation check of an event. -/
def beforeLiquidation (g : Engine) (event : MarketEvent) (symbolSeq : List MarketEvent) (idx : ℕ)
    (targetQty : ℚ) (st : LoopState) : LoopState :=
  let st := { st with lastPrice := st.lastPrice.set event.symbol event.close }
  let st := processMatured g event idx symbolSeq.length st
  let st := updateTarget g event symbolSeq idx targetQty st
  chargeFunding g st

/-- The loop body. -/
def processEvent (g : Engine) (st : LoopState) (event : MarketEvent) : Except PyError LoopState := do
  let symbolSeq ← getItem g.symbolEvents event.symbol
  let idx ← getItem g.eventIndex (event.symbol, event.ts)
  let targetQty ← targetQty g event
  let st := beforeLiquidation g event symbolSeq idx targetQty st
  pure (recordEquity g event (checkLiquidation g event st))

/-! ## Set-up and result -/

/-- `norm_strategy_weights`. -/
def normaliseStrategyWeights (names : List String) (weights : Option (Py.Dict String ℚ)) :
    Except PyError (Py.Dict String ℚ) :=
  match weights with
  | none => .ok (.ofKeys names fun _ => 1 / names.length)
  | some weights =>
    if ¬ (weights.keys ⊆ names ∧ names ⊆ weights.keys) then
      .error (.valueError "strategy_weights keys must match strategy names")
    else
      let total := (names.map fun name => weights.getD name 0).sum
      if total ≤ 0 then .error (.valueError "strategy_weights sum must be > 0")
      else .ok (.ofKeys names fun name => weights.getD name 0 / total)

/-- `norm_symbol_weights`. -/
def normaliseSymbolWeights (symbols : List String) (weights : Option (Py.Dict String ℚ)) :
    Except PyError (Py.Dict String ℚ) :=
  match weights with
  | none => .ok (.ofKeys symbols fun _ => 1)
  | some weights =>
    if ¬ (weights.keys ⊆ symbols ∧ symbols ⊆ weights.keys) then
      .error (.valueError "symbol_weights keys must match configured symbols")
    else .ok (.ofKeys symbols fun symbol => weights.getD symbol 0)

/-- `event_index`: of two events of a symbol with one time stamp the later index stays. -/
def indexEvents (symbolEvents : Py.Dict String (List MarketEvent)) : Py.Dict (String × DateTime) ℕ :=
  symbolEvents.items.foldl
    (fun index p => p.2.zipIdx.foldl (fun index q => index.set (p.1, q.1.ts) q.2) index) .empty

/-- The arguments of a run. -/
structure BacktestArgs where
  events : List MarketEvent
  strategyTargetQtyFns : StrategyFns
  strategyWeights : Option (Py.Dict String ℚ) := none
  symbolWeights : Option (Py.Dict String ℚ) := none
  regimeFn : Option (MarketEvent → String) := none
  config : ExecutionModelConfig := {}
  draws : ℕ → ℚ

/-- `symbols`. -/
def BacktestArgs.symbols (args : BacktestArgs) : List String :=
  args.strategyTargetQtyFns.keys.insertionSort (· ≤ ·)

/-- `strategy_names`. -/
def BacktestArgs.strategyNames (args : BacktestArgs) : List String :=
  ((args.strategyTargetQtyFns.values.flatMap Py.Dict.keys).dedup).insertionSort (· ≤ ·)

/-- `ordered`. -/
def BacktestArgs.ordered (args : BacktestArgs) : List MarketEvent := sortedByTs args.events

/-- `symbol_events[symbol]`, for a configured symbol. -/
def BacktestArgs.eventsOf (args : BacktestArgs) (symbol : String) : List MarketEvent :=
  args.ordered.filter fun event => event.symbol = symbol

/-- Everything before the loop. -/
def setUp (args : BacktestArgs) : Except PyError Engine := do
  validateConfig args.config
  raiseIf (args.events = []) (.valueError "events is empty")
  raiseIf (args.strategyTargetQtyFns.keys = []) (.valueError "at least one symbol with strategy is required")
  raiseIf (∃ symbol ∈ args.symbols, symbol ∉ args.ordered.map MarketEvent.symbol)
    (.valueError "some configured symbols have no events")
  raiseIf (args.strategyNames = []) (.valueError "at least one strategy is required")
  let normStrategyWeights ← normaliseStrategyWeights args.strategyNames args.strategyWeights
  let normSymbolWeights ← normaliseSymbolWeights args.symbols args.symbolWeights
  let symbolEvents := Py.Dict.ofKeys args.symbols args.eventsOf
  pure { config := args.config, symbols := args.symbols,
         strategyTargetQtyFns := args.strategyTargetQtyFns, normStrategyWeights, normSymbolWeights,
         symbolEvents, eventIndex := indexEvents symbolEvents, regimeFn := args.regimeFn,
         draws := args.draws }

/-- The state before the first event. -/
def Engine.start (g : Engine) : LoopState where
  cash := g.config.initialEquity
  fills := []
  positions := .ofKeys g.symbols fun _ => 0
  lastPrice := .ofKeys g.symbols fun symbol =>
    (((g.symbolEvents.getD symbol []).head?).map MarketEvent.close).getD 0
  equityCurve := []
  pending := []
  symbolTargets := .ofKeys g.symbols fun _ => 0
  sequence := 0
  regimeEquityDelta := .empty
  fundingCost := 0
  liquidationCount := 0
  drawn := 0

/-- The loop over a list of events. -/
def Engine.run (g : Engine) (events : List MarketEvent) : Except PyError LoopState :=
  events.foldlM (processEvent g) g.start

/-- The result built from the last state. -/
def LoopState.result (st : LoopState) : RealisticBacktestResult where
  fills := st.fills
  equityCurve := st.equityCurve
  finalEquity := st.equityCurve.getLast?.getD 0
  totalFee := (st.fills.map Fill.fee).sum
  totalSlippageCost := (st.fills.map Fill.slippageCost).sum
  fundingCost := st.fundingCost
  liquidationCount := st.liquidationCount
  regimeEquityDelta := st.regimeEquityDelta
  symbolPositions := st.positions

/-- `run_multi_asset_multi_strategy_backtest`. -/
def runMultiAssetMultiStrategyBacktest (args : BacktestArgs) : Except PyError RealisticBacktestResult := do
  let g ← setUp args
  let st ← g.run args.ordered
  pure st.result

end CryptoQuant.Mvp11
