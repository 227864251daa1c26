import CryptoQuant.Basic
import CryptoQuant.Lib.Unwinding

/-!
# Order book microstructure

`market/microstructure.py`: the metrics of an order book snapshot. All but one read the
snapshot alone; the order flow imbalance reads the top of the last book of the same symbol,
so the analysis of a symbol is that of its own books.
-/

namespace CryptoQuant.Microstructure
set_option autoImplicit false

/-- `OrderBookLevel`. -/
structure OrderBookLevel where
  price : ℚ
  size : ℚ
deriving DecidableEq, Repr

/-- `OrderBookSnapshot`. -/
structure OrderBookSnapshot where
  symbol : String
  ts : DateTime
  bids : List OrderBookLevel
  asks : List OrderBookLevel
  source : String := "unknown"
deriving DecidableEq, Repr

/-- `MicrostructureMetrics`. -/
structure MicrostructureMetrics where
  symbol : String
  ts : DateTime
  depthLevels : ℤ
  bestBid : ℚ
  bestAsk : ℚ
  spread : ℚ
  spreadBps : ℚ
  midPrice : ℚ
  microPrice : ℚ
  bidDepth : ℚ
  askDepth : ℚ
  depthImbalance : ℚ
  bidVwap : ℚ
  askVwap : ℚ
  orderFlowImbalance : ℚ
deriving DecidableEq, Repr

/-- The top of a book: `(best_bid, top_bid_size, best_ask, top_ask_size)`. -/
structure Top where
  bidPx : ℚ
  bidSz : ℚ
  askPx : ℚ
  askSz : ℚ
deriving DecidableEq, Repr

/-- `OrderBookMicrostructureAnalyzer`. -/
structure OrderBookMicrostructureAnalyzer where
  prevTopBySymbol : Py.Dict String Top := .empty

/-- `sum(max(level.size, 0.0) for level in levels)`. -/
def depth (levels : List OrderBookLevel) : ℚ := (levels.map fun level => max level.size 0).sum

/-- `_vwap`. -/
def vwap (levels : List OrderBookLevel) : ℚ :=
  let denom := depth levels
  if denom ≤ 0 then 0 else (levels.map fun level => level.price * max level.size 0).sum / denom

/-- `1.0 if condition else 0.0`. -/
def indicator (condition : Prop) [Decidable condition] : ℚ := if condition then 1 else 0

/-- The top of a book with these best levels. -/
def topOf (bid ask : OrderBookLevel) : Top := ⟨bid.price, max bid.size 0, ask.price, max ask.size 0⟩

/-- The metrics of a book with these best levels, and an order flow imbalance. -/
def metricsWith (snapshot : OrderBookSnapshot) (depthLevels : ℤ) (bid ask : OrderBookLevel) (ofi : ℚ) : MicrostructureMetrics :=
  let bids := snapshot.bids.take depthLevels.toNat
  let asks := snapshot.asks.take depthLevels.toNat
  let bestBid := bid.price
  let bestAsk := ask.price
  let spread := max (bestAsk - bestBid) 0
  let mid := (bestBid + bestAsk) / 2
  let spreadBps := if 0 < mid then spread / mid * 10000 else 0
  let bidDepth := depth bids
  let askDepth := depth asks
  let totalDepth := bidDepth + askDepth
  let depthImbalance := if 0 < totalDepth then (bidDepth - askDepth) / totalDepth else 0
  let topBidSize := max bid.size 0
  let topAskSize := max ask.size 0
  let microPrice :=
    if 0 < topBidSize + topAskSize then (bestAsk * topBidSize + bestBid * topAskSize) / (topBidSize + topAskSize) else mid
  { symbol := snapshot.symbol
    ts := snapshot.ts
    depthLevels := min depthLevels (min snapshot.bids.length snapshot.asks.length)
    bestBid, bestAsk, spread, spreadBps, midPrice := mid, microPrice, bidDepth, askDepth, depthImbalance
    bidVwap := vwap bids
    askVwap := vwap asks
    orderFlowImbalance := ofi }

namespace OrderBookMicrostructureAnalyzer

/-- `_compute_ofi`. -/
def computeOfi (analyzer : OrderBookMicrostructureAnalyzer) (symbol : String) (top : Top) : ℚ :=
  match analyzer.prevTopBySymbol.get? symbol with
  | none => 0
  | some prev =>
    let bidComponent := indicator (prev.bidPx ≤ top.bidPx) * top.bidSz - indicator (top.bidPx ≤ prev.bidPx) * prev.bidSz
    let askComponent := indicator (top.askPx ≤ prev.askPx) * top.askSz - indicator (prev.askPx ≤ top.askPx) * prev.askSz
    bidComponent - askComponent

/-- `analyze`. -/
def analyze (analyzer : OrderBookMicrostructureAnalyzer) (snapshot : OrderBookSnapshot) (depthLevels : ℤ := 5) :
    Except PyError MicrostructureMetrics × OrderBookMicrostructureAnalyzer :=
  if depthLevels ≤ 0 then (.error (.valueError "depth_levels must be > 0"), analyzer)
  else
    match snapshot.bids, snapshot.asks with
    | bid :: _, ask :: _ =>
      let ofi := analyzer.computeOfi snapshot.symbol (topOf bid ask)
      (.ok (metricsWith snapshot depthLevels bid ask ofi),
        { analyzer with prevTopBySymbol := analyzer.prevTopBySymbol.set snapshot.symbol (topOf bid ask) })
    | _, _ => (.error (.valueError "snapshot must contain both bids and asks"), analyzer)

end OrderBookMicrostructureAnalyzer

/-- The arguments of `analyze`. -/
structure Call where
  snapshot : OrderBookSnapshot
  depthLevels : ℤ := 5

/-- The analyzer as a component. -/
def machine : Run.Machine OrderBookMicrostructureAnalyzer Call (Except PyError MicrostructureMetrics) :=
  ⟨fun analyzer call => analyzer.analyze call.snapshot call.depthLevels⟩

section Isolation
variable {analyzer analyzer' : OrderBookMicrostructureAnalyzer} {call : Call}

/-- **The two ways a call ends.** It raises whatever the analyzer has seen and leaves it, or
answers by the last top of its symbol and stores the new one. -/
theorem call_cases (call : Call) :
    (∃ e, ∀ analyzer, machine.call analyzer call = (.error e, analyzer)) ∨
    ∃ (top : Top) (metrics : ℚ → MicrostructureMetrics), ∀ analyzer, machine.call analyzer call =
      (.ok (metrics (analyzer.computeOfi call.snapshot.symbol top)),
        { analyzer with prevTopBySymbol := analyzer.prevTopBySymbol.set call.snapshot.symbol top }) := by
  obtain ⟨⟨symbol, ts, bids, asks, source⟩, depthLevels⟩ := call
  by_cases shallow : depthLevels ≤ 0
  · exact .inl ⟨_, fun analyzer => if_pos shallow⟩
  cases bids with
  | nil => exact .inl ⟨_, fun analyzer => if_neg shallow⟩
  | cons bid bids =>
    cases asks with
    | nil => exact .inl ⟨_, fun analyzer => if_neg shallow⟩
    | cons ask asks =>
      exact .inr ⟨topOf bid ask, metricsWith ⟨symbol, ts, bid :: bids, ask :: asks, source⟩ depthLevels bid ask,
        fun analyzer => if_neg shallow⟩

/-- The analyzers have the same last top of the symbol. -/
def SameTop (symbol : String) (analyzer analyzer' : OrderBookMicrostructureAnalyzer) : Prop :=
  analyzer.prevTopBySymbol.get? symbol = analyzer'.prevTopBySymbol.get? symbol

/-- The metrics of a symbol: a call of it that did not raise. -/
def metricsOf (symbol : String) (p : Call × Except PyError MicrostructureMetrics) : Bool :=
  decide (p.1.snapshot.symbol = symbol) && p.2.isOk

/-- **One call**, for the metrics of a symbol. -/
theorem unwinds_metricsOf (symbol : String) : machine.Unwinds (SameTop symbol) (metricsOf symbol) := by
  constructor
  · intro analyzer analyzer' call same sees
    unfold Run.Machine.answer at sees ⊢
    unfold Run.Machine.next
    obtain ⟨own, returned⟩ := Bool.and_eq_true_iff.mp sees
    rcases call_cases call with ⟨e, raises⟩ | ⟨top, metrics, answers⟩
    · rw [raises] at returned
      cases returned
    · have flow : analyzer'.computeOfi call.snapshot.symbol top = analyzer.computeOfi call.snapshot.symbol top := by
        unfold OrderBookMicrostructureAnalyzer.computeOfi
        rw [of_decide_eq_true own, same]
      rw [answers, answers, flow]
      refine ⟨rfl, ?_⟩
      unfold SameTop
      rw [of_decide_eq_true own, Py.Dict.get?_set_self, Py.Dict.get?_set_self]
  · intro analyzer analyzer' call same unseen
    unfold Run.Machine.answer at unseen
    unfold Run.Machine.next
    rcases call_cases call with ⟨e, raises⟩ | ⟨top, metrics, answers⟩
    · rw [raises]
      exact same
    · rw [answers] at unseen ⊢
      have other : symbol ≠ call.snapshot.symbol := fun own => by simp [metricsOf, own, Except.isOk, Except.toBool] at unseen
      unfold SameTop
      rw [Py.Dict.get?_set_ne _ _ other]
      exact same

/-- **Isolation.** Of any sequence of calls, the metrics returned for the books of a symbol are
those that a new analyzer returns for these books alone. -/
theorem order_flow_isolated (symbol : String) (calls : List Call) :
    machine.trace {} (((machine.trace {} calls).filter (metricsOf symbol)).map Prod.fst) =
      (machine.trace {} calls).filter (metricsOf symbol) :=
  (unwinds_metricsOf symbol).trace (show SameTop symbol {} {} from rfl) calls

end Isolation

end CryptoQuant.Microstructure
