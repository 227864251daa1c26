import CryptoQuant.Backtest.Mvp11.SetUp

/-!
# What the phases of the loop body write

One spec lemma for each block of the loop: the three outcomes of a matured
order, of a cancel attempt and of the liquidation of a symbol, and which locals
each block leaves alone. The invariants of a run are derived from these; none
unfolds a block again.
-/

namespace CryptoQuant.Mvp11
set_option autoImplicit false

/-- A fill booked against cash and a position. -/
def LoopState.book (st : LoopState) (fill : Fill) (pending : List PendingOrder) (drawn : ℕ) : LoopState :=
  { st with
    fills := st.fills ++ [fill]
    positions := st.positions.set fill.symbol (st.positions.getD fill.symbol 0 + fill.qty)
    cash := st.cash - fill.qty * fill.fillPrice - fill.fee
    pending
    drawn }

section OneOrder
variable {g : Engine} {event : MarketEvent} {idx seqLen : ℕ} {st : LoopState} {order : PendingOrder}

theorem fillMatured_of_zero (zero : order.qty = 0) : fillMatured g event idx seqLen st order = st := by
  unfold fillMatured
  simp only [if_pos zero]

theorem fillMatured_of_unfilled (live : order.qty ≠ 0) (unfilled : filledQty g.config event.close order.qty ≤ 0) :
    fillMatured g event idx seqLen st order =
      { st with pending := st.pending ++ [order], drawn := st.drawn + 1 } := by
  unfold fillMatured
  simp only [if_neg live, if_pos unfilled]

/-- What is pending after a fill. -/
def afterFill (g : Engine) (event : MarketEvent) (idx seqLen : ℕ) (pending : List PendingOrder) (order : PendingOrder) :
    List PendingOrder :=
  if deadBand < |(residualOrder g.config event idx seqLen order).qty| then
    pending ++ [residualOrder g.config event idx seqLen order]
  else pending

theorem fillMatured_of_filled (live : order.qty ≠ 0) (filled : 0 < filledQty g.config event.close order.qty) :
    fillMatured g event idx seqLen st order =
      st.book (maturedFill g.config event order (decide (g.draws st.drawn < g.config.makerProbability)))
        (afterFill g event idx seqLen st.pending order) (st.drawn + 1) := by
  unfold fillMatured
  simp only [if_neg live, if_neg (not_le.mpr filled)]
  rfl

end OneOrder

/-- What a matured order can do to the state. -/
inductive Matched (g : Engine) (event : MarketEvent) (idx seqLen : ℕ) (st : LoopState)
    (order : PendingOrder) : LoopState → Prop
  | nothing (zero : order.qty = 0) : Matched g event idx seqLen st order st
  | requeued (drawn : ℕ) :
      Matched g event idx seqLen st order { st with pending := st.pending ++ [order], drawn }
  | residual (isMaker : Bool) (drawn : ℕ)
      (left : deadBand < |(residualOrder g.config event idx seqLen order).qty|) :
      Matched g event idx seqLen st order (st.book (maturedFill g.config event order isMaker)
        (st.pending ++ [residualOrder g.config event idx seqLen order]) drawn)
  | done (isMaker : Bool) (drawn : ℕ)
      (dust : |(residualOrder g.config event idx seqLen order).qty| ≤ deadBand) :
      Matched g event idx seqLen st order
        (st.book (maturedFill g.config event order isMaker) st.pending drawn)

/-- The outcome of one iteration of the loop over the matured orders. -/
theorem fillMatured_matched (g : Engine) (event : MarketEvent) (idx seqLen : ℕ) (st : LoopState)
    (order : PendingOrder) :
    Matched g event idx seqLen st order (fillMatured g event idx seqLen st order) := by
  unfold fillMatured
  simp only
  split
  · rename_i zero
    exact .nothing zero
  · split
    · exact .requeued (st.drawn + 1)
    · split
      · rename_i left
        exact .residual _ (st.drawn + 1) left
      · rename_i dust
        exact .done _ (st.drawn + 1) (not_lt.mp dust)

/-- The locals that filling matured orders leaves alone. -/
structure FillFrame (st st' : LoopState) : Prop where
  lastPrice : st'.lastPrice = st.lastPrice
  symbolTargets : st'.symbolTargets = st.symbolTargets
  sequence : st'.sequence = st.sequence
  fundingCost : st'.fundingCost = st.fundingCost
  equityCurve : st'.equityCurve = st.equityCurve
  liquidationCount : st'.liquidationCount = st.liquidationCount

theorem FillFrame.trans {a b c : LoopState} (h : FillFrame a b) (k : FillFrame b c) : FillFrame a c :=
  ⟨k.lastPrice.trans h.lastPrice, k.symbolTargets.trans h.symbolTargets, k.sequence.trans h.sequence,
    k.fundingCost.trans h.fundingCost, k.equityCurve.trans h.equityCurve,
    k.liquidationCount.trans h.liquidationCount⟩

/-- The locals that moving the target leaves alone. -/
structure TargetFrame (st st' : LoopState) : Prop where
  lastPrice : st'.lastPrice = st.lastPrice
  positions : st'.positions = st.positions
  fills : st'.fills = st.fills
  cash : st'.cash = st.cash
  fundingCost : st'.fundingCost = st.fundingCost
  equityCurve : st'.equityCurve = st.equityCurve
  liquidationCount : st'.liquidationCount = st.liquidationCount

/-- The locals that liquidating symbols leaves alone. -/
structure CloseFrame (st st' : LoopState) : Prop where
  lastPrice : st'.lastPrice = st.lastPrice
  symbolTargets : st'.symbolTargets = st.symbolTargets
  pending : st'.pending = st.pending
  fundingCost : st'.fundingCost = st.fundingCost
  equityCurve : st'.equityCurve = st.equityCurve
  liquidationCount : st'.liquidationCount = st.liquidationCount

theorem CloseFrame.trans {a b c : LoopState} (h : CloseFrame a b) (k : CloseFrame b c) : CloseFrame a c :=
  ⟨k.lastPrice.trans h.lastPrice, k.symbolTargets.trans h.symbolTargets, k.pending.trans h.pending,
    k.fundingCost.trans h.fundingCost, k.equityCurve.trans h.equityCurve,
    k.liquidationCount.trans h.liquidationCount⟩

section Frames
variable (g : Engine) (event : MarketEvent) (idx seqLen : ℕ)

/-- A matured order leaves the locals outside fills, positions, cash, pending
orders and draws alone. -/
theorem Matched.frame {g : Engine} {event : MarketEvent} {idx seqLen : ℕ} {st st' : LoopState}
    {order : PendingOrder} (h : Matched g event idx seqLen st order st') : FillFrame st st' := by
  cases h <;> constructor <;> rfl

theorem processMatured_frame (st : LoopState) :
    FillFrame st (processMatured g event idx seqLen st) := by
  refine Run.foldl_invariant (P := FillFrame st) ?_ ⟨rfl, rfl, rfl, rfl, rfl, rfl⟩
  intro s order _ h
  exact h.trans (fillMatured_matched g event idx seqLen s order).frame

/-- The cancel attempts write only pending orders and draws. -/
theorem cancelStale_eq (st : LoopState) (stale : PendingOrder) :
    ∃ pending, cancelStale g st stale = { st with pending, drawn := st.drawn + 1 } ∧
      (pending = st.pending ∨ pending = st.pending.erase stale) := by
  unfold cancelStale
  simp only
  split
  · exact ⟨_, rfl, .inr rfl⟩
  · exact ⟨_, rfl, .inl rfl⟩

theorem cancelAll_eq (st : LoopState) (stale : List PendingOrder) :
    ∃ pending drawn, stale.foldl (cancelStale g) st = { st with pending, drawn } ∧
      pending.Sublist st.pending := by
  induction stale generalizing st with
  | nil => exact ⟨_, _, rfl, List.Sublist.refl _⟩
  | cons order stale ih =>
    obtain ⟨pending, first, kept⟩ := cancelStale_eq g st order
    have less : pending.Sublist st.pending := by
      rcases kept with rfl | rfl
      · exact List.Sublist.refl _
      · exact List.erase_sublist
    obtain ⟨pending', drawn, rest, sub⟩ := ih (cancelStale g st order)
    rw [first] at sub
    refine ⟨pending', drawn, ?_, sub.trans less⟩
    rw [List.foldl_cons, rest, first]

/-- The state after the cancel attempts of an event. -/
def afterCancels (g : Engine) (event : MarketEvent) (targetQty : ℚ) (st : LoopState) : LoopState :=
  (staleOrders event targetQty st).foldl (cancelStale g) st

/-- What a moved target writes. -/
theorem updateTarget_of_move {symbolSeq : List MarketEvent} {targetQty : ℚ} {st : LoopState}
    (move : deadBand < |deltaQty event targetQty st|) :
    updateTarget g event symbolSeq idx targetQty st =
      { st with
        pending := (afterCancels g event targetQty st).pending ++
          [newOrder g event symbolSeq idx (deltaQty event targetQty st) st]
        sequence := st.sequence + 1
        symbolTargets := st.symbolTargets.set event.symbol
          (st.symbolTargets.getD event.symbol 0 + deltaQty event targetQty st)
        drawn := (afterCancels g event targetQty st).drawn } := by
  obtain ⟨pending, drawn, cancels, -⟩ := cancelAll_eq g st (staleOrders event targetQty st)
  unfold updateTarget afterCancels
  simp only [if_pos move, cancels, newOrder]

theorem updateTarget_of_still {symbolSeq : List MarketEvent} {targetQty : ℚ} {st : LoopState}
    (still : ¬ deadBand < |deltaQty event targetQty st|) :
    updateTarget g event symbolSeq idx targetQty st = st := by
  unfold updateTarget
  simp only [if_neg still]

theorem updateTarget_frame (symbolSeq : List MarketEvent) (targetQty : ℚ) (st : LoopState) :
    TargetFrame st (updateTarget g event symbolSeq idx targetQty st) := by
  by_cases move : deadBand < |deltaQty event targetQty st|
  · rw [updateTarget_of_move g event idx move]
    constructor <;> rfl
  · rw [updateTarget_of_still g event idx move]
    constructor <;> rfl

/-- The liquidation of one symbol: nothing inside the dead-band, else a booked
fill that closes the position. -/
theorem liquidateSymbol_cases (st : LoopState) (symbol : String) :
    (|st.positions.getD symbol 0| ≤ deadBand ∧ liquidateSymbol g event st symbol = st) ∨
      (deadBand < |st.positions.getD symbol 0| ∧ ∃ fill : Fill,
        fill.clientOrderId = s!"liq-{st.sequence}-{symbol}" ∧ fill.symbol = symbol ∧
        fill.qty = -st.positions.getD symbol 0 ∧
        liquidateSymbol g event st symbol =
          { st with
            fills := st.fills ++ [fill]
            cash := st.cash - fill.qty * fill.fillPrice - fill.fee
            positions := st.positions.set symbol 0
            sequence := st.sequence + 1 }) := by
  unfold liquidateSymbol
  simp only
  split
  · rename_i small
    exact .inl ⟨small, rfl⟩
  · rename_i large
    exact .inr ⟨not_le.mp large, liquidationFill g event st symbol (st.positions.getD symbol 0),
      rfl, rfl, rfl, rfl⟩

theorem liquidateSymbol_frame (st : LoopState) (symbol : String) :
    CloseFrame st (liquidateSymbol g event st symbol) := by
  rcases liquidateSymbol_cases g event st symbol with ⟨-, same⟩ | ⟨-, fill, -, -, -, closed⟩
  · rw [same]
    constructor <;> rfl
  · rw [closed]
    constructor <;> rfl

/-- The liquidation branch counts itself and then only closes positions. -/
theorem liquidate_frame (st : LoopState) :
    CloseFrame { st with liquidationCount := st.liquidationCount + 1 } (liquidate g event st) := by
  refine Run.foldl_invariant (P := CloseFrame _) ?_ ⟨rfl, rfl, rfl, rfl, rfl, rfl⟩
  intro s symbol _ h
  exact h.trans (liquidateSymbol_frame g event s symbol)

theorem checkLiquidation_lastPrice (st : LoopState) :
    (checkLiquidation g event st).lastPrice = st.lastPrice := by
  unfold checkLiquidation
  split
  · exact (liquidate_frame g event st).lastPrice
  · rfl

/-- Recording the equity writes only the curve and the regime attribution. -/
theorem recordEquity_eq (st : LoopState) :
    ∃ regimeEquityDelta, recordEquity g event st =
      { st with equityCurve := st.equityCurve ++ [equity st.cash st.positions st.lastPrice],
                regimeEquityDelta } := by
  unfold recordEquity
  cases g.regimeFn with
  | none => exact ⟨_, rfl⟩
  | some regimeFn => exact ⟨_, rfl⟩

end Frames

end CryptoQuant.Mvp11
