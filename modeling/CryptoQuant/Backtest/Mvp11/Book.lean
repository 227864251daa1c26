import CryptoQuant.Lib.Tally
import CryptoQuant.Backtest.Mvp11.Phases

/-!
# The order book and the recorded targets

The engine records a target per symbol and works towards it with pending orders.
`gap` is what the target has that neither the position nor the pending orders
have. Matching drops residuals inside the dead-band, so `Balanced` allows one
dead-band for each order generated and no longer pending; an accepted cancel and
a liquidation move the gap by whole quantities.
-/

namespace CryptoQuant.Mvp11
set_option autoImplicit false

/-- The quantity of a symbol's orders. -/
def qtyOf (orders : List PendingOrder) (s : String) : ℚ :=
  ((orders.filter fun o => o.symbol = s).map PendingOrder.qty).sum

/-- The number of a symbol's orders. -/
def countOf (orders : List PendingOrder) (s : String) : ℕ := (orders.filter fun o => o.symbol = s).length

/-- The recorded target of a symbol, less its position and its pending orders. -/
def LoopState.gap (st : LoopState) (s : String) : ℚ :=
  st.symbolTargets.getD s 0 - (st.positions.getD s 0 + qtyOf st.pending s)

section Sums
variable (orders : List PendingOrder) (o : PendingOrder) (s : String)

@[simp] theorem qtyOf_nil : qtyOf [] s = 0 := rfl
@[simp] theorem countOf_nil : countOf [] s = 0 := rfl

theorem qtyOf_cons : qtyOf (o :: orders) s = (if o.symbol = s then o.qty else 0) + qtyOf orders s :=
  Tally.total_cons PendingOrder.symbol PendingOrder.qty s o orders

theorem qtyOf_snoc : qtyOf (orders ++ [o]) s = qtyOf orders s + if o.symbol = s then o.qty else 0 :=
  Tally.total_snoc PendingOrder.symbol PendingOrder.qty s orders o

theorem countOf_eq : countOf orders s = Tally.total PendingOrder.symbol (fun _ => 1) s orders := by
  simp [countOf, Tally.total]

theorem countOf_cons : countOf (o :: orders) s = (if o.symbol = s then 1 else 0) + countOf orders s := by
  simp only [countOf_eq, Tally.total_cons]

theorem countOf_snoc : countOf (orders ++ [o]) s = countOf orders s + if o.symbol = s then 1 else 0 := by
  simp only [countOf_eq, Tally.total_snoc]

/-- Splitting the orders by a test splits quantity and number. -/
theorem split_orders (p : PendingOrder → Bool) :
    qtyOf orders s = qtyOf (orders.filter p) s + qtyOf (orders.filter fun o => !p o) s ∧
      countOf orders s = countOf (orders.filter p) s + countOf (orders.filter fun o => !p o) s := by
  simp only [countOf_eq]
  exact ⟨Tally.total_split PendingOrder.symbol PendingOrder.qty s p orders, Tally.total_split _ _ s p orders⟩

end Sums

theorem deadBand_nonneg : 0 ≤ deadBand := by unfold deadBand; norm_num

/-! ## Matching -/

/-- The gap of a symbol with the orders `queue` still to be matched, and a
dead-band for every open order, are within a bound. -/
def Within (st : LoopState) (queue : List PendingOrder) (s : String) (bound : ℚ) : Prop :=
  |st.gap s - qtyOf queue s| + deadBand * (countOf st.pending s + countOf queue s : ℕ) ≤ bound

section Matching
variable {g : Engine} {event : MarketEvent} {idx seqLen : ℕ} {st st' : LoopState} {order : PendingOrder}

/-- A booked fill of another symbol leaves a symbol's position. -/
theorem book_position (fill : Fill) (pending : List PendingOrder) (drawn : ℕ) (s : String) :
    (st.book fill pending drawn).positions.getD s 0 =
      st.positions.getD s 0 + if fill.symbol = s then fill.qty else 0 := by
  show (st.positions.set _ _).getD s 0 = _
  rw [Py.Dict.getD_set]
  by_cases own : s = fill.symbol
  · rw [if_pos own, if_pos own.symm, own]
  · rw [if_neg own, if_neg (Ne.symm own), add_zero]

/-- What a booked fill of an order, with its residual re-queued or not, does to
the gaps. -/
theorem book_gap (fill : Fill) (pending : List PendingOrder) (drawn : ℕ) (s : String) :
    (st.book fill pending drawn).gap s =
      st.gap s + qtyOf st.pending s - qtyOf pending s - if fill.symbol = s then fill.qty else 0 := by
  unfold LoopState.gap
  rw [book_position]
  show st.symbolTargets.getD s 0 - (_ + qtyOf pending s) = _
  ring

/-- **Step lemma of matching**: a matched order keeps every symbol's bound. A
dropped residual uses up the dead-band of its order. -/
theorem Matched.within (h : Matched g event idx seqLen st order st') {queue : List PendingOrder}
    {s : String} {bound : ℚ} (before : Within st (order :: queue) s bound) : Within st' queue s bound := by
  unfold Within at before ⊢
  rw [qtyOf_cons, countOf_cons] at before
  have band := deadBand_nonneg
  cases h with
  | nothing zero =>
    rw [zero, ite_self, zero_add] at before
    refine le_trans (add_le_add_right (mul_le_mul_of_nonneg_left ?_ band) _) before
    exact_mod_cast Nat.add_le_add_left (Nat.le_add_left _ _) _
  | requeued drawn =>
    have gap : LoopState.gap { st with pending := st.pending ++ [order], drawn } s =
        st.gap s - if order.symbol = s then order.qty else 0 := by
      unfold LoopState.gap
      show _ - (_ + qtyOf (st.pending ++ [order]) s) = _
      rw [qtyOf_snoc]
      ring
    rw [gap, countOf_snoc, sub_sub, Nat.add_assoc]
    exact before
  | residual isMaker drawn left =>
    rw [book_gap, qtyOf_snoc]
    show |_ - (if order.symbol = s then _ else _) - _| + deadBand * (countOf (_ ++ [_]) s + _ : ℕ) ≤ bound
    rw [countOf_snoc]
    have moved : st.gap s + qtyOf st.pending s - (qtyOf st.pending s +
        if order.symbol = s then (residualOrder g.config event idx seqLen order).qty else 0) -
        (if order.symbol = s then (maturedFill g.config event order isMaker).qty else 0) - qtyOf queue s =
        st.gap s - ((if order.symbol = s then order.qty else 0) + qtyOf queue s) := by
      by_cases own : order.symbol = s
      · simp only [if_pos own, residualOrder, maturedFill]; ring
      · simp only [if_neg own]; ring
    refine le_of_eq_of_le ?_ before
    rw [← moved, Nat.add_assoc]
    rfl
  | done isMaker drawn dust =>
    rw [book_gap, add_sub_cancel_right]
    show |_ - (if order.symbol = s then _ else _) - _| + deadBand * (countOf st.pending s + _ : ℕ) ≤ bound
    by_cases own : order.symbol = s
    · rw [if_pos own] at before ⊢
      rw [if_pos own] at before
      -- the dropped residual moves the gap, the order it belonged to is no longer open
      have split : st.gap s - (maturedFill g.config event order isMaker).qty - qtyOf queue s =
          st.gap s - (order.qty + qtyOf queue s) + (residualOrder g.config event idx seqLen order).qty := by
        simp only [residualOrder, maturedFill]; ring
      have moved := abs_add_le (st.gap s - (order.qty + qtyOf queue s))
        (residualOrder g.config event idx seqLen order).qty
      rw [split]
      push_cast at before ⊢
      linarith
    · rw [if_neg own, zero_add, if_neg own, Nat.zero_add] at before
      rw [if_neg own, sub_zero]
      exact before

/-- Matching the whole queue keeps the bound. -/
theorem foldl_within (queue : List PendingOrder) (st : LoopState) {s : String} {bound : ℚ}
    (before : Within st queue s bound) :
    Within (queue.foldl (fillMatured g event idx seqLen) st) [] s bound := by
  induction queue generalizing st with
  | nil => exact before
  | cons order queue ih =>
    rw [List.foldl_cons]
    exact ih _ ((fillMatured_matched g event idx seqLen st order).within before)

/-- **Processing the matured orders keeps every symbol's bound.** -/
theorem processMatured_within {s : String} {bound : ℚ} (before : Within st [] s bound) :
    Within (processMatured g event idx seqLen st) [] s bound := by
  refine foldl_within _ _ ?_
  have kept : (st.pending.filter fun order => decide (order ∉ st.pending.filter (isMatured event idx))) =
      st.pending.filter fun order => !isMatured event idx order := by
    refine List.filter_congr fun order member => ?_
    simp only [List.mem_filter, member, true_and, Bool.decide_eq_true, decide_not]
  obtain ⟨qty, count⟩ := split_orders st.pending s (isMatured event idx)
  unfold Within at before ⊢
  rw [qtyOf_nil, sub_zero, countOf_nil, Nat.add_zero, count] at before
  show |st.symbolTargets.getD s 0 - (st.positions.getD s 0 + qtyOf (st.pending.filter _) s) - _| +
    deadBand * (countOf (st.pending.filter _) s + _ : ℕ) ≤ bound
  rw [kept, Nat.add_comm]
  refine le_of_eq_of_le ?_ before
  unfold LoopState.gap
  rw [qty]
  congr 2
  ring

end Matching

/-! ## The target and its cancels -/

/-- **The book is balanced**: every gap is within one dead-band for each order
generated and no longer pending. -/
def Balanced (st : LoopState) : Prop := ∀ s, Within st [] s (deadBand * st.sequence)

theorem Balanced.gap_le {st : LoopState} (h : Balanced st) (s : String) :
    |st.gap s| ≤ deadBand * st.sequence := by
  have within : Within st [] s _ := h s
  unfold Within at within
  rw [qtyOf_nil, sub_zero] at within
  have open_ : 0 ≤ deadBand * (countOf st.pending s + countOf [] s : ℕ) :=
    mul_nonneg deadBand_nonneg (Nat.cast_nonneg _)
  linarith

/-- Balance speaks only of targets, positions, pending orders and the sequence. -/
theorem Balanced.of_same {st st' : LoopState} (h : Balanced st) (targets : st'.symbolTargets = st.symbolTargets)
    (positions : st'.positions = st.positions) (pending : st'.pending = st.pending)
    (sequence : st'.sequence = st.sequence) : Balanced st' := by
  intro s
  have within := h s
  unfold Within LoopState.gap at within ⊢
  rw [targets, positions, pending, sequence]
  exact within

section Target
variable {g : Engine} {event : MarketEvent} {symbolSeq : List MarketEvent} {idx : ℕ} {target : ℚ}
  {st : LoopState}

/-- **What moving the target does to the gaps**: each loses exactly the
quantity its accepted cancels took out of the book. -/
theorem updateTarget_gap (move : deadBand < |deltaQty event target st|) (s : String) :
    (updateTarget g event symbolSeq idx target st).gap s =
      st.gap s + (qtyOf st.pending s - qtyOf (afterCancels g event target st).pending s) := by
  rw [updateTarget_of_move g event idx move]
  unfold LoopState.gap
  show (st.symbolTargets.set _ _).getD s 0 - (_ + qtyOf (_ ++ [_]) s) = _
  rw [qtyOf_snoc, Py.Dict.getD_set]
  show _ - (_ + (_ + if event.symbol = s then deltaQty event target st else 0)) = _
  by_cases own : s = event.symbol
  · rw [if_pos own, if_pos own.symm, own]; ring
  · rw [if_neg own, if_neg (Ne.symm own)]; ring

/-- Rejected cancels leave the book alone. -/
theorem cancelAll_rejected (stale : List PendingOrder) (st : LoopState)
    (rejected : ∀ i < stale.length, g.draws (st.drawn + i) < g.config.cancelRejectProbability) :
    (stale.foldl (cancelStale g) st).pending = st.pending := by
  induction stale generalizing st with
  | nil => rfl
  | cons order stale ih =>
    have first : g.draws st.drawn < g.config.cancelRejectProbability :=
      rejected 0 (Nat.zero_lt_succ _)
    have same : cancelStale g st order = { st with drawn := st.drawn + 1 } := by
      unfold cancelStale
      simp only [if_neg (not_le.mpr first)]
    rw [List.foldl_cons, same]
    refine ih _ fun i bound => ?_
    have later := rejected (i + 1) (Nat.succ_lt_succ bound)
    rwa [Nat.add_comm i 1, ← Nat.add_assoc] at later

/-- Some attempt of the event's cancels is accepted, from the state with its
matured orders matched. -/
def acceptsCancel (g : Engine) (event : MarketEvent) (target : ℚ) (st : LoopState) : Bool :=
  decide (deadBand < |deltaQty event target st|) &&
    (List.range (staleOrders event target st).length).any fun i =>
      decide (g.config.cancelRejectProbability ≤ g.draws (st.drawn + i))

/-- Without an accepted cancel, moving the target keeps the balance: the new
order is what the target moved by. -/
theorem updateTarget_balanced (h : Balanced st) (none_ : acceptsCancel g event target st = false) :
    Balanced (updateTarget g event symbolSeq idx target st) := by
  by_cases move : deadBand < |deltaQty event target st|
  · have rejected : (afterCancels g event target st).pending = st.pending := by
      refine cancelAll_rejected _ _ fun i bound => ?_
      simp only [acceptsCancel, move, decide_true, Bool.true_and, List.any_eq_false, List.mem_range,
        decide_eq_true_eq] at none_
      exact not_le.mp (none_ i bound)
    intro s
    have within := h s
    unfold Within at within ⊢
    rw [updateTarget_gap move s, rejected, sub_self, add_zero, updateTarget_of_move g event idx move]
    show _ + deadBand * (countOf (_ ++ [_]) s + _ : ℕ) ≤ deadBand * (st.sequence + 1 : ℕ)
    rw [rejected, countOf_snoc]
    have band := deadBand_nonneg
    -- one more order, and one more dead-band for it
    have one : ((if (newOrder g event symbolSeq idx (deltaQty event target st) st).symbol = s then 1 else 0 : ℕ) : ℚ) ≤ 1 := by
      split <;> norm_num
    have grown := mul_le_mul_of_nonneg_left one band
    push_cast at within grown ⊢
    linarith
  · rw [updateTarget_of_still g event idx move]
    exact h

end Target

/-! ## The event before its liquidation check -/

/-- The state of an event with its matured orders matched. -/
def matchedState (event : MarketEvent) (symbolSeq : List MarketEvent) (idx : ℕ) (g : Engine)
    (st : LoopState) : LoopState :=
  processMatured g event idx symbolSeq.length
    { st with lastPrice := st.lastPrice.set event.symbol event.close }

/-- The state in which an event of a run runs its liquidation check. -/
def atLiquidation (g : Engine) (st : LoopState) (event : MarketEvent) : Except PyError LoopState := do
  let symbolSeq ← getItem g.symbolEvents event.symbol
  let idx ← getItem g.eventIndex (event.symbol, event.ts)
  let targetQty ← targetQty g event
  pure (beforeLiquidation g event symbolSeq idx targetQty st)

/-- An event of a run accepts the cancel of a stale order. -/
def cancelsStale (g : Engine) (st : LoopState) (event : MarketEvent) : Except PyError Bool := do
  let symbolSeq ← getItem g.symbolEvents event.symbol
  let idx ← getItem g.eventIndex (event.symbol, event.ts)
  let targetQty ← targetQty g event
  pure (acceptsCancel g event targetQty (matchedState event symbolSeq idx g st))

/-- No event of a run accepts the cancel of a stale order. -/
def Engine.NeverCancels (g : Engine) (events : List MarketEvent) : Prop :=
  ∀ before event after st, events = before ++ event :: after → g.run before = .ok st →
    cancelsStale g st event = .ok false

/-- `NeverCancels`, checked along the run from a state. -/
def keepsStale (g : Engine) : LoopState → List MarketEvent → Bool
  | _, [] => true
  | st, event :: rest =>
    Run.endsIn (cancelsStale g st event) (fun accepted => !accepted) &&
      Run.endsIn (processEvent g st event) fun st => keepsStale g st rest

theorem Engine.neverCancels_of_check {g : Engine} {events : List MarketEvent}
    (check : keepsStale g g.start events = true) : g.NeverCancels events := by
  suffices general : ∀ (before : List MarketEvent) (events : List MarketEvent) (start : LoopState),
      keepsStale g start events = true → ∀ event after st, events = before ++ event :: after →
        before.foldlM (processEvent g) start = .ok st → cancelsStale g st event = .ok false by
    exact fun before event after st split run => general before events g.start check event after st split run
  intro before
  induction before with
  | nil =>
    rintro _ start check event after st rfl ⟨⟩
    obtain ⟨kept, -⟩ := Bool.and_eq_true_iff.mp check
    obtain ⟨accepted, same, rejected⟩ := Run.endsIn_iff.mp kept
    have none_ : accepted = false := by simpa using rejected
    rw [same, none_]
  | cons e before ih =>
    rintro _ start check event after st rfl run
    obtain ⟨-, later⟩ := Bool.and_eq_true_iff.mp check
    obtain ⟨t, step, check'⟩ := Run.endsIn_iff.mp later
    obtain ⟨t', step', run'⟩ := Run.foldlM_cons_ok.mp run
    have same : t' = t := Except.ok.inj (step'.symm.trans step)
    subst same
    exact ih _ t' check' event after st rfl run'

section Event
variable {g : Engine} {event : MarketEvent} {st st' : LoopState}

/-- A successful loop body is the liquidation check and the curve entry at the
state that reaches them. -/
theorem processEvent_atLiquidation :
    processEvent g st event = .ok st' ↔ ∃ reached, atLiquidation g st event = .ok reached ∧
      st' = recordEquity g event (checkLiquidation g event reached) := by
  rw [processEvent_ok]
  unfold atLiquidation
  simp only [Run.bind_ok, getItem_ok, pure, Except.pure, Except.ok.injEq]
  constructor
  · rintro ⟨symbolSeq, idx, target, seq, index, goal, rfl⟩
    exact ⟨_, ⟨symbolSeq, seq, idx, index, target, goal, rfl⟩, rfl⟩
  · rintro ⟨_, ⟨symbolSeq, seq, idx, index, target, goal, rfl⟩, rfl⟩
    exact ⟨symbolSeq, idx, target, seq, index, goal, rfl⟩

/-- Matching and, without an accepted cancel, moving the target keep the balance. -/
theorem atLiquidation_balanced {reached : LoopState} (h : Balanced st)
    (kept : cancelsStale g st event = .ok false) (at_ : atLiquidation g st event = .ok reached) :
    Balanced reached := by
  unfold atLiquidation at at_
  simp only [Run.bind_ok, getItem_ok, pure, Except.pure, Except.ok.injEq] at at_
  obtain ⟨symbolSeq, seq, idx, index, target, goal, rfl⟩ := at_
  unfold cancelsStale at kept
  simp only [Run.bind_ok, getItem_ok, pure, Except.pure, Except.ok.injEq, seq, index, goal,
    Option.some.injEq, exists_eq_left'] at kept
  have marked : Balanced { st with lastPrice := st.lastPrice.set event.symbol event.close } :=
    h.of_same rfl rfl rfl rfl
  have matched : Balanced (matchedState event symbolSeq idx g st) := by
    intro s
    have frame := processMatured_frame g event idx symbolSeq.length
      { st with lastPrice := st.lastPrice.set event.symbol event.close }
    unfold matchedState
    rw [frame.sequence]
    exact processMatured_within (marked s)
  exact (updateTarget_balanced matched kept).of_same rfl rfl rfl rfl

theorem atLiquidation_count {reached : LoopState} (at_ : atLiquidation g st event = .ok reached) :
    reached.liquidationCount = st.liquidationCount := by
  unfold atLiquidation at at_
  simp only [Run.bind_ok, getItem_ok, pure, Except.pure, Except.ok.injEq] at at_
  obtain ⟨symbolSeq, -, idx, -, target, -, rfl⟩ := at_
  exact (updateTarget_frame g event idx symbolSeq target _).liquidationCount.trans
    (processMatured_frame g event idx symbolSeq.length _).liquidationCount

/-- An event that leaves the liquidation count at zero did not liquidate. -/
theorem not_liquidated {reached : LoopState}
    (none_ : (recordEquity g event (checkLiquidation g event reached)).liquidationCount = 0) :
    reached.liquidationCount = 0 ∧ checkLiquidation g event reached = reached := by
  obtain ⟨regime, recorded⟩ := recordEquity_eq g event (checkLiquidation g event reached)
  rw [recorded] at none_
  change (checkLiquidation g event reached).liquidationCount = 0 at none_
  unfold checkLiquidation at none_ ⊢
  by_cases must : mustLiquidate g reached
  · rw [if_pos must, (liquidate_frame g event reached).liquidationCount] at none_
    cases none_
  · rw [if_neg must] at none_ ⊢
    exact ⟨none_, rfl⟩

/-- **Step lemma**: an event that neither accepts a cancel nor liquidates keeps
the balance. -/
theorem processEvent_balanced (h : st.liquidationCount = 0 → Balanced st)
    (kept : cancelsStale g st event = .ok false) (step : processEvent g st event = .ok st')
    (none_ : st'.liquidationCount = 0) : Balanced st' := by
  obtain ⟨reached, at_, rfl⟩ := processEvent_atLiquidation.mp step
  obtain ⟨count, same⟩ := not_liquidated none_
  have before : Balanced st := h (atLiquidation_count at_ ▸ count)
  obtain ⟨regime, recorded⟩ := recordEquity_eq g event (checkLiquidation g event reached)
  rw [recorded, same]
  exact (atLiquidation_balanced before kept at_).of_same rfl rfl rfl rfl

end Event

section Run
variable {args : BacktestArgs} {g : Engine}

theorem Engine.start_balanced (g : Engine) : Balanced g.start := by
  have zero (s : String) : (Py.Dict.ofKeys g.symbols fun _ => (0 : ℚ)).getD s 0 = 0 := by
    rw [Py.Dict.getD, Py.Dict.get?_ofKeys]
    split <;> rfl
  intro s
  show |(Py.Dict.ofKeys g.symbols fun _ => 0).getD s 0 -
    ((Py.Dict.ofKeys g.symbols fun _ => 0).getD s 0 + 0) - 0| + deadBand * (0 : ℕ) ≤ deadBand * (0 : ℕ)
  rw [zero]
  norm_num

/-- **Run lemma**: without an accepted cancel the book stays balanced up to the
first liquidation. -/
theorem Engine.NeverCancels.balanced {done : List MarketEvent} {st : LoopState}
    (kept : g.NeverCancels done) (run : g.run done = .ok st) (none_ : st.liquidationCount = 0) :
    Balanced st := by
  have invariant : g.run done = .ok st ∧ (st.liquidationCount = 0 → Balanced st) := by
    refine Run.invariant
      (P := fun before st => g.run before = .ok st ∧ (st.liquidationCount = 0 → Balanced st))
      ⟨rfl, fun _ => g.start_balanced⟩ ?_ (List.append_nil done).symm run
    rintro before event after t u split ⟨here, balanced⟩ step
    refine ⟨Run.foldlM_snoc_ok.mpr ⟨t, here, step⟩, fun none_ => ?_⟩
    exact processEvent_balanced balanced (kept before event after t split here) step none_
  exact invariant.2 none_

/-- **The book stays consistent with the targets** over every run that accepts
no cancel of a stale order, as long as nothing is liquidated: position and
pending orders of every symbol add up to its recorded target, within one
dead-band for each order generated. -/
theorem book_consistent (admitted : setUp args = .ok g) (configured : args.Configured)
    {done rest : List MarketEvent} (split : args.ordered = done ++ rest) (kept : g.NeverCancels done) :
    ∃ st, g.run done = .ok st ∧ (st.liquidationCount = 0 → ∀ s ∈ args.symbols,
      |st.symbolTargets.getD s 0 - (st.positions.getD s 0 + qtyOf st.pending s)| ≤ deadBand * st.sequence) := by
  obtain ⟨st, run⟩ := (setUp_ready admitted).run_total configured split
  exact ⟨st, run, fun none_ s _ => (kept.balanced run none_).gap_le s⟩

end Run

/-- A target that is reversed while its first order is in flight. -/
def reversal (cancelRejectProbability : ℚ) : BacktestArgs where
  events := (List.range 4).map fun i => ⟨"BTCUSDT", .m1, 100, 60000000 * i, "test"⟩
  strategyTargetQtyFns := .ofKeys ["BTCUSDT"] fun _ => .ofKeys ["flip"] fun _ e => if e.ts = 0 then 1 else 0
  config := { latencyBars := 2, baseFillRatio := 1, cancelRejectProbability }
  draws := fun _ => 1 / 2

theorem reversal_configured (p : ℚ) : (reversal p).Configured := by
  have known : ∀ e ∈ (reversal 0).events, e.symbol ∈ (reversal 0).symbols := by decide +kernel
  exact known

/-- With every cancel rejected the reversal keeps its book. -/
theorem book_consistent_rejected :
    ∃ g st, setUp (reversal 1) = .ok g ∧ g.run (reversal 1).ordered = .ok st ∧
      st.liquidationCount = 0 ∧ |st.gap "BTCUSDT"| ≤ deadBand * st.sequence := by
  obtain ⟨g, admitted, check⟩ := Run.endsIn_iff.mp (show Run.endsIn (setUp (reversal 1)) (fun g =>
    keepsStale g g.start (reversal 1).ordered &&
      Run.endsIn (g.run (reversal 1).ordered) fun st => st.liquidationCount = 0) = true by decide +kernel)
  obtain ⟨kept, ends⟩ := Bool.and_eq_true_iff.mp check
  obtain ⟨st, run, count⟩ := Run.endsIn_iff.mp ends
  obtain ⟨st', run', book⟩ := book_consistent admitted (reversal_configured 1)
    (List.append_nil (reversal 1).ordered).symm (g.neverCancels_of_check kept)
  have same : st' = st := Except.ok.inj (run'.symm.trans run)
  subst same
  have none_ : st'.liquidationCount = 0 := of_decide_eq_true count
  exact ⟨g, st', admitted, run, none_, book none_ "BTCUSDT" (by decide +kernel)⟩

/-- With the cancel accepted the reversal ends short against a target of zero. -/
theorem book_inconsistent_reversal :
    ∃ g st, setUp (reversal 0) = .ok g ∧ (reversal 0).Configured ∧ g.run (reversal 0).ordered = .ok st ∧
      st.liquidationCount = 0 ∧ "BTCUSDT" ∈ (reversal 0).symbols ∧ st.symbolTargets.getD "BTCUSDT" 0 = 0 ∧
      st.positions.getD "BTCUSDT" 0 = -1 ∧ st.pending = [] ∧
      deadBand * st.sequence < |st.symbolTargets.getD "BTCUSDT" 0 -
        (st.positions.getD "BTCUSDT" 0 + qtyOf st.pending "BTCUSDT")| := by
  obtain ⟨g, admitted, check⟩ := Run.endsIn_iff.mp (show Run.endsIn (setUp (reversal 0)) (fun g =>
    Run.endsIn (g.run (reversal 0).ordered) fun st => decide (st.liquidationCount = 0 ∧
      st.symbolTargets.getD "BTCUSDT" 0 = 0 ∧ st.positions.getD "BTCUSDT" 0 = -1 ∧ st.pending = [] ∧
      deadBand * st.sequence < |st.symbolTargets.getD "BTCUSDT" 0 -
        (st.positions.getD "BTCUSDT" 0 + qtyOf st.pending "BTCUSDT")|)) = true by decide +kernel)
  obtain ⟨st, run, values⟩ := Run.endsIn_iff.mp check
  obtain ⟨count, target, position, pending, off⟩ := of_decide_eq_true values
  exact ⟨g, st, admitted, reversal_configured 0, run, count, by decide +kernel, target, position, pending, off⟩

end CryptoQuant.Mvp11
