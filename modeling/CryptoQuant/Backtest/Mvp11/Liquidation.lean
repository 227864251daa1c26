import CryptoQuant.Backtest.Mvp11.Book

/-!
# Liquidation and the order book

The liquidation branch closes every position above the dead-band and leaves the
recorded targets and the pending orders as they are. So each gap grows by the
quantity closed: the book is consistent afterwards exactly when the targets did
not count the closed positions before.
-/

namespace CryptoQuant.Mvp11
set_option autoImplicit false

/-- What a liquidation leaves of a position. -/
def LoopState.dust (st : LoopState) (s : String) : ℚ :=
  if |st.positions.getD s 0| ≤ deadBand then st.positions.getD s 0 else 0

/-- What a liquidation closes of a position. -/
def LoopState.closedQty (st : LoopState) (s : String) : ℚ :=
  if |st.positions.getD s 0| ≤ deadBand then 0 else st.positions.getD s 0

theorem LoopState.dust_le (st : LoopState) (s : String) : |st.dust s| ≤ deadBand := by
  unfold dust
  split
  · assumption
  · rw [abs_zero]
    exact deadBand_nonneg

theorem LoopState.dust_add_closedQty (st : LoopState) (s : String) :
    st.dust s + st.closedQty s = st.positions.getD s 0 := by
  unfold dust closedQty
  split
  · exact add_zero _
  · exact zero_add _

section Close
variable (g : Engine) (event : MarketEvent)

/-- Liquidating a symbol leaves its dust and every other position. -/
theorem liquidateSymbol_position (st : LoopState) (symbol s : String) :
    (liquidateSymbol g event st symbol).positions.getD s 0 =
      if s = symbol then st.dust s else st.positions.getD s 0 := by
  rcases liquidateSymbol_cases g event st symbol with ⟨small, same⟩ | ⟨large, fill, -, -, -, closed⟩
  · rw [same]
    by_cases own : s = symbol
    · rw [if_pos own, LoopState.dust, own, if_pos small]
    · rw [if_neg own]
  · rw [closed]
    show (st.positions.set symbol 0).getD s 0 = _
    rw [Py.Dict.getD_set]
    by_cases own : s = symbol
    · rw [if_pos own, if_pos own, LoopState.dust, own, if_neg (not_le.mpr large)]
    · rw [if_neg own, if_neg own]

/-- Liquidating distinct symbols leaves the dust of each of them. -/
theorem liquidateSymbols_position {symbols : List String} (distinct : symbols.Nodup) (st : LoopState)
    (s : String) :
    (symbols.foldl (liquidateSymbol g event) st).positions.getD s 0 =
      if s ∈ symbols then st.dust s else st.positions.getD s 0 := by
  induction symbols generalizing st with
  | nil => rw [if_neg List.not_mem_nil]; rfl
  | cons symbol symbols ih =>
    obtain ⟨fresh, distinct⟩ := List.nodup_cons.mp distinct
    have head := liquidateSymbol_position g event st symbol s
    rw [List.foldl_cons, ih distinct]
    by_cases here : s = symbol
    · rw [here] at head ⊢
      rw [if_neg fresh, if_pos List.mem_cons_self, head, if_pos rfl]
    · rw [if_neg here] at head
      by_cases later : s ∈ symbols
      · rw [if_pos later, if_pos (List.mem_cons_of_mem _ later), LoopState.dust, LoopState.dust, head]
      · have absent : s ∉ symbol :: symbols := by
          rw [List.mem_cons]
          exact fun h => h.elim here later
        rw [if_neg later, if_neg absent, head]

/-- **What a liquidation does to the book**: the gap of every symbol grows by
the quantity closed. -/
theorem liquidate_gap (distinct : g.symbols.Nodup) (st : LoopState) {s : String} (member : s ∈ g.symbols) :
    (liquidate g event st).positions.getD s 0 = st.dust s ∧
      (liquidate g event st).gap s = st.gap s + st.closedQty s := by
  have frame := liquidate_frame g event st
  have left : (liquidate g event st).positions.getD s 0 = st.dust s := by
    unfold liquidate
    rw [liquidateSymbols_position g event distinct, if_pos member]
    rfl
  refine ⟨left, ?_⟩
  unfold LoopState.gap
  rw [left, frame.symbolTargets, frame.pending]
  have parts := st.dust_add_closedQty s
  show st.symbolTargets.getD s 0 - (st.dust s + qtyOf st.pending s) = _
  rw [← parts]
  ring

end Close

section Run
variable {args : BacktestArgs} {g : Engine}

/-- **When a liquidation leaves the book consistent**: exactly when, right
before it, the recorded target of every symbol is already its pending quantity
and the dust of its position. On a run that has accepted no cancel and not
liquidated before, it is off by the quantity closed. -/
theorem liquidation_book (admitted : setUp args = .ok g) {before : List MarketEvent} {event : MarketEvent}
    {st reached : LoopState} (run : g.run before = .ok st) (at_ : atLiquidation g st event = .ok reached)
    (must : mustLiquidate g reached = true) :
    ∃ st', g.run (before ++ [event]) = .ok st' ∧
      (∀ s ∈ args.symbols, |st'.positions.getD s 0| ≤ deadBand) ∧
      (∀ tolerance, (∀ s ∈ args.symbols,
          |st'.symbolTargets.getD s 0 - (st'.positions.getD s 0 + qtyOf st'.pending s)| ≤ tolerance) ↔
        ∀ s ∈ args.symbols,
          |reached.symbolTargets.getD s 0 - (reached.dust s + qtyOf reached.pending s)| ≤ tolerance) ∧
      (g.NeverCancels (before ++ [event]) → st.liquidationCount = 0 → ∀ s ∈ args.symbols,
        |reached.closedQty s| - deadBand * reached.sequence ≤
          |st'.symbolTargets.getD s 0 - (st'.positions.getD s 0 + qtyOf st'.pending s)|) := by
  have ready := setUp_ready admitted
  have distinct : g.symbols.Nodup := ready.symbols ▸ args.nodup_symbols
  obtain ⟨regime, recorded⟩ := recordEquity_eq g event (checkLiquidation g event reached)
  have liquidated : checkLiquidation g event reached = liquidate g event reached := if_pos must
  rw [liquidated] at recorded
  have closed (s : String) (member : s ∈ args.symbols) :=
    liquidate_gap g event distinct reached (ready.symbols ▸ member)
  refine ⟨recordEquity g event (checkLiquidation g event reached),
    Run.foldlM_snoc_ok.mpr ⟨st, run, processEvent_atLiquidation.mpr ⟨reached, at_, rfl⟩⟩, ?_, ?_, ?_⟩ <;>
    rw [liquidated, recorded]
  · intro s member
    show |(liquidate g event reached).positions.getD s 0| ≤ deadBand
    rw [(closed s member).1]
    exact reached.dust_le s
  · intro tolerance
    refine forall_congr' fun s => forall_congr' fun member => ?_
    have same : (liquidate g event reached).gap s =
        reached.symbolTargets.getD s 0 - (reached.dust s + qtyOf reached.pending s) := by
      rw [(closed s member).2, LoopState.gap, ← reached.dust_add_closedQty s]
      ring
    exact iff_of_eq (congrArg (|·| ≤ tolerance) same)
  · intro kept none_ s member
    have balanced : Balanced st :=
      Engine.NeverCancels.balanced (fun b e a t split => kept b e (a ++ [event]) t (by rw [split]; simp)) run none_
    have rejected : cancelsStale g st event = .ok false := kept before event [] st rfl run
    have small := (atLiquidation_balanced balanced rejected at_).gap_le s
    have off := (closed s member).2
    show _ ≤ |(liquidate g event reached).gap s|
    rw [off]
    have triangle := abs_sub_abs_le_abs_sub (reached.closedQty s) (-reached.gap s)
    rw [abs_neg, sub_neg_eq_add, add_comm (reached.closedQty s)] at triangle
    linarith

end Run

/-- A long position that a crash liquidates, with the strategy out of the market
only afterwards. -/
def crash : BacktestArgs where
  events := [(100, 0), (100, 1), (60, 2), (10, 3), (10, 4)].map fun (close, minute) =>
    ⟨"BTCUSDT", .m1, close, 60000000 * minute, "test"⟩
  strategyTargetQtyFns := .ofKeys ["BTCUSDT"] fun _ => .ofKeys ["long"] fun _ e => if e.ts < 180000000 then 20 else 0
  config := { feeBps := 0, slippageBps := 0, impactBps := 0, liquidityShortageBps := 0, initialEquity := 1000,
              baseFillRatio := 1, defaultDepthNotional := 1000000 }
  draws := fun _ => 1 / 2

/-- The liquidation at the third event of the crash, by the theorem: the target
still counts the twenty closed. -/
theorem liquidation_book_crash :
    ∃ (g : Engine) (st reached st' : LoopState), setUp crash = .ok g ∧ g.run (crash.ordered.take 2) = .ok st ∧
      g.run (crash.ordered.take 2 ++ [⟨"BTCUSDT", .m1, 60, 120000000, "test"⟩]) = .ok st' ∧
      reached.closedQty "BTCUSDT" = 20 ∧ |st'.positions.getD "BTCUSDT" 0| ≤ deadBand ∧
      20 - deadBand * reached.sequence ≤ |st'.gap "BTCUSDT"| := by
  let event : MarketEvent := ⟨"BTCUSDT", .m1, 60, 120000000, "test"⟩
  obtain ⟨g, admitted, check⟩ := Run.endsIn_iff.mp (show Run.endsIn (setUp crash) (fun g =>
    keepsStale g g.start (crash.ordered.take 2 ++ [event]) &&
      Run.endsIn (g.run (crash.ordered.take 2)) fun st => decide (st.liquidationCount = 0) &&
        Run.endsIn (atLiquidation g st event) fun reached =>
          mustLiquidate g reached && decide (reached.closedQty "BTCUSDT" = 20)) = true by decide +kernel)
  obtain ⟨kept, ends⟩ := Bool.and_eq_true_iff.mp check
  obtain ⟨st, run, check⟩ := Run.endsIn_iff.mp ends
  obtain ⟨count, check⟩ := Bool.and_eq_true_iff.mp check
  obtain ⟨reached, at_, check⟩ := Run.endsIn_iff.mp check
  obtain ⟨must, closed⟩ := Bool.and_eq_true_iff.mp check
  have twenty : reached.closedQty "BTCUSDT" = 20 := of_decide_eq_true closed
  have member : "BTCUSDT" ∈ crash.symbols := by decide +kernel
  obtain ⟨st', run', flat, -, off⟩ := liquidation_book admitted run at_ must
  have far := off (g.neverCancels_of_check kept) (of_decide_eq_true count) "BTCUSDT" member
  rw [twenty, abs_of_pos (by norm_num : (0 : ℚ) < 20)] at far
  exact ⟨g, st, reached, st', admitted, run, run', twenty, flat "BTCUSDT" member, far⟩

/-- Right after the liquidation the crash is flat with a target of twenty, and
when its strategy leaves the market it ends twenty short. -/
theorem liquidation_inconsistent_crash :
    ∃ g st last, setUp crash = .ok g ∧ crash.Configured ∧ g.run (crash.ordered.take 3) = .ok st ∧
      st.liquidationCount = 1 ∧ st.positions.getD "BTCUSDT" 0 = 0 ∧ st.pending = [] ∧
      st.symbolTargets.getD "BTCUSDT" 0 = 20 ∧ g.run crash.ordered = .ok last ∧
      last.symbolTargets.getD "BTCUSDT" 0 = 0 ∧ last.positions.getD "BTCUSDT" 0 = -20 := by
  obtain ⟨g, admitted, check⟩ := Run.endsIn_iff.mp (show Run.endsIn (setUp crash) (fun g =>
    Run.endsIn (g.run (crash.ordered.take 3)) (fun st => decide (st.liquidationCount = 1 ∧
      st.positions.getD "BTCUSDT" 0 = 0 ∧ st.pending = [] ∧ st.symbolTargets.getD "BTCUSDT" 0 = 20)) &&
    Run.endsIn (g.run crash.ordered) (fun last => decide (last.symbolTargets.getD "BTCUSDT" 0 = 0 ∧
      last.positions.getD "BTCUSDT" 0 = -20))) = true by decide +kernel)
  obtain ⟨first, second⟩ := Bool.and_eq_true_iff.mp check
  obtain ⟨st, run, values⟩ := Run.endsIn_iff.mp first
  obtain ⟨last, run', values'⟩ := Run.endsIn_iff.mp second
  obtain ⟨count, position, pending, target⟩ := of_decide_eq_true values
  obtain ⟨target', position'⟩ := of_decide_eq_true values'
  have configured : crash.Configured := by
    unfold BacktestArgs.Configured
    decide +kernel
  exact ⟨g, st, last, admitted, configured, run, count, position, pending, target, run', target', position'⟩

end CryptoQuant.Mvp11
