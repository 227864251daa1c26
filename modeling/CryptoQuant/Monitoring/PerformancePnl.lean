import CryptoQuant.Lib.Ledger
import CryptoQuant.Monitoring.Performance

/-!
# Realised and unrealised profit

The monitor keeps each symbol at an average entry price. What it has realised
and what the open positions are worth at their marks add up to the cash flow of
the fills: the quantity held at the mark less what the fills cost.
-/

namespace CryptoQuant.Performance
set_option autoImplicit false

open Ledger

/-! ## One position -/

namespace PositionState

/-- The position as an average-cost account with a realised profit. -/
def account (pos : PositionState) (realized : ℚ) : AvgCost ℚ := ⟨pos.qty, pos.avgEntryPrice, realized⟩

/-- The profit a fill realises. -/
def gain (pos : PositionState) (qty fillPrice : ℚ) : ℚ := if pos.Opens qty then 0 else pos.closePnl qty fillPrice

/-- A fill is one trade of the account. -/
theorem account_filled (pos : PositionState) (qty fillPrice realized : ℚ) :
    (pos.filled qty fillPrice).account (realized + pos.gain qty fillPrice) =
      (pos.account realized).trade qty fillPrice := by
  unfold filled gain
  by_cases opens : pos.Opens qty
  · rw [AvgCost.trade, if_pos (show (pos.account realized).Extends qty from opens)]
    simp only [if_pos opens, add_zero]
    rfl
  · rw [AvgCost.trade, if_neg (show ¬ (pos.account realized).Extends qty from opens)]
    simp only [if_neg opens]
    by_cases closed : (pos.account realized).qty + qty = 0
    · rw [if_pos (show pos.qty + qty = 0 from closed), if_pos closed, closed]
      rfl
    rw [if_neg (show ¬ pos.qty + qty = 0 from closed), if_neg closed]
    by_cases side : 0 < (pos.account realized).qty * ((pos.account realized).qty + qty)
    · rw [if_pos (show 0 < pos.qty * (pos.qty + qty) from side), if_pos side]
      rfl
    · rw [if_neg (show ¬ 0 < pos.qty * (pos.qty + qty) from side), if_neg side]
      rfl

end PositionState

/-! ## The fills of a run -/

/-- The fill an accepted call records: symbol, quantity and price. -/
def MonitorCall.fill? (c : MonitorCall) : Option (String × ℚ × ℚ) :=
  match c.method with
  | .recordFill symbol qty fillPrice _ _ => if c.method.Accepted then some (symbol, qty, fillPrice) else none
  | _ => none

/-- The fills of a run. -/
def fillsOf (calls : List MonitorCall) : List (String × ℚ × ℚ) := calls.filterMap MonitorCall.fill?

/-- Quantity and price of the fills of a symbol. -/
def tradesOf (symbol : String) (calls : List MonitorCall) : List (ℚ × ℚ) :=
  ((fillsOf calls).filter fun f => decide (f.1 = symbol)).map Prod.snd

/-- The account that the fills of a symbol make. -/
def accountOf (symbol : String) (calls : List MonitorCall) : AvgCost ℚ := AvgCost.flat.trades (tradesOf symbol calls)

section Fills
variable {symbol : String} {calls : List MonitorCall} {c : MonitorCall}

theorem fillsOf_snoc_none (none : c.fill? = none) : fillsOf (calls ++ [c]) = fillsOf calls := by
  simp [fillsOf, List.filterMap_append, none]

theorem fillsOf_snoc_some {f : String × ℚ × ℚ} (some : c.fill? = some f) :
    fillsOf (calls ++ [c]) = fillsOf calls ++ [f] := by
  simp [fillsOf, List.filterMap_append, some]

theorem accountOf_snoc_none (none : c.fill? = none) : accountOf symbol (calls ++ [c]) = accountOf symbol calls := by
  rw [accountOf, tradesOf, fillsOf_snoc_none none]
  rfl

theorem accountOf_snoc_self {t : ℚ × ℚ} (some : c.fill? = some (symbol, t)) :
    accountOf symbol (calls ++ [c]) = (accountOf symbol calls).trade t.1 t.2 := by
  rw [accountOf, tradesOf, fillsOf_snoc_some some, List.filter_append, List.map_append,
    List.filter_cons_of_pos (by simp), List.filter_nil, List.map_cons, List.map_nil, AvgCost.trades_snoc]
  rfl

theorem accountOf_snoc_ne {other : String} {t : ℚ × ℚ} (some : c.fill? = some (other, t)) (ne : symbol ≠ other) :
    accountOf symbol (calls ++ [c]) = accountOf symbol calls := by
  rw [accountOf, tradesOf, fillsOf_snoc_some some, List.filter_append,
    List.filter_cons_of_neg (by simpa using Ne.symm ne), List.filter_nil, List.append_nil]
  rfl

/-- A symbol without fills has an empty account. -/
theorem accountOf_unfilled (unfilled : ∀ f ∈ fillsOf calls, f.1 ≠ symbol) : accountOf symbol calls = AvgCost.flat := by
  have none : (fillsOf calls).filter (fun f => decide (f.1 = symbol)) = [] :=
    List.filter_eq_nil_iff.mpr fun f member => by simpa using unfilled f member
  rw [accountOf, tradesOf, none]
  rfl

/-- Only accepted fills are recorded. -/
theorem mem_tradesOf {t : ℚ × ℚ} (member : t ∈ tradesOf symbol calls) : t.1 ≠ 0 ∧ 0 < t.2 := by
  obtain ⟨f, among, rfl⟩ := List.mem_map.mp member
  obtain ⟨c, -, recorded⟩ := List.mem_filterMap.mp (List.mem_of_mem_filter among)
  unfold MonitorCall.fill? at recorded
  split at recorded
  · rename_i method
    split at recorded
    · rename_i accepted
      rw [method] at accepted
      cases recorded
      exact ⟨accepted.1, accepted.2.1⟩
    · cases recorded
  · cases recorded

end Fills

/-! ## The books of the monitor -/

namespace RealTimePerformanceMonitor

/-- The tracked position of a symbol. -/
def position (m : RealTimePerformanceMonitor) (symbol : String) : PositionState := m.positions.getD symbol {}

section Writes
variable (m : RealTimePerformanceMonitor) (symbol : String) (qty fillPrice fee slippageCost markPrice : ℚ) (s : String)

theorem positions_filled : (m.filled symbol qty fillPrice fee slippageCost).positions =
    m.positions.set symbol ((m.position symbol).filled qty fillPrice) := by
  unfold filled
  simp only
  split <;> rfl

theorem realizedPnl_filled : (m.filled symbol qty fillPrice fee slippageCost).realizedPnl =
    m.realizedPnl + (m.position symbol).gain qty fillPrice := by
  unfold filled PositionState.gain position
  simp only
  split
  · rw [add_zero]
  · rfl

/-- A fill moves the position of its own symbol. -/
theorem position_filled : (m.filled symbol qty fillPrice fee slippageCost).position s =
    if s = symbol then (m.position symbol).filled qty fillPrice else m.position s := by
  rw [position, positions_filled]
  exact Py.Dict.getD_set _ _ _ _ _

/-- A mark price marks the position of its own symbol. -/
theorem position_marked : (m.marked symbol markPrice).position s =
    if s = symbol then { m.position symbol with markPrice := some markPrice } else m.position s :=
  Py.Dict.getD_set _ _ _ _ _

end Writes

/-- The books hold the fills: every position is the account of its symbol, the
realised profit is the sum of theirs, and every filled symbol is listed. -/
structure Booked (calls : List MonitorCall) (m : RealTimePerformanceMonitor) : Prop where
  qty : ∀ symbol, (m.position symbol).qty = (accountOf symbol calls).qty
  avg : ∀ symbol, (m.position symbol).avgEntryPrice = (accountOf symbol calls).avg
  realized : m.realizedPnl = (m.positions.keys.map fun symbol => (accountOf symbol calls).realized).sum
  listed : ∀ f ∈ fillsOf calls, f.1 ∈ m.positions.keys

section Step
variable {m : RealTimePerformanceMonitor} {calls : List MonitorCall} {c : MonitorCall}

theorem Booked.account (booked : Booked calls m) (symbol : String) :
    accountOf symbol calls = (m.position symbol).account (accountOf symbol calls).realized := by
  unfold PositionState.account
  rw [booked.qty, booked.avg]

/-- A symbol the monitor does not list has no fills. -/
theorem Booked.unlisted (booked : Booked calls m) {symbol : String} (unlisted : symbol ∉ m.positions.keys) :
    accountOf symbol calls = AvgCost.flat :=
  accountOf_unfilled fun f member same => unlisted (same ▸ booked.listed f member)

theorem Booked.start : Booked [] {} where
  qty _ := rfl
  avg _ := rfl
  realized := rfl
  listed _ member := absurd member List.not_mem_nil

/-- Observing keeps the books. -/
theorem Booked.observed (booked : Booked calls m) : Booked calls m.observed :=
  ⟨booked.qty, booked.avg, booked.realized, booked.listed⟩

theorem Booked.of_no_fill (booked : Booked calls m) (none : c.fill? = none) : Booked (calls ++ [c]) m where
  qty symbol := by rw [accountOf_snoc_none none, booked.qty]
  avg symbol := by rw [accountOf_snoc_none none, booked.avg]
  realized := by simp only [accountOf_snoc_none none, booked.realized]
  listed := by rw [fillsOf_snoc_none none]; exact booked.listed

/-- A mark price keeps the books, also of a symbol that was not listed before. -/
theorem Booked.marked (booked : Booked calls m) (symbol : String) (markPrice : ℚ) :
    Booked calls (m.marked symbol markPrice) := by
  have account (s : String) : accountOf s calls =
      ((m.marked symbol markPrice).position s).account (accountOf s calls).realized := by
    rw [position_marked]
    by_cases own : s = symbol
    · rw [if_pos own, own]
      exact booked.account symbol
    · rw [if_neg own]
      exact booked.account s
  refine ⟨fun s => (congrArg AvgCost.qty (account s)).symm, fun s => (congrArg AvgCost.avg (account s)).symm, ?_,
    fun f member => ?_⟩
  · have sum : ((m.marked symbol markPrice).positions.keys.map fun s => (accountOf s calls).realized).sum =
        (m.positions.keys.map fun s => (accountOf s calls).realized).sum +
          ((accountOf symbol calls).realized - (accountOf symbol calls).realized) :=
      m.positions.sum_keys_set _ (fun _ _ => rfl) fun unlisted => by rw [booked.unlisted unlisted]; rfl
    rw [sub_self, add_zero] at sum
    exact booked.realized.trans sum.symm
  · exact Py.Dict.mem_keys_set.mpr (.inr (booked.listed f member))

/-- **A fill** is one trade of the account of its symbol. -/
theorem Booked.filled (booked : Booked calls m) {symbol : String} {qty fillPrice fee slippageCost : ℚ}
    (recorded : c.fill? = some (symbol, qty, fillPrice)) :
    Booked (calls ++ [c]) (m.filled symbol qty fillPrice fee slippageCost) := by
  have traded : accountOf symbol (calls ++ [c]) = ((m.position symbol).filled qty fillPrice).account
      ((accountOf symbol calls).realized + (m.position symbol).gain qty fillPrice) := by
    rw [accountOf_snoc_self recorded, PositionState.account_filled, ← booked.account]
  have account (s : String) : accountOf s (calls ++ [c]) =
      ((m.filled symbol qty fillPrice fee slippageCost).position s).account (accountOf s (calls ++ [c])).realized := by
    rw [position_filled]
    by_cases own : s = symbol
    · rw [if_pos own, own, traded]
      rfl
    · rw [if_neg own, accountOf_snoc_ne recorded own]
      exact booked.account s
  refine ⟨fun s => (congrArg AvgCost.qty (account s)).symm, fun s => (congrArg AvgCost.avg (account s)).symm, ?_,
    fun f member => ?_⟩
  · have sum : ((m.positions.set symbol ((m.position symbol).filled qty fillPrice)).keys.map fun s =>
          (accountOf s (calls ++ [c])).realized).sum =
        (m.positions.keys.map fun s => (accountOf s calls).realized).sum +
          ((accountOf symbol (calls ++ [c])).realized - (accountOf symbol calls).realized) :=
      m.positions.sum_keys_set _ (fun s other => by rw [accountOf_snoc_ne recorded other])
        fun unlisted => by rw [booked.unlisted unlisted]; rfl
    have gained : (accountOf symbol (calls ++ [c])).realized - (accountOf symbol calls).realized =
        (m.position symbol).gain qty fillPrice := by
      rw [traded]
      exact add_sub_cancel_left _ _
    rw [realizedPnl_filled, positions_filled, sum, gained, booked.realized]
  · rw [positions_filled]
    rw [fillsOf_snoc_some recorded] at member
    rcases List.mem_append.mp member with earlier | here
    · exact Py.Dict.mem_keys_set.mpr (.inr (booked.listed f earlier))
    · rw [List.mem_singleton.mp here]
      exact Py.Dict.mem_keys_set.mpr (.inl rfl)

/-- Every call keeps the books. -/
theorem Booked.next (booked : Booked calls m) (c : MonitorCall) : Booked (calls ++ [c]) (machine.next m c) := by
  rw [next_eq]
  obtain ⟨method, ts, now⟩ := c
  split
  · rename_i accepted
    refine Booked.observed ?_
    cases method with
    | recordFill symbol qty fillPrice fee slippageCost => exact booked.filled (if_pos accepted)
    | recordMarkPrice symbol markPrice => exact (booked.marked symbol markPrice).of_no_fill rfl
    | snapshot => exact booked.of_no_fill rfl
  · rename_i refused
    refine booked.of_no_fill ?_
    cases method with
    | recordFill symbol qty fillPrice fee slippageCost => exact if_neg refused
    | _ => rfl

theorem booked_after (calls : List MonitorCall) : Booked calls (machine.after {} calls) := by
  refine machine.invariant (P := Booked) .start ?_ (List.append_nil calls).symm
  rintro done c rest m - - booked
  exact booked.next c

end Step

end RealTimePerformanceMonitor

/-! ## Snapshots -/

/-- The snapshot reconciles with the calls before it: it lists every filled
symbol with the sum of its fills, and an average price exactly while that is not
zero; and once every open position is marked, the realised and the unrealised
profit are the positions at their marks less what the fills cost. -/
structure Reconciles (calls : List MonitorCall) (snapshot : PerformanceSnapshot) : Prop where
  listed : ∀ f ∈ fillsOf calls, f.1 ∈ snapshot.bySymbol.keys
  qty : ∀ symbol p, snapshot.bySymbol.get? symbol = some p → p.qty = ((tradesOf symbol calls).map Prod.fst).sum
  avg : ∀ symbol p, snapshot.bySymbol.get? symbol = some p → (p.avgEntryPrice = 0 ↔ p.qty = 0)
  pnl : (∀ symbol p, snapshot.bySymbol.get? symbol = some p → p.qty ≠ 0 → p.markPrice ≠ none) →
    snapshot.realizedPnl + snapshot.unrealizedPnl = (snapshot.bySymbol.items.map fun (symbol, p) =>
      p.qty * p.markPrice.getD 0 - ((tradesOf symbol calls).map fun t => t.1 * t.2).sum).sum

namespace RealTimePerformanceMonitor

section Snapshot
variable {m : RealTimePerformanceMonitor} {calls : List MonitorCall}

/-- The realised profit of a symbol and the unrealised one of its position. -/
theorem Booked.worth (booked : Booked calls m) (symbol : String)
    (marked : (m.position symbol).qty ≠ 0 → (m.position symbol).markPrice ≠ none) :
    (accountOf symbol calls).realized + (m.position symbol).unrealized =
      (m.position symbol).qty * (m.position symbol).markPrice.getD 0 -
        ((tradesOf symbol calls).map fun t => t.1 * t.2).sum := by
  have cash := AvgCost.worth_trades (tradesOf symbol calls) (fun t member => (mem_tradesOf member).1) AvgCost.flat
    ((m.position symbol).markPrice.getD 0)
  have quantity : (m.position symbol).qty = ((tradesOf symbol calls).map Prod.fst).sum := by
    rw [booked.qty, accountOf, AvgCost.qty_trades]
    exact zero_add _
  have flat : (AvgCost.flat : AvgCost ℚ).worth ((m.position symbol).markPrice.getD 0) = 0 := by
    simp [AvgCost.worth, AvgCost.flat]
  rw [flat, zero_add, ← quantity] at cash
  rw [← cash, ← accountOf]
  unfold AvgCost.worth PositionState.unrealized
  rw [← booked.qty, ← booked.avg]
  cases mark : (m.position symbol).markPrice with
  | none =>
    have ended : (m.position symbol).qty = 0 := by_contra fun held => marked held mark
    simp [ended]
  | some markPrice =>
    by_cases ended : (m.position symbol).qty = 0
    · simp [ended]
    · simp [ended]

theorem position_of_get? {symbol : String} {pos : PositionState} (held : m.positions.get? symbol = some pos) :
    m.position symbol = pos := by
  rw [position, Py.Dict.getD, held]
  rfl

/-- `by_symbol` lists the tracked positions. -/
theorem bySymbol_read (m : RealTimePerformanceMonitor) (ts : DateTime) (symbol : String) :
    (m.read ts).bySymbol.get? symbol = (m.positions.get? symbol).map (PositionState.performance symbol) :=
  Py.Dict.get?_mapValues _ _ _

theorem Booked.reconciles (booked : Booked calls m) (ts : DateTime) : Reconciles calls (m.read ts) := by
  -- An entry of `by_symbol` shows the tracked position of its symbol.
  have shown (symbol : String) (p : PositionPerformance) (found : (m.read ts).bySymbol.get? symbol = some p) :
      p = (m.position symbol).performance symbol := by
    rw [bySymbol_read] at found
    obtain ⟨pos, held, rfl⟩ := Option.map_eq_some_iff.mp found
    rw [position_of_get? held]
  refine ⟨fun f member => ?_, fun symbol p found => ?_, fun symbol p found => ?_, fun marked => ?_⟩
  · show f.1 ∈ (m.positions.mapValues _).keys
    rw [Py.Dict.keys_mapValues]
    exact booked.listed f member
  · rw [shown symbol p found]
    show (m.position symbol).qty = _
    rw [booked.qty, accountOf, AvgCost.qty_trades]
    exact zero_add _
  · rw [shown symbol p found]
    show (m.position symbol).avgEntryPrice = 0 ↔ (m.position symbol).qty = 0
    rw [booked.avg, booked.qty]
    exact (AvgCost.priced_flat.trades (fun t member => (mem_tradesOf member).1)
      fun t member => (mem_tradesOf member).2).avg_eq_zero_iff
  · show m.realizedPnl + m.unrealized = ((m.positions.items.map _).map _).sum
    have items : m.positions.keys.map (fun symbol => (accountOf symbol calls).realized) =
        m.positions.items.map fun p => (accountOf p.1 calls).realized := List.map_map
    have values : m.unrealized = (m.positions.items.map fun p => p.2.unrealized).sum :=
      congrArg List.sum List.map_map
    rw [booked.realized, items, values, ← List.sum_map_add, List.map_map]
    refine congrArg List.sum (List.map_congr_left fun item member => ?_)
    obtain ⟨symbol, pos⟩ := item
    have held : m.positions.get? symbol = some pos := Py.Dict.get?_of_mem member
    have tracked : m.position symbol = pos := position_of_get? held
    have entry : (m.read ts).bySymbol.get? symbol = some (pos.performance symbol) := by
      rw [bySymbol_read, held]
      rfl
    have worth := booked.worth symbol (by rw [tracked]; exact marked symbol _ entry)
    rw [tracked] at worth
    exact worth

end Snapshot

/-- **Realised plus unrealised profit is cash flow**, in every snapshot that a
run of the monitor returns. -/
theorem realized_plus_unrealized (calls : List MonitorCall) (c : MonitorCall) {snapshot : PerformanceSnapshot}
    (answered : machine.answer (machine.after {} calls) c = .ok snapshot) : Reconciles (calls ++ [c]) snapshot := by
  obtain ⟨-, rfl⟩ := answer_ok answered
  exact ((booked_after calls).next c).reconciles _

/-- Three bought at 10 and one sold at 16, marked at 12. -/
theorem realized_plus_unrealized_partial_close :
    ∃ snapshot, machine.answer (machine.after {} [⟨.recordFill "BTCUSDT" 3 10 0 0, none, 0⟩,
        ⟨.recordFill "BTCUSDT" (-1) 16 0 0, none, 0⟩]) ⟨.recordMarkPrice "BTCUSDT" 12, none, 0⟩ = .ok snapshot ∧
      Reconciles [⟨.recordFill "BTCUSDT" 3 10 0 0, none, 0⟩, ⟨.recordFill "BTCUSDT" (-1) 16 0 0, none, 0⟩,
        ⟨.recordMarkPrice "BTCUSDT" 12, none, 0⟩] snapshot := by
  have accepted : (Method.recordMarkPrice "BTCUSDT" 12).Accepted := by decide +kernel
  have answered := congrArg Prod.fst (call_accepted
    (m := machine.after {} [⟨.recordFill "BTCUSDT" 3 10 0 0, none, 0⟩, ⟨.recordFill "BTCUSDT" (-1) 16 0 0, none, 0⟩])
    (c := ⟨.recordMarkPrice "BTCUSDT" 12, none, 0⟩) accepted)
  exact ⟨_, answered, realized_plus_unrealized _ _ answered⟩

end RealTimePerformanceMonitor

end CryptoQuant.Performance
