import Mathlib.Algebra.Order.Field.Basic
import Mathlib.Algebra.BigOperators.Group.List.Basic
import Mathlib.Tactic.Linarith
import Mathlib.Tactic.LinearCombination
import Mathlib.Tactic.FieldSimp
import Mathlib.Tactic.Ring

/-!
# Trades, cash accounting and average-cost accounting

Two ways to value a list of trades. Cash accounting adds up what the trades
paid and marks the remaining position to a price; average-cost accounting keeps
an average entry price and realises a profit whenever a trade closes part of the
position. `AvgCost.worth_trades` says that they agree at every mark price.
-/

namespace Ledger
set_option autoImplicit false

section Cash
variable {κ K : Type} [Field K]

/-- One execution: a signed quantity of an instrument at a price, and a fee. -/
structure Trade (κ K : Type) where
  instrument : κ
  qty : K
  price : K
  fee : K

/-- What the trades paid: the price of each quantity and each fee. -/
def spent (ts : List (Trade κ K)) : K := (ts.map fun t => t.qty * t.price + t.fee).sum

theorem spent_append (ts us : List (Trade κ K)) : spent (ts ++ us) = spent ts + spent us := by
  simp only [spent, List.map_append, List.sum_append]

theorem spent_snoc (ts : List (Trade κ K)) (t : Trade κ K) :
    spent (ts ++ [t]) = spent ts + (t.qty * t.price + t.fee) := by
  rw [spent_append]
  simp only [spent, List.map_cons, List.map_nil, List.sum_cons, List.sum_nil, add_zero]

variable [DecidableEq κ]

/-- The quantity held after the trades. -/
def position (ts : List (Trade κ K)) (k : κ) : K :=
  (ts.map fun t => if t.instrument = k then t.qty else 0).sum

theorem position_append (ts us : List (Trade κ K)) (k : κ) :
    position (ts ++ us) k = position ts k + position us k := by
  simp only [position, List.map_append, List.sum_append]

/-- One more trade moves only the position of its own instrument. -/
theorem position_snoc (ts : List (Trade κ K)) (t : Trade κ K) (k : κ) :
    position (ts ++ [t]) k = if t.instrument = k then position ts k + t.qty else position ts k := by
  rw [position_append]
  simp only [position, List.map_cons, List.map_nil, List.sum_cons, List.sum_nil, add_zero]
  split <;> simp only [add_zero]

end Cash

section AverageCost
variable {K : Type} [Field K] [LinearOrder K]

/-- A position at its average entry price, with the profit realised so far. -/
structure AvgCost (K : Type) where
  qty : K
  avg : K
  realized : K

namespace AvgCost

/-- No position, nothing realised. -/
def flat : AvgCost K := ⟨0, 0, 0⟩

/-- The trade opens or adds to the position. -/
def Extends (b : AvgCost K) (q : K) : Prop := b.qty = 0 ∨ 0 < b.qty * q

instance (b : AvgCost K) (q : K) : Decidable (b.Extends q) := inferInstanceAs (Decidable (_ ∨ _))

/-- The profit a closing trade realises. -/
def closePnl (b : AvgCost K) (q p : K) : K :=
  min |b.qty| |q| * (p - b.avg) * (if 0 < b.qty then 1 else -1)

/-- One trade: an extending one averages its price in, a closing one realises
its profit and keeps the average, or restarts it at its own price on a flip. -/
def trade (b : AvgCost K) (q p : K) : AvgCost K :=
  if b.Extends q then
    ⟨b.qty + q, (|b.qty| * b.avg + |q| * p) / |b.qty + q|, b.realized⟩
  else
    ⟨b.qty + q,
      if b.qty + q = 0 then 0 else if 0 < b.qty * (b.qty + q) then b.avg else p,
      b.realized + b.closePnl q p⟩

/-- Realised profit plus the open position at mark price `m`. -/
def worth (b : AvgCost K) (m : K) : K := b.realized + b.qty * (m - b.avg)

/-- A list of quantities and prices traded in order. -/
def trades (b : AvgCost K) (ts : List (K × K)) : AvgCost K := ts.foldl (fun b t => b.trade t.1 t.2) b

theorem trades_snoc (b : AvgCost K) (ts : List (K × K)) (t : K × K) :
    b.trades (ts ++ [t]) = (b.trades ts).trade t.1 t.2 :=
  List.foldl_append

@[simp] theorem qty_trade (b : AvgCost K) (q p : K) : (b.trade q p).qty = b.qty + q := by
  unfold trade
  split <;> rfl

theorem qty_trades (b : AvgCost K) (ts : List (K × K)) : (b.trades ts).qty = b.qty + (ts.map Prod.fst).sum := by
  induction ts generalizing b with
  | nil => simp [trades]
  | cons t ts ih =>
    have tail := ih (b.trade t.1 t.2)
    rw [qty_trade] at tail
    rw [List.map_cons, List.sum_cons, ← add_assoc, ← tail]
    rfl

/-- The average price is zero without a position and positive with one. -/
structure Priced (b : AvgCost K) : Prop where
  flat : b.qty = 0 → b.avg = 0
  open_ : b.qty ≠ 0 → 0 < b.avg

theorem Priced.avg_eq_zero_iff {b : AvgCost K} (priced : b.Priced) : b.avg = 0 ↔ b.qty = 0 :=
  ⟨fun zero => by_contra fun held => (priced.open_ held).ne' zero, priced.flat⟩

theorem priced_flat : (flat : AvgCost K).Priced := ⟨fun _ => rfl, fun held => absurd rfl held⟩

variable [IsStrictOrderedRing K]

/-- Adding to a position on its own side does not end it. -/
theorem extend_ne_zero {o q : K} (h : o = 0 ∨ 0 < o * q) (hq : q ≠ 0) : o + q ≠ 0 := by
  rcases h with rfl | same
  · rwa [zero_add]
  · rcases pos_and_pos_or_neg_and_neg_of_mul_pos same with ⟨ho, hq⟩ | ⟨ho, hq⟩
    · exact (add_pos ho hq).ne'
    · exact (add_neg ho hq).ne

/-- A trade at a positive price keeps the average price positive. -/
theorem Priced.trade {b : AvgCost K} (priced : b.Priced) {q p : K} (hq : q ≠ 0) (hp : 0 < p) :
    (b.trade q p).Priced := by
  unfold AvgCost.trade
  by_cases ext : b.Extends q
  · rw [if_pos ext]
    have held : b.qty + q ≠ 0 := extend_ne_zero ext hq
    refine ⟨fun ended => absurd ended held, fun _ => ?_⟩
    have before : 0 ≤ |b.qty| * b.avg := by
      by_cases flat : b.qty = 0
      · rw [flat, abs_zero, zero_mul]
      · exact mul_nonneg (abs_nonneg _) (priced.open_ flat).le
    have added : 0 < |q| * p := mul_pos (abs_pos.mpr hq) hp
    exact div_pos (add_pos_of_nonneg_of_pos before added) (abs_pos.mpr held)
  · rw [if_neg ext]
    refine ⟨fun ended => if_pos ended, fun held => ?_⟩
    simp only at held ⊢
    rw [if_neg held]
    split
    · exact priced.open_ fun flat => ext (.inl flat)
    · exact hp

theorem Priced.trades {b : AvgCost K} (priced : b.Priced) {ts : List (K × K)} (nonzero : ∀ t ∈ ts, t.1 ≠ 0)
    (positive : ∀ t ∈ ts, 0 < t.2) : (b.trades ts).Priced := by
  induction ts generalizing b with
  | nil => exact priced
  | cons t ts ih =>
    exact ih (priced.trade (nonzero t List.mem_cons_self) (positive t List.mem_cons_self))
      (fun u later => nonzero u (List.mem_cons_of_mem _ later)) fun u later => positive u (List.mem_cons_of_mem _ later)

/-- Cost at the new average of an extended position. -/
theorem extend_cost {o q a p : K} (h : o = 0 ∨ 0 < o * q) (hq : q ≠ 0) :
    (o + q) * ((|o| * a + |q| * p) / |o + q|) = o * a + q * p := by
  rcases h with rfl | same
  · have pos : |q| ≠ 0 := abs_ne_zero.mpr hq
    simp only [abs_zero, zero_mul, zero_add]
    rw [mul_div_cancel_left₀ _ pos]
  · rcases pos_and_pos_or_neg_and_neg_of_mul_pos same with ⟨ho, hq⟩ | ⟨ho, hq⟩
    · have sum : 0 < o + q := add_pos ho hq
      rw [abs_of_pos ho, abs_of_pos hq, abs_of_pos sum, mul_div_cancel₀ _ sum.ne']
    · have sum : o + q < 0 := add_neg ho hq
      rw [abs_of_neg ho, abs_of_neg hq, abs_of_neg sum]
      have nonzero : o + q ≠ 0 := sum.ne
      field_simp
      ring

/-- The profit of a closing trade, by which side is exhausted first. -/
theorem closePnl_eq (b : AvgCost K) {q p : K} (h : ¬ b.Extends q) :
    b.closePnl q p = if |q| ≤ |b.qty| then -q * (p - b.avg) else b.qty * (p - b.avg) := by
  simp only [Extends, not_or, not_lt] at h
  obtain ⟨open_, opposite⟩ := h
  unfold closePnl
  rcases lt_or_gt_of_ne open_ with short | long
  · have hq : 0 ≤ q := by
      by_contra neg
      exact absurd opposite (not_le.mpr (mul_pos_of_neg_of_neg short (not_le.mp neg)))
    rw [if_neg (not_lt.mpr short.le), abs_of_neg short, abs_of_nonneg hq]
    split
    · rename_i small
      rw [min_eq_right small]; ring
    · rename_i big
      rw [min_eq_left (not_le.mp big).le]; ring
  · have hq : q ≤ 0 := by
      by_contra pos
      exact absurd opposite (not_le.mpr (mul_pos long (not_le.mp pos)))
    rw [if_pos long, abs_of_pos long, abs_of_nonpos hq]
    split
    · rename_i small
      rw [min_eq_right small]; ring
    · rename_i big
      rw [min_eq_left (not_le.mp big).le]; ring

/-- A closing trade no larger than the position leaves its side or ends it. -/
theorem close_side {o q : K} (ho : o ≠ 0) (small : |q| ≤ |o|) (rest : o + q ≠ 0) :
    0 < o * (o + q) := by
  rcases lt_or_gt_of_ne ho with short | long
  · have bound : q ≤ -o := by rw [← abs_of_neg short]; exact (le_abs_self q).trans small
    have neg : o + q < 0 := lt_of_le_of_ne (by linarith) rest
    exact mul_pos_of_neg_of_neg short neg
  · have bound : -q ≤ o := by rw [← abs_of_pos long]; exact (neg_le_abs q).trans small
    have pos : 0 < o + q := lt_of_le_of_ne (by linarith) rest.symm
    exact mul_pos long pos

/-- A closing trade larger than the position flips it. -/
theorem flip_side {o q : K} (ho : o ≠ 0) (opposite : o * q ≤ 0) (big : |o| < |q|) :
    o + q ≠ 0 ∧ ¬ 0 < o * (o + q) := by
  rcases lt_or_gt_of_ne ho with short | long
  · have hq : 0 ≤ q := by
      by_contra neg
      exact absurd opposite (not_le.mpr (mul_pos_of_neg_of_neg short (not_le.mp neg)))
    rw [abs_of_neg short, abs_of_nonneg hq] at big
    have pos : 0 < o + q := by linarith
    exact ⟨pos.ne', not_lt.mpr (mul_nonpos_of_nonpos_of_nonneg short.le pos.le)⟩
  · have hq : q ≤ 0 := by
      by_contra pos
      exact absurd opposite (not_le.mpr (mul_pos long (not_le.mp pos)))
    rw [abs_of_pos long, abs_of_nonpos hq] at big
    have neg : o + q < 0 := by linarith
    exact ⟨neg.ne, not_lt.mpr (mul_nonpos_of_nonneg_of_nonpos long.le neg.le)⟩

/-- A trade to the other side of the position closes it, and so does one that ends it. -/
theorem not_extends_of_flip {b : AvgCost K} {target : K} (flips : b.qty * target < 0) :
    ¬ b.Extends (target - b.qty) ∧ ¬ b.Extends (-b.qty) := by
  have held : b.qty ≠ 0 := left_ne_zero_of_mul flips.ne
  have square := mul_self_pos.mpr held
  constructor
  · rintro (none_ | same)
    · exact held none_
    · linarith [mul_sub b.qty target b.qty]
  · rintro (none_ | same)
    · exact held none_
    · linarith [mul_neg b.qty b.qty]

/-- Both realise the same. -/
theorem closePnl_flip {b : AvgCost K} {target : K} (flips : b.qty * target < 0) (p : K) :
    b.closePnl (-b.qty) p = b.closePnl (target - b.qty) p := by
  have larger : |b.qty| ≤ |target - b.qty| := by
    apply sq_le_sq.mp
    have square := sq_nonneg target
    linarith [sub_sq target b.qty, mul_comm b.qty target]
  unfold closePnl
  rw [abs_neg, min_self, min_eq_left larger]

/-- **A flip** is one trade to the other side, or a close and an opening. -/
theorem trade_flip {b : AvgCost K} {target : K} (flips : b.qty * target < 0) (p : K) :
    (b.trade (-b.qty) p).trade target p = b.trade (target - b.qty) p := by
  obtain ⟨beyond, ends⟩ := not_extends_of_flip flips
  have target_ne : target ≠ 0 := right_ne_zero_of_mul flips.ne
  have closed : b.trade (-b.qty) p = ⟨0, 0, b.realized + b.closePnl (target - b.qty) p⟩ := by
    rw [trade, if_neg ends, add_neg_cancel, if_pos rfl, closePnl_flip flips]
  have opens : (AvgCost.mk 0 0 (b.realized + b.closePnl (target - b.qty) p)).Extends target := .inl rfl
  rw [closed, trade, if_pos opens, trade, if_neg beyond]
  simp only [add_sub_cancel, zero_add, abs_zero, zero_mul]
  rw [if_neg target_ne, if_neg (not_lt.mpr flips.le), mul_div_cancel_left₀ _ (abs_ne_zero.mpr target_ne)]

/-- **One trade**: at every mark price it adds exactly its own mark-to-market
result, whichever way the position is extended, closed or flipped. -/
theorem worth_trade (b : AvgCost K) {q : K} (hq : q ≠ 0) (p m : K) :
    (b.trade q p).worth m = b.worth m + q * (m - p) := by
  unfold trade worth
  by_cases ext : b.Extends q
  · rw [if_pos ext]
    have cost := extend_cost (a := b.avg) (p := p) ext hq
    simp only
    linear_combination -cost
  · have pnl := closePnl_eq b (p := p) ext
    rw [if_neg ext]
    simp only [Extends, not_or, not_lt] at ext
    simp only
    rw [pnl]
    by_cases small : |q| ≤ |b.qty|
    · rw [if_pos small]
      by_cases rest : b.qty + q = 0
      · rw [if_pos rest]
        have hq : q = -b.qty := by linear_combination rest
        rw [hq]; ring
      · rw [if_neg rest, if_pos (close_side ext.1 small rest)]
        ring
    · obtain ⟨rest, flipped⟩ := flip_side ext.1 ext.2 (not_le.mp small)
      rw [if_neg small, if_neg rest, if_neg flipped]
      ring

/-- **Average-cost accounting is cash accounting**: realised plus unrealised
profit is the position at the mark price minus what the trades cost. -/
theorem worth_trades (ts : List (K × K)) (nonzero : ∀ t ∈ ts, t.1 ≠ 0) (b : AvgCost K) (m : K) :
    (b.trades ts).worth m =
      b.worth m + ((ts.map Prod.fst).sum * m - (ts.map fun t => t.1 * t.2).sum) := by
  induction ts generalizing b with
  | nil => simp [trades]
  | cons t ts ih =>
    have tail := ih (fun t ht => nonzero t (List.mem_cons_of_mem _ ht)) (b.trade t.1 t.2)
    have head := b.worth_trade (nonzero t List.mem_cons_self) t.2 m
    simp only [trades, List.foldl_cons, List.map_cons, List.sum_cons] at tail ⊢
    rw [tail, head]
    ring

end AvgCost

end AverageCost

end Ledger
