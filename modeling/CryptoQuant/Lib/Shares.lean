import Mathlib.Algebra.BigOperators.Group.List.Basic
import Mathlib.Algebra.Field.Basic
import Mathlib.Algebra.CharZero.Defs
import Mathlib.Tactic.Ring

/-!
# Sharing out

Sums over a list when some of its members are fixed and the others share what is
left, in proportion or evenly.
-/

namespace Shares
set_option autoImplicit false

variable {α K : Type}

/-- A sum is the sum over the selected members and over the others. -/
theorem sum_split [AddCommMonoid K] (p : α → Bool) (f : α → K) (l : List α) :
    (l.map f).sum = ((l.filter p).map f).sum + ((l.filter fun a => !p a).map f).sum := by
  induction l with
  | nil => simp
  | cons a l ih =>
    by_cases selected : p a
    · simp [selected, ih, add_assoc]
    · simp [selected, ih, add_left_comm]

section Field
variable [Field K]

/-- Shares in proportion to a base add up to the whole. -/
theorem sum_proportional (whole : K) (base : α → K) {l : List α} (nonzero : (l.map base).sum ≠ 0) :
    (l.map fun a => whole * base a / (l.map base).sum).sum = whole := by
  have scaled : ∀ c : K, (l.map fun a => whole * base a / c).sum = whole * (l.map base).sum / c := by
    intro c
    clear nonzero
    induction l with
    | nil => simp
    | cons a l ih => rw [List.map_cons, List.sum_cons, ih, List.map_cons, List.sum_cons]; ring
  rw [scaled, mul_div_assoc, div_self nonzero, mul_one]

/-- Even shares add up to the whole. -/
theorem sum_even [CharZero K] (whole : K) {l : List α} (nonempty : l ≠ []) :
    (l.map fun _ => whole / (l.length : K)).sum = whole := by
  have length : (l.length : K) ≠ 0 := Nat.cast_ne_zero.mpr (List.length_pos_iff.mpr nonempty).ne'
  rw [List.map_const', List.sum_replicate, nsmul_eq_mul, mul_div_cancel₀ whole length]

end Field

end Shares
