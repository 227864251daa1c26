import Mathlib.Algebra.Order.Floor.Semiring
import Mathlib.Order.Interval.Set.Basic
import Mathlib.Tactic.Linarith
import Mathlib.Tactic.Positivity
import Mathlib.Tactic.Ring

/-!
# Linear interpolation

A sequence of numbers, continued between its places in proportion. What increases along the
places increases between them.
-/

namespace Interpolation
set_option autoImplicit false

variable {K : Type} [Field K] [LinearOrder K] [IsStrictOrderedRing K] [FloorSemiring K]

/-- The sequence at a place between two of its own. -/
def between (x : ℕ → K) (t : K) : K := x ⌊t⌋₊ * (1 - (t - ⌊t⌋₊)) + x (⌊t⌋₊ + 1) * (t - ⌊t⌋₊)

variable {x : ℕ → K} {s t : K}

@[simp] theorem between_natCast (x : ℕ → K) (n : ℕ) : between x n = x n := by
  simp [between]

omit [IsStrictOrderedRing K] in
/-- The difference to the place before. -/
theorem between_eq (x : ℕ → K) (t : K) : between x t = x ⌊t⌋₊ + (x (⌊t⌋₊ + 1) - x ⌊t⌋₊) * (t - ⌊t⌋₊) := by
  unfold between
  ring

omit [IsStrictOrderedRing K] in
theorem between_of_eq (same : x (⌊t⌋₊ + 1) = x ⌊t⌋₊) : between x t = x ⌊t⌋₊ := by
  rw [between_eq, same, sub_self, zero_mul, add_zero]

omit [IsStrictOrderedRing K] in
/-- Another unit and another origin. -/
theorem between_affine (x : ℕ → K) (a b t : K) : between (fun i => a * x i + b) t = a * between x t + b := by
  unfold between
  ring

section Monotone
variable (mono : Monotone x)
include mono

theorem le_between (nonneg : 0 ≤ t) : x ⌊t⌋₊ ≤ between x t := by
  have rest : 0 ≤ t - ⌊t⌋₊ := sub_nonneg.mpr (Nat.floor_le nonneg)
  have rise : 0 ≤ x (⌊t⌋₊ + 1) - x ⌊t⌋₊ := sub_nonneg.mpr (mono (Nat.le_succ _))
  rw [between_eq]
  exact le_add_of_nonneg_right (mul_nonneg rise rest)

theorem between_le (t : K) : between x t ≤ x (⌊t⌋₊ + 1) := by
  have rest : t - ⌊t⌋₊ ≤ 1 := by linarith [Nat.lt_floor_add_one t]
  have rise : 0 ≤ x (⌊t⌋₊ + 1) - x ⌊t⌋₊ := sub_nonneg.mpr (mono (Nat.le_succ _))
  rw [between_eq]
  linarith [mul_le_of_le_one_right rise rest]

/-- Between its places an increasing sequence increases. -/
theorem between_mono (nonneg : 0 ≤ s) (le : s ≤ t) : between x s ≤ between x t := by
  rcases (Nat.floor_mono le).eq_or_lt with same | further
  · -- between the same two places
    have rise : 0 ≤ x (⌊t⌋₊ + 1) - x ⌊t⌋₊ := sub_nonneg.mpr (mono (Nat.le_succ _))
    rw [between_eq, between_eq, same]
    have more := mul_le_mul_of_nonneg_left (sub_le_sub_right le (⌊t⌋₊ : K)) rise
    linarith
  · calc between x s ≤ x (⌊s⌋₊ + 1) := between_le mono s
      _ ≤ x ⌊t⌋₊ := mono further
      _ ≤ between x t := le_between mono (nonneg.trans le)

end Monotone

end Interpolation
