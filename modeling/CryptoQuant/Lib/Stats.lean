import Mathlib.Analysis.Real.Sqrt
import Mathlib.Algebra.BigOperators.Ring.List
import Mathlib.Tactic.FieldSimp
import Mathlib.Tactic.Linarith
import Mathlib.Tactic.Positivity
import Mathlib.Tactic.Ring

/-!
# Mean over deviation

The mean of a list divided by its standard deviation, through the number of its
entries, their sum and the sum of their squares. Zeros change only the number, so
a list and the same list with zeros inserted have the same ratio exactly when
their sum is zero.
-/

namespace Stats
set_option autoImplicit false

section Deviation
variable {K : Type} [Field K]

/-- The squared distances from a point, by the sums. -/
theorem sum_sq_sub (xs : List K) (c : K) :
    (xs.map fun x => (x - c) ^ 2).sum = (xs.map (· ^ 2)).sum - 2 * c * xs.sum + xs.length * c ^ 2 := by
  induction xs with
  | nil => simp
  | cons x xs ih =>
    simp only [List.map_cons, List.sum_cons, List.length_cons, ih, Nat.cast_succ]
    ring

/-- The distances from a point add up. -/
theorem sum_map_sub (xs : List K) (c : K) : (xs.map (· - c)).sum = xs.sum - xs.length * c := by
  induction xs with
  | nil => simp
  | cons x xs ih =>
    simp only [List.map_cons, List.sum_cons, List.length_cons, ih, Nat.cast_succ]
    ring

variable [LinearOrder K] [IsStrictOrderedRing K] {xs : List K}

theorem length_pos {α : Type} {l : List α} (nonempty : l ≠ []) : (0 : K) < l.length :=
  Nat.cast_pos.mpr (List.length_pos_iff.mpr nonempty)

/-- The squared distances from the mean. -/
theorem sum_sq_sub_mean (nonempty : xs ≠ []) :
    (xs.map fun x => (x - xs.sum / xs.length) ^ 2).sum = (xs.map (· ^ 2)).sum - xs.sum ^ 2 / xs.length := by
  have length : (xs.length : K) ≠ 0 := (length_pos nonempty).ne'
  rw [sum_sq_sub]
  field_simp
  ring

/-- The square of a sum is at most the number of terms times the sum of their squares. -/
theorem sq_sum_le (nonempty : xs ≠ []) : xs.sum ^ 2 ≤ xs.length * (xs.map (· ^ 2)).sum := by
  have distances : 0 ≤ (xs.map fun x => (x - xs.sum / xs.length) ^ 2).sum :=
    List.sum_nonneg fun y member => by
      obtain ⟨x, -, rfl⟩ := List.mem_map.mp member
      exact sq_nonneg _
  rw [sum_sq_sub_mean nonempty, sub_nonneg, div_le_iff₀ (length_pos nonempty)] at distances
  linarith

/-- **How far one value lies off the mean**: its squared distance is at most the share of
all but one in the sum of the squared distances. -/
theorem sq_sub_mean_le {xs : List K} (others : xs ≠ []) (x : K) :
    (xs ++ [x]).length * (x - (xs ++ [x]).sum / (xs ++ [x]).length) ^ 2 ≤
      ((xs ++ [x]).length - 1) * ((xs ++ [x]).map fun y => (y - (xs ++ [x]).sum / (xs ++ [x]).length) ^ 2).sum := by
  have length : ((xs ++ [x]).length : K) ≠ 0 := (length_pos (by simp)).ne'
  have count : ((xs ++ [x]).length : K) = xs.length + 1 := by simp
  generalize centre : (xs ++ [x]).sum / ((xs ++ [x]).length : K) = m
  have total : xs.sum + x = (xs.length + 1) * m := by
    rw [← centre, ← count, mul_div_cancel₀ _ length]
    simp
  -- the distances cancel, so that of `x` is the sum of the others
  have balance : (xs.map (· - m)).sum = -(x - m) := by
    rw [sum_map_sub]
    linarith
  have spread := sq_sum_le (show xs.map (· - m) ≠ [] by simpa using others)
  rw [balance, List.length_map, List.map_map, neg_sq] at spread
  rw [count, List.map_append, List.sum_append, List.map_singleton, List.sum_singleton]
  have squares : (xs.map fun y => (y - m) ^ 2).sum = (xs.map ((· ^ 2) ∘ (· - m))).sum := rfl
  rw [squares]
  linarith

end Deviation

section Padding
variable {K : Type} [Zero K]

/-- The second list is the first with `k` zeros inserted. -/
inductive Padded : ℕ → List K → List K → Prop
  | nil : Padded 0 [] []
  | both {k : ℕ} {xs ys : List K} (x : K) (padded : Padded k xs ys) : Padded k (xs ++ [x]) (ys ++ [x])
  | zero {k : ℕ} {xs ys : List K} (padded : Padded k xs ys) : Padded (k + 1) xs (ys ++ [0])

theorem Padded.length {k : ℕ} {xs ys : List K} (padded : Padded k xs ys) : ys.length = xs.length + k := by
  induction padded with
  | nil => rfl
  | both x _ ih => simp only [List.length_append, List.length_singleton]; omega
  | zero _ ih => simp only [List.length_append, List.length_singleton]; omega

/-- Zeros do not change a sum of terms that vanish on them. -/
theorem Padded.sum_map {k : ℕ} {xs ys : List K} (padded : Padded k xs ys) {M : Type} [AddMonoid M] {f : K → M}
    (vanishes : f 0 = 0) : (ys.map f).sum = (xs.map f).sum := by
  induction padded with
  | nil => rfl
  | both x _ ih => simp only [List.map_append, List.sum_append, ih]
  | zero _ ih => simp [ih, vanishes]

end Padding

section Ratio

/-- A mean over its deviation, without the divisions by the number of entries. -/
theorem mean_div_deviation {n s q : ℝ} (hn : 0 < n) : s / n / √((q - s ^ 2 / n) / n) = s / √(n * q - s ^ 2) := by
  have cleared : (q - s ^ 2 / n) / n = (n * q - s ^ 2) / n ^ 2 := by
    field_simp
  rw [cleared, Real.sqrt_div' _ (sq_nonneg n), Real.sqrt_sq hn.le, div_div_div_cancel_right₀ hn.ne']

/-- The ratio depends on the number of entries unless their sum is zero. -/
theorem ratio_eq_iff {m n s q : ℝ} (hm : 0 < m) (le : m ≤ n) (bound : s ^ 2 ≤ m * q) :
    s / √(m * q - s ^ 2) = s / √(n * q - s ^ 2) ↔ s = 0 ∨ m = n := by
  constructor
  · intro same
    by_contra differs
    rw [not_or] at differs
    obtain ⟨nonzero, ne⟩ := differs
    have square : 0 < s ^ 2 := by positivity
    have squares : 0 < q := pos_of_mul_pos_right (lt_of_lt_of_le square bound) hm.le
    have grows : m * q < n * q := mul_lt_mul_of_pos_right (lt_of_le_of_ne le ne) squares
    have roots : √(m * q - s ^ 2) = √(n * q - s ^ 2) := by
      rw [div_eq_mul_inv, div_eq_mul_inv] at same
      exact inv_inj.mp (mul_left_cancel₀ nonzero same)
    have equal := (Real.sqrt_inj (by linarith) (by linarith)).mp roots
    linarith
  · rintro (rfl | rfl)
    · rw [zero_div, zero_div]
    · rfl

end Ratio

end Stats
