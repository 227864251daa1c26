import Mathlib.Algebra.BigOperators.Fin
import Mathlib.Algebra.Order.BigOperators.Ring.Finset
import Mathlib.Algebra.Order.Field.Basic
import Mathlib.Tactic.Linarith
import Mathlib.Tactic.Ring

/-!
# Gram matrices

Sums of products. The quadratic form of all such sums of a family is a sum of squares,
and the square of one sum is at most the product of the two sums of squares.
-/

namespace Gram
set_option autoImplicit false

open Finset (range)

/-! ## Products of lists -/

section Products
variable {K : Type} [CommSemiring K]

/-- The sum of the products of two lists, by the places of the first. -/
theorem sum_zipWith_mul (x y : List K) {n : ℕ} (length : x.length ≤ n) :
    (List.zipWith (· * ·) x y).sum = ∑ t ∈ range n, x.getD t 0 * y.getD t 0 := by
  induction x generalizing y n with
  | nil => simp
  | cons a x ih =>
    obtain ⟨n, rfl⟩ := Nat.exists_eq_add_of_le' (show 1 ≤ n by simp at length; omega)
    cases y with
    | nil => simp
    | cons b y =>
      rw [Finset.sum_range_succ', List.zipWith_cons_cons, List.sum_cons, ih y (by simpa using length), add_comm]
      simp

/-- The sum of a list, by its places. -/
theorem sum_eq (x : List K) {n : ℕ} (length : x.length ≤ n) : x.sum = ∑ t ∈ range n, x.getD t 0 := by
  induction x generalizing n with
  | nil => simp
  | cons a x ih =>
    obtain ⟨n, rfl⟩ := Nat.exists_eq_add_of_le' (show 1 ≤ n by simp at length; omega)
    rw [Finset.sum_range_succ', List.sum_cons, ih (by simpa using length), add_comm]
    simp

/-- A loop that adds up is a sum. -/
theorem foldl_add (f : ℕ → K) (n : ℕ) : (List.range n).foldl (fun accum t => accum + f t) 0 = ∑ t ∈ range n, f t := by
  induction n with
  | zero => rfl
  | succ n ih => rw [List.range_succ, List.foldl_concat, ih, Finset.sum_range_succ]

end Products

/-! ## The quadratic form -/

section Quadratic
variable {K ι τ : Type} [CommRing K] (family : Finset ι) (times : Finset τ) (w : ι → K) (x : ι → τ → K)

/-- **The quadratic form** of the products of a family is the sum of the squares of its
combination. -/
theorem quadratic_form :
    ∑ i ∈ family, w i * ∑ j ∈ family, (∑ t ∈ times, x i t * x j t) * w j = ∑ t ∈ times, (∑ i ∈ family, w i * x i t) ^ 2 := by
  have square (t : τ) : (∑ i ∈ family, w i * x i t) ^ 2 = ∑ i ∈ family, ∑ j ∈ family, w i * (x i t * x j t * w j) := by
    rw [sq, Finset.sum_mul_sum]
    refine Finset.sum_congr rfl fun i _ => Finset.sum_congr rfl fun j _ => ?_
    ring
  calc ∑ i ∈ family, w i * ∑ j ∈ family, (∑ t ∈ times, x i t * x j t) * w j
      = ∑ i ∈ family, ∑ j ∈ family, ∑ t ∈ times, w i * (x i t * x j t * w j) := by
        simp only [Finset.mul_sum, Finset.sum_mul]
    _ = ∑ i ∈ family, ∑ t ∈ times, ∑ j ∈ family, w i * (x i t * x j t * w j) :=
        Finset.sum_congr rfl fun i _ => Finset.sum_comm
    _ = ∑ t ∈ times, ∑ i ∈ family, ∑ j ∈ family, w i * (x i t * x j t * w j) := Finset.sum_comm
    _ = ∑ t ∈ times, (∑ i ∈ family, w i * x i t) ^ 2 := Finset.sum_congr rfl fun t _ => (square t).symm

end Quadratic

section Bounds
variable {K α : Type} [Field K] [LinearOrder K] [IsStrictOrderedRing K]

/-- **The square of a sum of products** is at most the product of the sums of squares. -/
theorem sq_sum_mul_le (l : List α) (f g : α → K) :
    (l.map fun a => f a * g a).sum ^ 2 ≤ (l.map fun a => f a * f a).sum * (l.map fun a => g a * g a).sum := by
  have bound := Finset.sum_mul_sq_le_sq_mul_sq Finset.univ (fun i : Fin l.length => f l[(i : ℕ)]) fun i => g l[(i : ℕ)]
  simp only [sq] at bound ⊢
  rwa [Fin.sum_univ_fun_getElem l fun a => f a * g a, Fin.sum_univ_fun_getElem l fun a => f a * f a,
    Fin.sum_univ_fun_getElem l fun a => g a * g a] at bound

/-- Divided by the root of a bound of its square, a number is at most one. -/
theorem abs_div_le_one {num bound root : K} (nonneg : 0 ≤ root) (square : root * root = bound) (le : num ^ 2 ≤ bound) :
    |num / root| ≤ 1 := by
  rw [abs_div, abs_of_nonneg nonneg]
  apply div_le_one_of_le₀ _ nonneg
  apply abs_le_of_sq_le_sq _ nonneg
  rwa [sq root, square]

end Bounds

end Gram
