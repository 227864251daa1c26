import Mathlib.Algebra.BigOperators.Group.List.Basic
import Mathlib.Algebra.Order.BigOperators.Group.List
import Mathlib.Algebra.Order.Field.Basic
import Mathlib.Data.List.Sort
import Mathlib.Tactic.Linarith
import Mathlib.Tactic.Ring

/-!
# Tails

The largest entries of a list: the first ones in descending order. Their sum is the
largest that so many entries can have, so it is subadditive, and their mean falls as
more of them are taken.
-/

namespace Tail
set_option autoImplicit false

/-! ## Descending lists -/

section Descending
variable {K : Type} [LinearOrder K]

/-- The list in descending order. -/
def descending (l : List K) : List K := l.insertionSort (· ≥ ·)

theorem perm_descending (l : List K) : (descending l).Perm l := List.perm_insertionSort _ l

@[simp] theorem length_descending (l : List K) : (descending l).length = l.length := (perm_descending l).length_eq

theorem pairwise_descending (l : List K) : (descending l).Pairwise (· ≥ ·) := List.pairwise_insertionSort _ l

theorem getElem_antitone {l : List K} (sorted : l.Pairwise (· ≥ ·)) {i j : ℕ} (le : i ≤ j) (bound : j < l.length) :
    l[j] ≤ l[i] := by
  rcases le.lt_or_eq with before | same
  · exact List.pairwise_iff_getElem.mp sorted i j (before.trans bound) bound before
  · subst same
    exact le_rfl

/-- The order of the entries does not matter. -/
theorem descending_congr {l l' : List K} (perm : l.Perm l') : descending l = descending l' := by
  have both := (perm_descending l).trans (perm.trans (perm_descending l').symm)
  exact both.eq_of_pairwise' (pairwise_descending l) (pairwise_descending l')

end Descending

/-! ## Sums -/

section Sums
variable {K : Type} [LinearOrder K] [AddCommGroup K] [IsOrderedAddMonoid K] {l s : List K}

/-- One entry less in front of a descending list. -/
theorem sum_take_tail_le {a : K} (sorted : (a :: l).Pairwise (· ≥ ·)) (k : ℕ) (bound : k ≤ l.length) :
    (l.take k).sum ≤ ((a :: l).take k).sum := by
  induction k generalizing a l with
  | zero => simp
  | succ k ih =>
    cases l with
    | nil => simp at bound
    | cons b l =>
      obtain ⟨least, later⟩ := List.pairwise_cons.mp sorted
      rw [List.take_succ_cons, List.take_succ_cons, List.sum_cons, List.sum_cons]
      apply add_le_add (least b List.mem_cons_self)
      exact ih later (by simpa using bound)

/-- **Maximality** of the first entries of a descending list. -/
theorem sum_le_sum_take (sorted : l.Pairwise (· ≥ ·)) (sublist : s.Sublist l) : s.sum ≤ (l.take s.length).sum := by
  induction sublist with
  | slnil => simp
  | @cons s l a sublist ih =>
    apply (ih (List.pairwise_cons.mp sorted).2).trans
    exact sum_take_tail_le sorted s.length sublist.length_le
  | cons_cons a sublist ih =>
    simpa using ih (List.pairwise_cons.mp sorted).2

/-- The sum of the `k` largest entries. -/
def top (k : ℕ) (l : List K) : K := ((descending l).take k).sum

/-- No entries of the list have a larger sum than as many of the largest. -/
theorem sum_le_top (subperm : s.Subperm l) : s.sum ≤ top s.length l := by
  obtain ⟨t, perm, sublist⟩ := subperm.trans (perm_descending l).symm.subperm
  rw [← perm.sum_eq, ← perm.length_eq]
  exact sum_le_sum_take (pairwise_descending l) sublist

/-- **Subadditivity.** The largest sums of two entries are sums of entries, which need not
be the largest of each list. -/
theorem top_add_le {α : Type} (f g : α → K) (l : List α) {k : ℕ} (bound : k ≤ l.length) :
    top k (l.map fun x => f x + g x) ≤ top k (l.map f) + top k (l.map g) := by
  -- The list sorted by the sum: its first items have the largest sums.
  let sorted := l.insertionSort fun x y => f x + g x ≥ f y + g y
  have total : Std.Total fun x y => f x + g x ≥ f y + g y := ⟨fun x y => le_total (f y + g y) (f x + g x)⟩
  have trans : IsTrans α fun x y => f x + g x ≥ f y + g y := ⟨fun _ _ _ ge ge' => ge'.trans ge⟩
  have perm : sorted.Perm l := List.perm_insertionSort _ l
  have largest : descending (l.map fun x => f x + g x) = sorted.map fun x => f x + g x := by
    have order : (sorted.map fun x => f x + g x).Pairwise (· ≥ ·) :=
      List.pairwise_map.mpr (List.pairwise_insertionSort (fun x y => f x + g x ≥ f y + g y) l)
    exact ((perm_descending _).trans (perm.map _).symm).eq_of_pairwise' (pairwise_descending _) order
  have taken : (sorted.take k).length = k := List.length_take_of_le (by rwa [perm.length_eq])
  have part (h : α → K) : ((sorted.take k).map h).sum ≤ top k (l.map h) := by
    have subperm : ((sorted.take k).map h).Subperm (l.map h) :=
      ((List.take_sublist k sorted).map h).subperm.trans (perm.map h).subperm
    have bound := sum_le_top subperm
    rwa [List.length_map, taken] at bound
  calc top k (l.map fun x => f x + g x)
      = ((sorted.take k).map fun x => f x + g x).sum := by rw [top, largest, List.map_take]
    _ = ((sorted.take k).map f).sum + ((sorted.take k).map g).sum := List.sum_map_add
    _ ≤ top k (l.map f) + top k (l.map g) := add_le_add (part f) (part g)

end Sums

/-! ## Means -/

section Means
variable {K : Type} [Field K] [LinearOrder K] [IsStrictOrderedRing K] {l : List K}

/-- The entries up to a place are at least the entry there. -/
theorem mul_getElem_le_sum_take (sorted : l.Pairwise (· ≥ ·)) {k : ℕ} (bound : k < l.length) {m : ℕ} (le : m ≤ k + 1) :
    m * l[k] ≤ (l.take m).sum := by
  induction m with
  | zero => simp
  | succ m ih =>
    have here : m < l.length := by omega
    have above : l[k] ≤ l[m] := getElem_antitone sorted (Nat.le_of_succ_le_succ le) bound
    rw [List.sum_take_succ l m here, Nat.cast_succ, add_mul, one_mul]
    exact add_le_add (ih (by omega)) above

/-- **The mean falls** as more of the largest entries are taken. -/
theorem mean_take_antitone (sorted : l.Pairwise (· ≥ ·)) {j k : ℕ} (pos : 0 < j) (le : j ≤ k) (bound : k ≤ l.length) :
    (l.take k).sum / k ≤ (l.take j).sum / j := by
  induction k, le using Nat.le_induction with
  | base => exact le_rfl
  | succ k le ih =>
    have here : k < l.length := by omega
    apply le_trans _ (ih (by omega))
    have positive : (0 : K) < k := Nat.cast_pos.mpr (by omega)
    have next := mul_getElem_le_sum_take sorted here (Nat.le_succ k)
    rw [List.sum_take_succ l k here, Nat.cast_succ, div_le_div_iff₀ (by linarith) positive]
    linarith

/-- The mean of the largest entries is at least the last of them. -/
theorem getElem_le_mean_take (sorted : l.Pairwise (· ≥ ·)) {k : ℕ} (bound : k < l.length) :
    l[k] ≤ (l.take (k + 1)).sum / (k + 1 : ℕ) := by
  have positive : (0 : K) < (k + 1 : ℕ) := Nat.cast_pos.mpr (by omega)
  rw [le_div_iff₀ positive, mul_comm]
  exact mul_getElem_le_sum_take sorted bound le_rfl

/-- It is at most the largest. -/
theorem mean_take_le_head (sorted : l.Pairwise (· ≥ ·)) {k : ℕ} (pos : 0 < k) (bound : k ≤ l.length) :
    (l.take k).sum / k ≤ l[0] := by
  have first := mean_take_antitone sorted Nat.one_pos pos bound
  cases l with
  | nil => simp at bound; omega
  | cons a l => simpa using first

end Means

end Tail
