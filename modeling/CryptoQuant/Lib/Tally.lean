import Mathlib.Algebra.Order.Ring.Defs
import Mathlib.Algebra.BigOperators.Group.List.Basic
import Mathlib.Tactic.Ring

/-!
# Tallies

The total of the items of a list that carry a key. An item moved to another list, split
in two or put elsewhere in its list leaves the total over all of them.
-/

namespace Tally
set_option autoImplicit false

section Total
variable {α κ K : Type} [DecidableEq κ] [AddCommMonoid K] (key : α → κ) (value : α → K) (k : κ)

/-- The total of the items with a key. -/
def total (items : List α) : K := ((items.filter fun i => key i = k).map value).sum

@[simp] theorem total_nil : total key value k [] = 0 := rfl

theorem total_append (items more : List α) :
    total key value k (items ++ more) = total key value k items + total key value k more := by
  simp only [total, List.filter_append, List.map_append, List.sum_append]

theorem total_cons (i : α) (items : List α) :
    total key value k (i :: items) = (if key i = k then value i else 0) + total key value k items := by
  unfold total
  by_cases own : key i = k
  · rw [if_pos own, List.filter_cons_of_pos (by simpa using own), List.map_cons, List.sum_cons]
  · rw [if_neg own, List.filter_cons_of_neg (by simpa using own), zero_add]

theorem total_snoc (items : List α) (i : α) :
    total key value k (items ++ [i]) = total key value k items + if key i = k then value i else 0 := by
  rw [total_append, total_cons, total_nil, add_zero]

theorem total_perm {items items' : List α} (perm : items.Perm items') :
    total key value k items = total key value k items' :=
  ((perm.filter _).map value).sum_eq

/-- Splitting the items by a test splits the total. -/
theorem total_split (p : α → Bool) (items : List α) :
    total key value k items = total key value k (items.filter p) + total key value k (items.filter fun i => !p i) := by
  rw [← total_append]
  exact total_perm key value k (List.filter_append_perm p items).symm

theorem total_eq_zero {items : List α} (absent : ∀ i ∈ items, key i ≠ k) : total key value k items = 0 := by
  unfold total
  rw [List.filter_eq_nil_iff.mpr fun i member => by simpa using absent i member]
  rfl

end Total

/-- Where no key is used twice, at most one item has a key. -/
theorem length_filter_le_one {α κ : Type} [DecidableEq κ] {key : α → κ} {items : List α} (distinct : (items.map key).Nodup)
    (k : κ) : (items.filter fun i => key i = k).length ≤ 1 := by
  have keys : ((items.filter fun i => key i = k).map key).Nodup := distinct.sublist (List.filter_sublist.map key)
  have same : (items.filter fun i => key i = k).map key = List.replicate (items.filter fun i => key i = k).length k := by
    refine List.eq_replicate_iff.mpr ⟨List.length_map _, fun x member => ?_⟩
    obtain ⟨i, among, rfl⟩ := List.mem_map.mp member
    simpa using (List.mem_filter.mp among).2
  rw [same] at keys
  exact List.nodup_replicate.mp keys

/-- A total has the side its items have. -/
theorem total_side {α κ K : Type} [DecidableEq κ] [Ring K] [PartialOrder K] [IsOrderedRing K]
    (key : α → κ) (value : α → K) (k : κ) (c : K)
    {items : List α} (side : ∀ i ∈ items, key i = k → 0 ≤ value i * c) : 0 ≤ total key value k items * c := by
  induction items with
  | nil => rw [total_nil, zero_mul]
  | cons i items ih =>
    rw [total_cons, add_mul]
    refine add_nonneg ?_ (ih fun j member => side j (List.mem_cons_of_mem _ member))
    split
    · exact side i List.mem_cons_self (by assumption)
    · rw [zero_mul]

end Tally
