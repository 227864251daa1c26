import Mathlib.Data.List.Sort

/-!
# Stable sorting

Insertion sort keeps the order of related items, so it commutes with taking out a part
of the list.
-/

namespace StableSort
set_option autoImplicit false

open List

variable {α : Type} {r : α → α → Prop} [DecidableRel r] [IsTrans α r]

/-- Inserting into the part of a sorted list. -/
theorem filter_orderedInsert (p : α → Bool) (a : α) {l : List α} (sorted : l.Pairwise r) :
    (l.orderedInsert r a).filter p = if p a then (l.filter p).orderedInsert r a else l.filter p := by
  induction l with
  | nil => cases here : p a <;> simp [here]
  | cons b l ih =>
    obtain ⟨below, sorted⟩ := List.pairwise_cons.mp sorted
    by_cases le : r a b
    · rw [orderedInsert_cons_of_le r l le, filter_cons]
      split
      · -- Every item that is left is above `b`, hence above `a`.
        symm
        cases left : (b :: l).filter p with
        | nil => rfl
        | cons c rest =>
          apply orderedInsert_cons_of_le
          have member : c ∈ b :: l := List.mem_of_mem_filter (left ▸ List.mem_cons_self)
          rcases List.mem_cons.mp member with rfl | later
          · exact le
          · exact Trans.trans le (below c later)
      · rfl
    · rw [orderedInsert_of_not_le r l le, filter_cons, ih sorted]
      cases kept : p b with
      | false => simp [kept]
      | true =>
        cases here : p a with
        | false => simp [kept]
        | true => simp [kept, le]

variable [Std.Total r]

/-- **Stability**: a part of the sorted list is the part, sorted. -/
theorem filter_insertionSort (p : α → Bool) (l : List α) :
    (l.insertionSort r).filter p = (l.filter p).insertionSort r := by
  induction l with
  | nil => rfl
  | cons a l ih =>
    rw [insertionSort_cons, filter_orderedInsert p a (pairwise_insertionSort r l), ih, filter_cons]
    split <;> rfl

/-- Items that are related to each other keep their order. -/
theorem filter_insertionSort_of_pairwise {p : α → Bool} {l : List α} (related : (l.filter p).Pairwise r) :
    (l.insertionSort r).filter p = l.filter p := by
  rw [filter_insertionSort, related.insertionSort_eq]

end StableSort
