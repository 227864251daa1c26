import Mathlib.Data.List.Sort

/-!
# Merging by key

The merge of a list of items keeps the last item of every key, in the order of the
keys. What a list contributes to a merge is its last item of every key and nothing
else, so a merge may be merged again.
-/

namespace Merge
set_option autoImplicit false

variable {α κ : Type} [LinearOrder κ] (key : α → κ)

/-- The last item with the key. -/
def last (k : κ) (xs : List α) : Option α := (xs.filter fun x => decide (key x = k)).getLast?

section Last
variable {key} {k : κ} {xs ys : List α} {x : α}

@[simp] theorem last_nil : last key k [] = none := rfl

@[simp] theorem last_append : last key k (xs ++ ys) = (last key k ys).or (last key k xs) := by
  simp [last]

@[simp] theorem last_snoc : last key k (xs ++ [x]) = if key x = k then some x else last key k xs := by
  rw [last_append]
  by_cases own : key x = k <;> simp [last, own]

theorem mem_of_last (found : last key k xs = some x) : x ∈ xs ∧ key x = k := by
  have member := List.mem_of_getLast? found
  simpa using member

theorem last_eq_none_iff : last key k xs = none ↔ ∀ x ∈ xs, key x ≠ k := by
  simp [last]

/-- With one item of every key each item is the last of its own. -/
theorem last_of_increasing (increasing : xs.Pairwise fun a b => key a < key b) (member : x ∈ xs) :
    last key (key x) xs = some x := by
  cases found : last key (key x) xs with
  | none => exact absurd rfl (last_eq_none_iff.mp found x member)
  | some y =>
    obtain ⟨among, same⟩ := mem_of_last found
    have distinct : (xs.map key).Nodup := by
      rw [List.Nodup, List.pairwise_map]
      exact increasing.imp ne_of_lt
    rw [List.inj_on_of_nodup_map distinct among member same]

end Last

/-- The second list is the merge of the first. -/
structure Merges (xs out : List α) : Prop where
  increasing : out.Pairwise fun a b => key a < key b
  last : ∀ k, last key k out = last key k xs

section Merges
variable {key} {xs ys out out' : List α}

/-- The items of a merge are the last of their keys. -/
theorem Merges.mem_iff (merges : Merges key xs out) {x : α} : x ∈ out ↔ Merge.last key (key x) xs = some x := by
  rw [← merges.last]
  constructor
  · intro member
    exact last_of_increasing merges.increasing member
  · intro found
    exact (mem_of_last found).1

/-- A key is in the merge exactly when it is in the list. -/
theorem Merges.key_iff (merges : Merges key xs out) (k : κ) : (∃ x ∈ out, key x = k) ↔ ∃ x ∈ xs, key x = k := by
  have same := merges.last k
  constructor
  · rintro ⟨x, member, rfl⟩
    rw [last_of_increasing merges.increasing member] at same
    exact ⟨x, mem_of_last same.symm⟩
  · rintro ⟨x, member, own⟩
    cases found : Merge.last key k xs with
    | none => exact absurd own (last_eq_none_iff.mp found x member)
    | some y =>
      rw [found] at same
      exact ⟨y, mem_of_last same⟩

/-- **Uniqueness.** Lists with the same last items have one merge. -/
theorem Merges.unique (merges : Merges key xs out) (merges' : Merges key ys out')
    (same : ∀ k, Merge.last key k xs = Merge.last key k ys) : out = out' := by
  have irrefl : Std.Irrefl fun a b : α => key a < key b := ⟨fun a => lt_irrefl (key a)⟩
  have asymm : Std.Asymm fun a b : α => key a < key b := ⟨fun a b => lt_asymm⟩
  apply List.Pairwise.eq_of_mem_iff merges.increasing merges'.increasing
  intro x
  rw [merges.mem_iff, merges'.mem_iff, same]

end Merges

end Merge
