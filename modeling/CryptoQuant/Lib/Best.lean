import Mathlib.Data.List.Induction
import Mathlib.Data.List.Sort
import Mathlib.Order.Bounds.Basic

/-!
# The best item of a list

A list is sorted by a key, and its head is the best item. It has the least key, and of the
items with the least key it is the first one in the list: when there are several, the order
of the list decides.
-/

namespace Best
set_option autoImplicit false

variable {α κ : Type} [LinearOrder κ] (key : α → κ)

/-- The head of the list in the order of the keys. -/
def best (xs : List α) : Option α := (xs.insertionSort fun a b => key a ≤ key b).head?

/-- No item of the list has a smaller key. -/
structure IsBest (xs : List α) (x : α) : Prop where
  mem : x ∈ xs
  le : ∀ y ∈ xs, key x ≤ key y

variable {key} {xs ys : List α} {x y : α}

theorem IsBest.perm (isBest : IsBest key xs x) (perm : xs.Perm ys) : IsBest key ys x :=
  ⟨perm.subset isBest.mem, fun y member => isBest.le y (perm.symm.subset member)⟩

/-- The best item of a filtered list. -/
theorem isBest_filter {p : α → Bool} :
    IsBest key (xs.filter p) x ↔ x ∈ xs ∧ p x = true ∧ ∀ y ∈ xs, p y = true → key x ≤ key y := by
  constructor
  · intro isBest
    obtain ⟨member, passes⟩ := List.mem_filter.mp isBest.mem
    exact ⟨member, passes, fun y among kept => isBest.le y (List.mem_filter.mpr ⟨among, kept⟩)⟩
  · rintro ⟨member, passes, least⟩
    refine ⟨List.mem_filter.mpr ⟨member, passes⟩, fun y kept => ?_⟩
    obtain ⟨among, passes⟩ := List.mem_filter.mp kept
    exact least y among passes

theorem best_eq_none_iff : best key xs = none ↔ xs = [] := by
  rw [best, List.head?_eq_none_iff, ← List.length_eq_zero_iff, List.length_insertionSort, List.length_eq_zero_iff]

/-- A list sorted by a key has its keys in order. -/
theorem pairwise_byKey (key : α → κ) (xs : List α) :
    (xs.insertionSort fun a b => key a ≤ key b).Pairwise fun a b => key a ≤ key b := by
  have total : Std.Total fun a b => key a ≤ key b := ⟨fun a b => le_total (key a) (key b)⟩
  have trans : IsTrans α fun a b => key a ≤ key b := ⟨fun _ _ _ => le_trans⟩
  exact List.pairwise_insertionSort _ xs

/-- Items with different keys are sorted the same way from any order. -/
theorem sort_perm (perm : ys.Perm xs) (distinct : (xs.map key).Nodup) :
    (ys.insertionSort fun a b => key a ≤ key b) = xs.insertionSort fun a b => key a ≤ key b := by
  have first := List.perm_insertionSort (fun a b => key a ≤ key b) ys
  have second := List.perm_insertionSort (fun a b => key a ≤ key b) xs
  refine (first.trans (perm.trans second.symm)).eq_of_pairwise ?_ (pairwise_byKey key ys) (pairwise_byKey key xs)
  intro a b left right le ge
  exact List.inj_on_of_nodup_map distinct (perm.subset (first.subset left)) (second.subset right) (le_antisymm le ge)

/-- The best item has the least key. -/
theorem isBest_of_best (found : best key xs = some x) : IsBest key xs x := by
  have perm := List.perm_insertionSort (fun a b => key a ≤ key b) xs
  have sorted := pairwise_byKey key xs
  obtain ⟨rest, split⟩ := List.head?_eq_some_iff.mp found
  rw [split] at perm sorted
  refine ⟨perm.subset List.mem_cons_self, fun y member => ?_⟩
  rcases List.mem_cons.mp (perm.symm.subset member) with rfl | later
  · exact le_rfl
  · exact (List.pairwise_cons.mp sorted).1 y later

/-- The first item is the best where none has a smaller key. -/
theorem best_cons (least : ∀ y ∈ xs, key x ≤ key y) : best key (x :: xs) = some x := by
  rw [best, List.insertionSort_cons_of_forall_rel _ least]
  rfl

/-- Where the least item is unique, the order of the list does not matter. -/
theorem best_perm (perm : ys.Perm xs) (unique : ∀ x y, IsBest key xs x → IsBest key xs y → x = y) : best key ys = best key xs := by
  cases found : best key ys with
  | none =>
    obtain rfl := List.nil_perm.mp (best_eq_none_iff.mp found ▸ perm)
    exact (best_eq_none_iff.mpr rfl).symm
  | some y =>
    have first := (isBest_of_best found).perm perm
    cases found' : best key xs with
    | none =>
      rw [best_eq_none_iff.mp found'] at first
      exact absurd first.mem List.not_mem_nil
    | some x => rw [unique x y (isBest_of_best found') first]

/-- Some order of a list brings out any of the least of the items that pass. -/
theorem exists_perm_best {p : α → Bool} (isBest : IsBest key (xs.filter p) x) :
    ∃ ys : List α, ys.Perm xs ∧ best key (ys.filter p) = some x := by
  obtain ⟨member, passes⟩ := List.mem_filter.mp isBest.mem
  obtain ⟨before, after, rfl⟩ := List.append_of_mem member
  have perm : (x :: (before ++ after)).Perm (before ++ x :: after) := List.perm_middle.symm
  refine ⟨x :: (before ++ after), perm, ?_⟩
  rw [List.filter_cons_of_pos passes]
  apply best_cons
  intro y later
  apply isBest.le
  obtain ⟨among, passes⟩ := List.mem_filter.mp later
  exact List.mem_filter.mpr ⟨perm.subset (List.mem_cons_of_mem x among), passes⟩

/-- The fold of `max` is the greatest item. -/
theorem isGreatest_foldl_max [LinearOrder α] (first : α) (rest : List α) :
    IsGreatest {x | x ∈ first :: rest} (rest.foldl max first) := by
  induction rest using List.reverseRecOn with
  | nil => exact ⟨List.mem_singleton_self first, fun x member => (List.mem_singleton.mp member).le⟩
  | append_singleton rest last ih =>
    have more : {x | x ∈ first :: (rest ++ [last])} = insert last {x | x ∈ first :: rest} := by
      ext x
      simp only [List.mem_cons, List.mem_append, List.not_mem_nil, or_false, Set.mem_ofPred_eq, Set.mem_insert_iff]
      tauto
    rw [List.foldl_append, List.foldl_cons, List.foldl_nil, more, max_comm]
    exact ih.insert last

theorem foldl_max_perm [LinearOrder α] {first first' : α} {rest rest' : List α}
    (perm : (first' :: rest').Perm (first :: rest)) : rest'.foldl max first' = rest.foldl max first := by
  have greatest := isGreatest_foldl_max first' rest'
  simp only [perm.mem_iff] at greatest
  exact greatest.unique (isGreatest_foldl_max first rest)

end Best
