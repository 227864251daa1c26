import Mathlib.Data.List.Nodup
import Mathlib.Data.Nat.Choose.Basic

/-!
# The pairs of a list

Every two places of a list, the earlier one first, in the order of two nested loops over
the list with its places.
-/

namespace Pairs
set_option autoImplicit false

variable {α : Type}

/-- The pairs of the list. -/
def pairs : List α → List (α × α)
  | [] => []
  | x :: l => l.map (fun y => (x, y)) ++ pairs l

theorem length_pairs (l : List α) : (pairs l).length = l.length.choose 2 := by
  induction l with
  | nil => rfl
  | cons x l ih =>
    rw [pairs, List.length_append, List.length_map, ih, List.length_cons, Nat.choose_succ_succ' l.length 1,
      Nat.choose_one_right]

/-- In an increasing list, the pairs are those in increasing order. -/
theorem mem_pairs {R : α → α → Prop} [Std.Asymm R] {l : List α} (increasing : l.Pairwise R) {a b : α} :
    (a, b) ∈ pairs l ↔ a ∈ l ∧ b ∈ l ∧ R a b := by
  induction increasing with
  | nil => simp [pairs]
  | @cons x l least _ ih =>
    simp only [pairs, List.mem_append, List.mem_map, Prod.mk.injEq, ih, List.mem_cons]
    constructor
    · rintro (⟨y, member, rfl, rfl⟩ | ⟨first, second, less⟩)
      · exact ⟨.inl rfl, .inr member, least y member⟩
      · exact ⟨.inr first, .inr second, less⟩
    · rintro ⟨rfl | first, rfl | second, less⟩
      · exact absurd less (Std.Asymm.asymm _ _ less)
      · exact .inl ⟨b, second, rfl, rfl⟩
      · exact absurd less (Std.Asymm.asymm _ _ (least a first))
      · exact .inr ⟨first, second, less⟩

theorem mem_of_mem_pairs {l : List α} {pair : α × α} (member : pair ∈ pairs l) : pair.1 ∈ l ∧ pair.2 ∈ l := by
  induction l with
  | nil => simp [pairs] at member
  | cons x l ih =>
    rcases List.mem_append.mp member with first | later
    · obtain ⟨y, among, rfl⟩ := List.mem_map.mp first
      exact ⟨List.mem_cons_self, List.mem_cons_of_mem x among⟩
    · obtain ⟨left, right⟩ := ih later
      exact ⟨List.mem_cons_of_mem x left, List.mem_cons_of_mem x right⟩

/-- What holds of all the pairs holds pairwise. -/
theorem forall_mem_pairs {R : α → α → Prop} {l : List α} : (∀ pair ∈ pairs l, R pair.1 pair.2) ↔ l.Pairwise R := by
  induction l with
  | nil => simp [pairs]
  | cons x l ih => rw [pairs, List.forall_mem_append, List.forall_mem_map, ih, List.pairwise_cons]

theorem nodup_pairs {l : List α} (distinct : l.Nodup) : (pairs l).Nodup := by
  induction l with
  | nil => exact List.nodup_nil
  | cons x l ih =>
    obtain ⟨apart, distinct⟩ := List.nodup_cons.mp distinct
    rw [pairs, List.nodup_append]
    refine ⟨distinct.map fun a b same => (Prod.mk.inj same).2, ih distinct, ?_⟩
    rintro pair first _ later rfl
    obtain ⟨y, -, rfl⟩ := List.mem_map.mp first
    exact apart (mem_of_mem_pairs later).1

/-- The places of two nested loops over the list. -/
def grid (l : List (α × ℕ)) : List ((α × ℕ) × (α × ℕ)) := l.flatMap fun left => l.map fun right => (left, right)

theorem mem_grid {l : List (α × ℕ)} {cell : (α × ℕ) × (α × ℕ)} : cell ∈ grid l ↔ cell.1 ∈ l ∧ cell.2 ∈ l := by
  simp only [grid, List.mem_flatMap, List.mem_map]
  constructor
  · rintro ⟨left, first, right, second, rfl⟩
    exact ⟨first, second⟩
  · rintro ⟨first, second⟩
    exact ⟨cell.1, first, cell.2, second, rfl⟩

/-- In a list without repetitions, an item has one place. -/
theorem item_iff_place {l : List α} (distinct : l.Nodup) {left right : α × ℕ} (first : left ∈ l.zipIdx)
    (second : right ∈ l.zipIdx) : left.1 = right.1 ↔ left.2 = right.2 := by
  obtain ⟨bound, here⟩ := List.getElem?_eq_some_iff.mp (List.mem_zipIdx_iff_getElem?.mp first)
  obtain ⟨bound', here'⟩ := List.getElem?_eq_some_iff.mp (List.mem_zipIdx_iff_getElem?.mp second)
  rw [← here, ← here']
  exact distinct.getElem_inj_iff

/-- The places of the grid above the diagonal. -/
def upper (cells : List ((α × ℕ) × (α × ℕ))) : List ((α × ℕ) × (α × ℕ)) := cells.filter fun cell => cell.1.2 < cell.2.2

/-- A first item is on the diagonal or below it, but for its own row. -/
theorem upper_grid_cons {x : α} {k : ℕ} {l : List (α × ℕ)} (later : ∀ item ∈ l, k < item.2) :
    upper (grid ((x, k) :: l)) = l.map (fun right => ((x, k), right)) ++ upper (grid l) := by
  have row : upper (((x, k) :: l).map fun right => ((x, k), right)) = l.map fun right => ((x, k), right) := by
    rw [List.map_cons, upper, List.filter_cons_of_neg (by simp), List.filter_eq_self]
    intro cell member
    obtain ⟨right, among, rfl⟩ := List.mem_map.mp member
    simpa using later right among
  have rows : ∀ left ∈ l, upper (((x, k) :: l).map fun right => (left, right)) = upper (l.map fun right => (left, right)) := by
    intro left member
    have below : ¬ left.2 < k := not_lt.mpr (later left member).le
    rw [List.map_cons, upper, List.filter_cons_of_neg (by simpa using below)]
    rfl
  unfold upper at row rows ⊢
  rw [grid, List.flatMap_cons, List.filter_append, row, List.filter_flatMap, grid, List.filter_flatMap,
    List.flatMap_congr rows]

/-- **The places above the diagonal** are those of the pairs. -/
theorem upper_grid (l : List α) (k : ℕ) :
    (upper (grid (l.zipIdx k))).map (fun cell => (cell.1.1, cell.2.1)) = pairs l := by
  induction l generalizing k with
  | nil => rfl
  | cons x l ih =>
    have later : ∀ item ∈ l.zipIdx (k + 1), k < item.2 := by
      rintro ⟨item, place⟩ member
      exact (List.mem_zipIdx member).1
    rw [List.zipIdx_cons, upper_grid_cons later, List.map_append, ih, List.map_map, pairs]
    congr 1
    conv_rhs => rw [← List.zipIdx_map_fst (k + 1) l, List.map_map]
    rfl

end Pairs
