import Mathlib.Algebra.Order.Group.Defs
import Mathlib.Algebra.Order.Group.Unbundled.Basic
import Mathlib.Data.List.Basic
import Mathlib.Order.Bounds.Image

/-!
# Drawdown

The falls of a curve are the differences of an earlier and a later value. One pass
over the curve that keeps the highest value and the deepest fall from it finds the
largest of them.
-/

namespace Drawdown
set_option autoImplicit false

variable {K : Type} [AddCommGroup K]

/-- The differences of an earlier value and a later one, or the same. -/
def falls (curve : List K) : Set K :=
  {d | ∃ (i j : ℕ) (x y : K), i ≤ j ∧ curve[i]? = some x ∧ curve[j]? = some y ∧ d = x - y}

theorem falls_singleton (x : K) : falls [x] = {0} := by
  apply Set.eq_of_subset_of_subset
  · rintro d ⟨i, j, y, z, -, first, second, rfl⟩
    have hi := (List.getElem?_eq_some_iff.mp first).1
    have hj := (List.getElem?_eq_some_iff.mp second).1
    obtain ⟨rfl, rfl⟩ : i = 0 ∧ j = 0 := by simp at hi hj; omega
    cases first
    cases second
    exact sub_self _
  · rintro d rfl
    exact ⟨0, 0, x, x, le_rfl, rfl, rfl, (sub_self x).symm⟩

/-- One value more: the falls so far, and those to it. -/
theorem falls_snoc (curve : List K) (x : K) :
    falls (curve ++ [x]) = falls curve ∪ (fun y => y - x) '' {y | y ∈ curve ++ [x]} := by
  apply Set.eq_of_subset_of_subset
  · rintro d ⟨i, j, y, z, le, first, second, rfl⟩
    by_cases before : j < curve.length
    · rw [List.getElem?_append_left (by omega)] at first second
      exact .inl ⟨i, j, y, z, le, first, second, rfl⟩
    · have last : j = curve.length := by
        have := (List.getElem?_eq_some_iff.mp second).1
        simp at this
        omega
      subst last
      rw [List.getElem?_concat_length] at second
      cases second
      exact .inr ⟨y, List.mem_of_getElem? first, rfl⟩
  · rintro d (⟨i, j, y, z, le, first, second, rfl⟩ | ⟨y, member, rfl⟩)
    · have hj := (List.getElem?_eq_some_iff.mp second).1
      refine ⟨i, j, y, z, le, ?_, ?_, rfl⟩
      · rw [List.getElem?_append_left (by omega), first]
      · rw [List.getElem?_append_left hj, second]
    · obtain ⟨i, bound, found⟩ := List.getElem_of_mem member
      refine ⟨i, curve.length, y, x, ?_, ?_, List.getElem?_concat_length, rfl⟩
      · simp at bound
        omega
      · rw [List.getElem?_eq_getElem bound, found]

/-- The falls of a curve are falls of every longer one. -/
theorem falls_subset_append (curve later : List K) : falls curve ⊆ falls (curve ++ later) := by
  rintro d ⟨i, j, x, y, le, first, second, rfl⟩
  have hj := (List.getElem?_eq_some_iff.mp second).1
  refine ⟨i, j, x, y, le, ?_, ?_, rfl⟩
  · rw [List.getElem?_append_left (by omega), first]
  · rw [List.getElem?_append_left hj, second]

variable [LinearOrder K]

/-- The highest value so far, and the deepest fall. -/
structure Watermark (K : Type) where
  peak : K
  deepest : K

/-- The pass over one value. -/
def Watermark.next (w : Watermark K) (x : K) : Watermark K :=
  let peak := if w.peak < x then x else w.peak
  let fall := peak - x
  { peak, deepest := if w.deepest < fall then fall else w.deepest }

/-- The watermark is that of the curve. -/
structure Tracks (curve : List K) (w : Watermark K) : Prop where
  peak : IsGreatest {x | x ∈ curve} w.peak
  deepest : IsGreatest (falls curve) w.deepest

theorem tracks_singleton (x : K) : Tracks [x] ⟨x, 0⟩ where
  peak := by simp
  deepest := by
    rw [falls_singleton]
    exact isGreatest_singleton

variable [IsOrderedAddMonoid K] {curve : List K} {w : Watermark K}

/-- **One value.** -/
theorem Tracks.next (tracks : Tracks curve w) (x : K) : Tracks (curve ++ [x]) (w.next x) := by
  have peak : IsGreatest {y | y ∈ curve ++ [x]} (w.next x).peak := by
    have values : {y | y ∈ curve ++ [x]} = {y | y ∈ curve} ∪ {x} := by
      ext y
      simp [or_comm]
    rw [values]
    show IsGreatest _ (if w.peak < x then x else w.peak)
    rw [← max_def_lt]
    exact tracks.peak.union isGreatest_singleton
  refine ⟨peak, ?_⟩
  rw [falls_snoc]
  show IsGreatest _ (if w.deepest < (w.next x).peak - x then (w.next x).peak - x else w.deepest)
  rw [← max_def_lt]
  apply tracks.deepest.union
  have mono : Monotone fun y => y - x := fun a b le => sub_le_sub_right le x
  exact mono.map_isGreatest peak

end Drawdown
