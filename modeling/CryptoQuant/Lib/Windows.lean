import Mathlib.Algebra.BigOperators.Intervals
import Mathlib.Algebra.Order.Interval.Finset.Basic
import Mathlib.Data.Finset.Pairwise

/-!
# Windows over places

Windows of one size that start at every `step`-th place: how many there are before a bound,
and that windows laid next to each other cover the places between them once. And the sum
over the last places, as it moves on by one place.
-/

namespace Windows
set_option autoImplicit false

section Strided
variable {size step n start : ℕ}

/-- How many windows fit before place `n`, the first of them at `start`. -/
def count (size step n start : ℕ) : ℕ := if start + size ≤ n then (n - size - start) / step + 1 else 0

/-- The windows that fit are the first ones. -/
theorem lt_count_iff (moves : 0 < step) {i : ℕ} : i < count size step n start ↔ start + i * step + size ≤ n := by
  unfold count
  split
  · rename_i fits
    rw [Nat.lt_succ_iff, Nat.le_div_iff_mul_le moves]
    omega
  · rename_i full
    omega

/-- Where the windows start. -/
def starts (size step n start : ℕ) : List ℕ := (List.range (count size step n start)).map fun i => start + i * step

@[simp] theorem length_starts : (starts size step n start).length = count size step n start := by
  rw [starts, List.length_map, List.length_range]

theorem getElem_starts {i : ℕ} (below : i < (starts size step n start).length) : (starts size step n start)[i] = start + i * step := by
  simp only [starts, List.getElem_map, List.getElem_range]

/-- A window that starts there fits. -/
theorem fits_of_mem_starts (moves : 0 < step) {place : ℕ} (member : place ∈ starts size step n start) : place + size ≤ n := by
  obtain ⟨i, below, rfl⟩ := List.mem_map.mp member
  exact (lt_count_iff moves).mp (List.mem_range.mp below)

theorem starts_of_full (full : ¬ start + size ≤ n) : starts size step n start = [] := by
  rw [starts, count, if_neg full]
  rfl

/-- The first window, and the ones from the next place on. -/
theorem starts_of_fits (moves : 0 < step) (fits : start + size ≤ n) :
    starts size step n start = start :: starts size step n (start + step) := by
  have more : count size step n start = count size step n (start + step) + 1 := by
    have first : 0 < count size step n start := (lt_count_iff moves).mpr (by omega)
    have later (i : ℕ) : i + 1 < count size step n start ↔ i < count size step n (start + step) := by
      rw [lt_count_iff moves, lt_count_iff moves, Nat.succ_mul]
      omega
    have least := later (count size step n start - 1)
    have most := later (count size step n (start + step))
    omega
  rw [starts, starts, more, List.range_succ_eq_map, List.map_cons, List.map_map]
  congr 1
  · omega
  · refine List.map_congr_left fun i _ => ?_
    rw [Function.comp_apply, Nat.succ_mul]
    omega

/-- **Tiling.** Windows next to each other cover each place between them once. -/
theorem existsUnique_tile {first count place : ℕ} (least : first ≤ place) (most : place < first + count * size) :
    ∃! i, i < count ∧ place ∈ Finset.Ico (first + i * size) (first + i * size + size) := by
  have positive : 0 < size := by
    rcases Nat.eq_zero_or_pos size with rfl | positive
    · omega
    · exact positive
  have tile (i : ℕ) : place ∈ Finset.Ico (first + i * size) (first + i * size + size) ↔ (place - first) / size = i := by
    rw [Finset.mem_Ico, Nat.div_eq_iff positive]
    omega
  simp only [tile]
  refine ⟨(place - first) / size, ⟨?_, rfl⟩, fun i here => here.2.symm⟩
  rw [Nat.div_lt_iff_lt_mul positive]
  omega

end Strided

section Sums
variable {M : Type} [AddCommGroup M]

/-- **Sliding.** The sum over the last `size` places takes in the next place, and gives up the
one that leaves, once that many are behind. -/
theorem sum_slide (value : ℕ → M) (size i : ℕ) :
    ∑ j ∈ Finset.Ico (i + 1 - size) (i + 1), value j =
      if size ≤ i then ∑ j ∈ Finset.Ico (i - size) i, value j + value i - value (i - size)
      else ∑ j ∈ Finset.Ico (i - size) i, value j + value i := by
  split
  · rename_i full
    have grown : ∑ j ∈ Finset.Ico (i - size) (i + 1), value j = ∑ j ∈ Finset.Ico (i - size) i, value j + value i :=
      Finset.sum_Ico_succ_top (by omega) value
    have left : ∑ j ∈ Finset.Ico (i - size) (i + 1), value j =
        value (i - size) + ∑ j ∈ Finset.Ico (i - size + 1) (i + 1), value j :=
      Finset.sum_eq_sum_Ico_succ_bot (by omega) value
    have place : i + 1 - size = i - size + 1 := by omega
    rw [place, ← grown, left, add_sub_cancel_left]
  · rename_i warming
    have place : i + 1 - size = i - size := by omega
    rw [place]
    apply Finset.sum_Ico_succ_top
    omega

end Sums

end Windows
