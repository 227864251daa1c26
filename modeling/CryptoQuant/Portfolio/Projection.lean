import CryptoQuant.Portfolio.MultiStrategy
import CryptoQuant.Lib.Clamp
import CryptoQuant.Lib.Run

/-!
# Projecting weights into their bounds

`_project_weights` clamps and rescales. When the clipped weights have too small a sum,
only the upper bound is ever passed, when it is too large, only the lower one, so the
loop is clamping and rescaling under one bound, the lower one with all signs changed.
-/

namespace CryptoQuant.Portfolio
set_option autoImplicit false

open Clamp

variable {K : Type} [Field K] [LinearOrder K] [IsStrictOrderedRing K]

section Loop
variable {minW maxW : K} {l : List K}

/-- Above the lower bound a pass is a round under the upper one. -/
theorem redistribute_upper (level : Level maxW 1 l) (above : ∀ w ∈ l, minW ≤ w) :
    redistribute minW maxW l = Clamp.round maxW 1 l := by
  have outside_ : ∀ w ∈ l, outside minW maxW w = decide (maxW < w) := by
    intro w member
    simp [outside, not_lt.mpr (above w member)]
  have fixed : l.filter (outside minW maxW) = past maxW l := List.filter_congr outside_
  have others : (l.filter fun w => !outside minW maxW w) = free maxW l :=
    List.filter_congr fun w member => by rw [outside_ w member]
  have bounds : (past maxW l).map (fun w => if w < minW then minW else if maxW < w then maxW else w) =
      List.replicate (past maxW l).length maxW := by
    refine List.map_eq_replicate_iff.mpr fun w member => ?_
    obtain ⟨inside, beyond⟩ := mem_past.mp member
    rw [if_neg (not_lt.mpr (above w inside)), if_pos beyond]
  have nonneg : 0 ≤ (free maxW l).sum := by simpa using level.free_sign
  have none_iff : (free maxW l).sum ≤ 0 ↔ (free maxW l).sum = 0 := ⟨fun low => le_antisymm low nonneg, fun none_ => none_.le⟩
  unfold redistribute Clamp.round share left
  simp only [fixed, others, bounds, List.sum_replicate, nsmul_eq_mul, none_iff]
  refine List.map_congr_left fun w member => ?_
  rw [outside_ w member, mul_comm ((past maxW l).length : K)]
  by_cases beyond : maxW < w
  · rw [if_pos (decide_eq_true beyond), if_pos beyond, if_neg (not_lt.mpr (above w member)), if_pos beyond]
  · rw [if_neg (by simpa using beyond), if_neg beyond]

/-- The list with all signs changed. -/
def negated (l : List K) : List K := l.map fun w => -w

omit [LinearOrder K] [IsStrictOrderedRing K] in
theorem negated_negated (l : List K) : negated (negated l) = l := by
  unfold negated
  simp

omit [LinearOrder K] [IsStrictOrderedRing K] in
theorem sum_negated (l : List K) : (negated l).sum = -l.sum := by
  unfold negated
  induction l with
  | nil => simp
  | cons w l ih => rw [List.map_cons, List.sum_cons, List.sum_cons, ih, neg_add]

omit [LinearOrder K] [IsStrictOrderedRing K] in
theorem forall_mem_negated {p : K → Prop} : (∀ x ∈ negated l, p x) ↔ ∀ w ∈ l, p (-w) := by
  unfold negated
  simp only [List.mem_map, forall_exists_index, and_imp, forall_apply_eq_imp_iff₂]

theorem past_negated : past (-minW) (negated l) = negated (l.filter fun w => decide (w < minW)) := by
  unfold past negated
  rw [List.filter_map]
  simp only [Function.comp_def, neg_lt_neg_iff]

theorem free_negated : free (-minW) (negated l) = negated (l.filter fun w => !decide (w < minW)) := by
  unfold free negated
  rw [List.filter_map]
  simp only [Function.comp_def, neg_lt_neg_iff]

/-- Below the upper bound a pass is a round under the lower one, with all signs changed. -/
theorem redistribute_lower (level : Level (-minW) (-1) (negated l)) (below : ∀ w ∈ l, w ≤ maxW) :
    redistribute minW maxW l = negated (Clamp.round (-minW) (-1) (negated l)) := by
  have outside_ : ∀ w ∈ l, outside minW maxW w = decide (w < minW) := by
    intro w member
    simp [outside, not_lt.mpr (below w member)]
  have fixed : l.filter (outside minW maxW) = l.filter fun w => decide (w < minW) := List.filter_congr outside_
  have others : (l.filter fun w => !outside minW maxW w) = l.filter fun w => !decide (w < minW) :=
    List.filter_congr fun w member => by rw [outside_ w member]
  have bounds : (l.filter fun w => decide (w < minW)).map (fun w => if w < minW then minW else if maxW < w then maxW else w) =
      List.replicate (l.filter fun w => decide (w < minW)).length minW := by
    refine List.map_eq_replicate_iff.mpr fun w member => ?_
    rw [if_pos (by simpa using (List.mem_filter.mp member).2)]
  have free_ := level.free_sign
  rw [free_negated, sum_negated, neg_mul_neg, one_mul] at free_
  have none_iff : (l.filter fun w => !decide (w < minW)).sum ≤ 0 ↔ -(l.filter fun w => !decide (w < minW)).sum = 0 :=
    ⟨fun low => neg_eq_zero.mpr (le_antisymm low free_), fun none_ => (neg_eq_zero.mp none_).le⟩
  unfold redistribute Clamp.round share left
  simp only [fixed, others, bounds, List.sum_replicate, nsmul_eq_mul, none_iff, past_negated, free_negated, sum_negated]
  unfold negated
  simp only [List.map_map, List.length_map]
  refine List.map_congr_left fun w member => ?_
  rw [outside_ w member, Function.comp_apply, Function.comp_apply]
  by_cases beyond : w < minW
  · rw [if_pos (decide_eq_true beyond), if_pos beyond, if_pos (neg_lt_neg beyond), neg_neg]
  · have inside : ¬ decide (w < minW) = true := by simpa using beyond
    have inside' : ¬ -minW < -w := fun lower => beyond (neg_lt_neg_iff.mp lower)
    rw [if_neg inside, if_neg inside']
    split
    · ring
    · rw [div_neg]
      ring

/-- Above the lower bound the loop is rounds under the upper one. -/
theorem redistributions_upper (level : Level maxW 1 l) (low : minW ≤ maxW) (above : ∀ w ∈ l, minW ≤ w) (n : ℕ) :
    redistributions minW maxW n l = rounds maxW 1 n l := by
  induction n generalizing l with
  | zero => rfl
  | succ n ih =>
    have inside : (l.all fun w => !outside minW maxW w) = true ↔ ∀ w ∈ l, w ≤ maxW := by
      simp only [List.all_eq_true]
      refine forall₂_congr fun w member => ?_
      simp [outside, above w member]
    have some_ : ¬ l.all (outside minW maxW) = true := by
      intro all
      obtain ⟨w, free_⟩ := List.exists_mem_of_ne_nil _ level.free_ne_nil
      obtain ⟨member, within⟩ := mem_free.mp free_
      have out := List.all_eq_true.mp all w member
      simp [outside, not_lt.mpr (above w member), not_lt.mpr within] at out
    rw [redistributions, rounds, if_neg some_, redistribute_upper level above,
      ih level.round (level.le_round low above)]
    exact if_congr inside rfl rfl

/-- Below the upper bound the loop is rounds under the lower one, with all signs changed. -/
theorem redistributions_lower (level : Level (-minW) (-1) (negated l)) (low : minW ≤ maxW) (below : ∀ w ∈ l, w ≤ maxW)
    (n : ℕ) : redistributions minW maxW n l = negated (rounds (-minW) (-1) n (negated l)) := by
  induction n generalizing l with
  | zero => exact (negated_negated l).symm
  | succ n ih =>
    have inside : (l.all fun w => !outside minW maxW w) = true ↔ ∀ w ∈ negated l, w ≤ -minW := by
      rw [List.all_eq_true, forall_mem_negated]
      refine forall₂_congr fun w member => ?_
      simp [outside, below w member]
    have some_ : ¬ l.all (outside minW maxW) = true := by
      intro all
      obtain ⟨v, free_⟩ := List.exists_mem_of_ne_nil _ level.free_ne_nil
      obtain ⟨there, within⟩ := mem_free.mp free_
      obtain ⟨w, member, rfl⟩ := List.mem_map.mp there
      have out := List.all_eq_true.mp all w member
      simp [outside, not_lt.mpr (below w member), not_lt.mpr (neg_le_neg_iff.mp within)] at out
    have round_ : negated (redistribute minW maxW l) = Clamp.round (-minW) (-1) (negated l) := by
      rw [redistribute_lower level below, negated_negated]
    have above : ∀ x ∈ negated l, -maxW ≤ x :=
      forall_mem_negated.mpr fun w member => neg_le_neg (below w member)
    have below' : ∀ w ∈ redistribute minW maxW l, w ≤ maxW := by
      intro w member
      have kept := level.le_round (neg_le_neg low) above (-w) (by rw [← round_]; exact List.mem_map_of_mem member)
      exact neg_le_neg_iff.mp kept
    rw [redistributions, rounds, if_neg some_, ih (round_ ▸ level.round) below', round_]
    by_cases all : ∀ w ∈ negated l, w ≤ -minW
    · rw [if_pos all, if_pos (inside.mpr all), negated_negated]
    · rw [if_neg all, if_neg (mt inside.mp all)]

end Loop

section Project
variable {minW maxW : K} {weights : List K}

/-- Bounds that so many weights can meet with a sum of one. -/
structure FeasibleBounds (n : ℕ) (minW maxW : K) : Prop where
  nonneg : 0 ≤ minW
  ordered : minW ≤ maxW
  lower : n * minW ≤ 1
  upper : 1 ≤ n * maxW

/-- The clipped weights. -/
def clipped (weights : List K) (minW maxW : K) : List K := weights.map fun w => min (max w minW) maxW

/-- The clipped weights, divided by their sum. -/
def normalized (weights : List K) (minW maxW : K) : List K :=
  (clipped weights minW maxW).map (· / (clipped weights minW maxW).sum)

/-- With the normalized weights beyond a bound put on it, the others can be rescaled
to the rest and stay within the bounds. -/
def Settles (weights : List K) (minW maxW : K) : Prop :=
  let weights := normalized weights minW maxW
  let remainder := 1 - maxW * (weights.filter fun w => decide (maxW < w)).length -
    minW * (weights.filter fun w => decide (w < minW)).length
  let freeTotal := (weights.filter fun w => !outside minW maxW w).sum
  ∀ w ∈ weights, minW ≤ w → w ≤ maxW → minW * freeTotal ≤ w * remainder ∧ w * remainder ≤ maxW * freeTotal

omit [Field K] [IsStrictOrderedRing K] in
theorem mem_clipped {w : K} (ordered : minW ≤ maxW) (member : w ∈ clipped weights minW maxW) : minW ≤ w ∧ w ≤ maxW := by
  unfold clipped at member
  obtain ⟨v, -, rfl⟩ := List.mem_map.mp member
  exact ⟨le_min (le_max_right v minW) ordered, min_le_right _ maxW⟩

omit [IsStrictOrderedRing K] in
theorem sum_normalized (nonzero : (clipped weights minW maxW).sum ≠ 0) : (normalized weights minW maxW).sum = 1 := by
  have parts := Shares.sum_proportional (1 : K) id (l := clipped weights minW maxW) (by rwa [List.map_id])
  rw [List.map_id] at parts
  unfold normalized
  simpa using parts

omit [IsStrictOrderedRing K] in
theorem length_normalized : (normalized weights minW maxW).length = weights.length := by
  simp [normalized, clipped]

omit [IsStrictOrderedRing K] in
theorem mem_normalized {w : K} (member : w ∈ normalized weights minW maxW) :
    ∃ c ∈ clipped weights minW maxW, c / (clipped weights minW maxW).sum = w :=
  List.mem_map.mp member

omit [IsStrictOrderedRing K] in
theorem projectWeights_def : projectWeights weights minW maxW =
    if (clipped weights minW maxW).sum ≤ 0 then
      (clipped weights minW maxW).map fun _ => 1 / ((clipped weights minW maxW).length : K)
    else (redistributions minW maxW 8 (normalized weights minW maxW)).map
      (· / (redistributions minW maxW 8 (normalized weights minW maxW)).sum) := rfl

omit [IsStrictOrderedRing K] in
/-- The weights are divided by one at the end. -/
theorem projectWeights_eq (positive : 0 < (clipped weights minW maxW).sum) {l : List K}
    (loop : redistributions minW maxW 8 (normalized weights minW maxW) = l) (sum : l.sum = 1) :
    projectWeights weights minW maxW = l := by
  rw [projectWeights_def, if_neg (not_le.mpr positive), loop, sum]
  simp

/-- What the projection of weights gives: a sum of one, and weights within the bounds
exactly when they settle. -/
structure ProjectedWeights (weights : List K) (minW maxW : K) : Prop where
  sum : (projectWeights weights minW maxW).sum = 1
  within_iff : (∀ w ∈ projectWeights weights minW maxW, minW ≤ w ∧ w ≤ maxW) ↔ Settles weights minW maxW

section Upper

/-- The clipped weights have too small a sum: none is below the lower bound. -/
theorem le_normalized (feasible : FeasibleBounds weights.length minW maxW) (positive : 0 < (clipped weights minW maxW).sum)
    (small : (clipped weights minW maxW).sum ≤ 1) : ∀ w ∈ normalized weights minW maxW, minW ≤ w := by
  intro w member
  obtain ⟨c, inside, rfl⟩ := mem_normalized member
  have least := (mem_clipped feasible.ordered inside).1
  exact least.trans (le_div_self (feasible.nonneg.trans least) positive small)

theorem level_normalized (feasible : FeasibleBounds weights.length minW maxW)
    (positive : 0 < (clipped weights minW maxW).sum) (above : ∀ w ∈ normalized weights minW maxW, minW ≤ w) :
    Level maxW 1 (normalized weights minW maxW) := by
  refine ⟨sum_normalized positive.ne', one_ne_zero, ?_, ?_⟩
  · intro w member
    rw [one_mul]
    exact feasible.nonneg.trans (above w member)
  · rw [length_normalized, mul_comm]
    exact feasible.upper

/-- Settling is what the first round decides. -/
theorem settles_iff_round_le (level : Level maxW 1 (normalized weights minW maxW)) (nonneg : 0 ≤ minW)
    (above : ∀ w ∈ normalized weights minW maxW, minW ≤ w) :
    Settles weights minW maxW ↔ ∀ w ∈ Clamp.round maxW 1 (normalized weights minW maxW), w ≤ maxW := by
  have none_ : (normalized weights minW maxW).filter (fun w => decide (w < minW)) = [] :=
    List.filter_eq_nil_iff.mpr fun w member => by simpa using above w member
  have free_ : (normalized weights minW maxW).filter (fun w => !outside minW maxW w) =
      free maxW (normalized weights minW maxW) := by
    refine List.filter_congr fun w member => ?_
    simp [outside, not_lt.mpr (above w member)]
  rw [level.round_le_iff]
  unfold Settles
  simp only [none_, free_, List.length_nil, Nat.cast_zero, mul_zero, sub_zero, one_mul]
  refine forall₂_congr fun w member => ?_
  have sum : 0 ≤ (free maxW (normalized weights minW maxW)).sum := by simpa using level.free_sign
  have lower : minW * (free maxW (normalized weights minW maxW)).sum ≤ w * left maxW 1 (normalized weights minW maxW) :=
    (mul_le_mul_of_nonneg_right (above w member) sum).trans
      (mul_le_mul_of_nonneg_left level.le_left (nonneg.trans (above w member)))
  exact ⟨fun fits within => (fits (above w member) within).2, fun fits _ within => ⟨lower, fits within⟩⟩

theorem projected_upper (feasible : FeasibleBounds weights.length minW maxW) (positive : 0 < (clipped weights minW maxW).sum)
    (small : (clipped weights minW maxW).sum ≤ 1) : ProjectedWeights weights minW maxW := by
  have above := le_normalized feasible positive small
  have level := level_normalized feasible positive above
  obtain ⟨after, kept⟩ := level.rounds feasible.ordered above 8
  have result := projectWeights_eq positive (redistributions_upper level feasible.ordered above 8) after.sum
  refine ⟨result ▸ after.sum, ?_⟩
  rw [result, settles_iff_round_le level feasible.nonneg above, ← level.rounds_le_iff 7]
  exact forall₂_congr fun w member => and_iff_right (kept w member)

end Upper

section Lower

/-- The clipped weights have too large a sum: none is above the upper bound. -/
theorem normalized_le (feasible : FeasibleBounds weights.length minW maxW) (large : 1 ≤ (clipped weights minW maxW).sum) :
    ∀ w ∈ normalized weights minW maxW, 0 ≤ w ∧ w ≤ maxW := by
  intro w member
  obtain ⟨c, inside, rfl⟩ := mem_normalized member
  obtain ⟨least, most⟩ := mem_clipped feasible.ordered inside
  have nonneg := feasible.nonneg.trans least
  exact ⟨div_nonneg nonneg (one_pos.trans_le large).le, (div_le_self nonneg large).trans most⟩

theorem level_negated (feasible : FeasibleBounds weights.length minW maxW)
    (positive : 0 < (clipped weights minW maxW).sum) (signs : ∀ w ∈ normalized weights minW maxW, 0 ≤ w) :
    Level (-minW) (-1) (negated (normalized weights minW maxW)) := by
  refine ⟨by rw [sum_negated, sum_normalized positive.ne'], neg_ne_zero.mpr one_ne_zero, ?_, ?_⟩
  · refine forall_mem_negated.mpr fun w member => ?_
    rw [neg_mul_neg, one_mul]
    exact signs w member
  · rw [negated, List.length_map, length_normalized, neg_mul, neg_le_neg_iff, mul_comm]
    exact feasible.lower

/-- Settling is what the first round decides, with all signs changed. -/
theorem settles_iff_round_negated_le (level : Level (-minW) (-1) (negated (normalized weights minW maxW)))
    (signs : ∀ w ∈ normalized weights minW maxW, 0 ≤ w ∧ w ≤ maxW) :
    Settles weights minW maxW ↔ ∀ x ∈ Clamp.round (-minW) (-1) (negated (normalized weights minW maxW)), x ≤ -minW := by
  have none_ : (normalized weights minW maxW).filter (fun w => decide (maxW < w)) = [] :=
    List.filter_eq_nil_iff.mpr fun w member => by simpa using (signs w member).2
  have free_ : (normalized weights minW maxW).filter (fun w => !outside minW maxW w) =
      (normalized weights minW maxW).filter fun w => !decide (w < minW) := by
    refine List.filter_congr fun w member => ?_
    simp [outside, not_lt.mpr (signs w member).2]
  have more := level.le_left
  have sign := level.free_sign
  rw [level.round_le_iff, forall_mem_negated]
  unfold Settles
  simp only [none_, free_, List.length_nil, Nat.cast_zero, mul_zero, sub_zero]
  unfold left at more ⊢
  rw [free_negated, sum_negated, past_negated] at more ⊢
  rw [free_negated, sum_negated, neg_mul_neg, one_mul] at sign
  rw [show ∀ l : List K, (negated l).length = l.length from fun l => List.length_map _] at more ⊢
  generalize ((normalized weights minW maxW).filter fun w => !decide (w < minW)).sum = freeTotal at more sign ⊢
  generalize (((normalized weights minW maxW).filter fun w => decide (w < minW)).length : K) = lifted at more ⊢
  have less : 1 - minW * lifted ≤ freeTotal := by linarith
  refine forall₂_congr fun w member => ?_
  obtain ⟨nonneg, most⟩ := signs w member
  have upper : w * (1 - minW * lifted) ≤ maxW * freeTotal :=
    (mul_le_mul_of_nonneg_left less nonneg).trans (mul_le_mul_of_nonneg_right most sign)
  have fits_iff : -1 * (-w * (-1 - -minW * lifted)) ≤ -1 * (-minW * -freeTotal) ↔
      minW * freeTotal ≤ w * (1 - minW * lifted) := by
    constructor <;> intro fits <;> linarith
  rw [neg_le_neg_iff, fits_iff]
  exact ⟨fun fits inside => (fits inside most).1, fun fits inside _ => ⟨fits inside, upper⟩⟩

theorem projected_lower (feasible : FeasibleBounds weights.length minW maxW) (large : 1 ≤ (clipped weights minW maxW).sum) :
    ProjectedWeights weights minW maxW := by
  have positive := one_pos.trans_le large
  have signs := normalized_le feasible large
  have below : ∀ w ∈ normalized weights minW maxW, w ≤ maxW := fun w member => (signs w member).2
  have level := level_negated feasible positive fun w member => (signs w member).1
  have above : ∀ x ∈ negated (normalized weights minW maxW), -maxW ≤ x :=
    forall_mem_negated.mpr fun w member => neg_le_neg (below w member)
  obtain ⟨after, kept⟩ := level.rounds (neg_le_neg feasible.ordered) above 8
  have sum : (negated (rounds (-minW) (-1) 8 (negated (normalized weights minW maxW)))).sum = 1 := by
    rw [sum_negated, after.sum, neg_neg]
  have result := projectWeights_eq positive (redistributions_lower level feasible.ordered below 8) sum
  refine ⟨result ▸ sum, ?_⟩
  rw [result, settles_iff_round_negated_le level signs, ← level.rounds_le_iff 7, forall_mem_negated]
  refine forall₂_congr fun x member => ?_
  rw [le_neg, and_iff_left (neg_le.mp (kept x member))]

end Lower

/-- Without any positive weight the shares are even. -/
theorem projected_even (feasible : FeasibleBounds weights.length minW maxW) (none_ : (clipped weights minW maxW).sum ≤ 0) :
    ProjectedWeights weights minW maxW := by
  have nonneg : ∀ w ∈ clipped weights minW maxW, 0 ≤ w :=
    fun w member => feasible.nonneg.trans (mem_clipped feasible.ordered member).1
  have zero : (clipped weights minW maxW).sum = 0 := le_antisymm none_ (List.sum_nonneg nonneg)
  have length : (clipped weights minW maxW).length = weights.length := List.length_map _
  have some_ : weights.length ≠ 0 := by
    intro empty
    have upper := feasible.upper
    rw [empty, Nat.cast_zero, zero_mul] at upper
    exact absurd upper (not_le.mpr one_pos)
  have count : (0 : K) < weights.length := Nat.cast_pos.mpr (Nat.pos_of_ne_zero some_)
  have nonempty : clipped weights minW maxW ≠ [] := fun empty => some_ (by rw [← length, empty, List.length_nil])
  have even : projectWeights weights minW maxW =
      (clipped weights minW maxW).map fun _ => 1 / ((clipped weights minW maxW).length : K) := by
    rw [projectWeights_def, if_pos none_]
  refine ⟨by rw [even]; exact Shares.sum_even 1 nonempty, iff_of_true ?_ ?_⟩
  · rw [even]
    simp only [List.mem_map, length]
    rintro _ ⟨w, -, rfl⟩
    rw [le_div_iff₀ count, div_le_iff₀ count, mul_comm, mul_comm maxW]
    exact ⟨feasible.lower, feasible.upper⟩
  · have zeros : ∀ w ∈ normalized weights minW maxW, w = 0 := by
      intro w member
      obtain ⟨c, -, rfl⟩ := mem_normalized member
      rw [zero, div_zero]
    have nothing : ((normalized weights minW maxW).filter fun w => !outside minW maxW w).sum = 0 :=
      List.sum_eq_zero fun w member => zeros w (List.mem_filter.mp member).1
    intro w member _ _
    rw [nothing, zeros w member, mul_zero, zero_mul, mul_zero]
    exact ⟨le_rfl, le_rfl⟩

/-- **The projection** of any weights under feasible bounds. -/
theorem projected (feasible : FeasibleBounds weights.length minW maxW) : ProjectedWeights weights minW maxW := by
  by_cases none_ : (clipped weights minW maxW).sum ≤ 0
  · exact projected_even feasible none_
  rcases le_total (clipped weights minW maxW).sum 1 with small | large
  · exact projected_upper feasible (not_le.mp none_) small
  · exact projected_lower feasible large

end Project

section Optimizer

omit [IsStrictOrderedRing K] in
theorem length_redistributions (minW maxW : K) (n : ℕ) (l : List K) : (redistributions minW maxW n l).length = l.length := by
  have length_redistribute : ∀ l : List K, (redistribute minW maxW l).length = l.length := fun l => List.length_map _
  induction n generalizing l with
  | zero => rfl
  | succ n ih =>
    rw [redistributions]
    split
    · rfl
    · split
      · exact length_redistribute l
      · rw [ih, length_redistribute]

omit [IsStrictOrderedRing K] in
theorem length_projectWeights (weights : List K) (minW maxW : K) :
    (projectWeights weights minW maxW).length = weights.length := by
  rw [projectWeights_def]
  split
  · simp [clipped]
  · rw [List.length_map, length_redistributions, length_normalized]

/-- The vector that an iteration projects. -/
def stepped (means : List K) (cov : List (List K)) (config : OptimizationConfig K) (weights : List K) : List K :=
  List.zipWith (fun w g => w + config.learningRate * g) weights (objectiveGradient weights means cov config.riskAversion)

omit [IsStrictOrderedRing K] in
theorem iterate_eq (means weights : List K) (cov : List (List K)) (config : OptimizationConfig K) :
    iterate means cov config weights =
      projectWeights (stepped means cov config weights) config.minWeight config.maxWeight := rfl

omit [LinearOrder K] [IsStrictOrderedRing K] in
theorem length_stepped {means weights : List K} {cov : List (List K)} (config : OptimizationConfig K)
    (means_ : means.length = weights.length) (cov_ : cov.length = weights.length) :
    (stepped means cov config weights).length = weights.length := by
  simp [stepped, objectiveGradient, means_, cov_]

omit [IsStrictOrderedRing K] in
theorem length_iterations {means weights : List K} {cov : List (List K)} (config : OptimizationConfig K)
    (means_ : means.length = weights.length) (cov_ : cov.length = weights.length) (n : ℕ) :
    ((iterate means cov config)^[n] weights).length = weights.length := by
  induction n with
  | zero => rfl
  | succ n ih =>
    rw [Function.iterate_succ_apply', iterate_eq, length_projectWeights,
      length_stepped config (means_.trans ih.symm) (cov_.trans ih.symm), ih]

/-- The vector that the last iteration over a history projects. -/
def lastStepped (strategyReturns : Py.Dict String (List K)) (config : OptimizationConfig K) : List K :=
  let names := sortedNames strategyReturns.keys
  let matrix := names.map fun name => strategyReturns.getD name []
  let equal := List.replicate names.length (1 / (names.length : K))
  stepped (matrix.map mean) (covarianceMatrix matrix) config
    ((iterate (matrix.map mean) (covarianceMatrix matrix) config)^[config.iterations.toNat - 1] equal)

theorem length_lastStepped (strategyReturns : Py.Dict String (List K)) (config : OptimizationConfig K) :
    (lastStepped strategyReturns config).length = strategyReturns.keys.length := by
  have sorted : (sortedNames strategyReturns.keys).length = strategyReturns.keys.length :=
    (List.perm_insertionSort _ _).length_eq
  unfold lastStepped
  rw [length_stepped, length_iterations, List.length_replicate, sorted]
  all_goals simp [length_iterations, covarianceMatrix]

omit [LinearOrder K] [IsStrictOrderedRing K] in
/-- Looking names up in a list of pairs gives back the list. -/
theorem map_lookup_zip {names : List String} (distinct : names.Nodup) {weights : List K}
    (length : weights.length = names.length) :
    (names.map fun name => ((names.zip weights).lookup name).getD 0) = weights := by
  induction names generalizing weights with
  | nil => exact (List.length_eq_zero_iff.mp length).symm
  | cons name names ih =>
    obtain ⟨w, weights, rfl⟩ := List.exists_cons_of_length_eq_add_one length
    obtain ⟨apart, distinct⟩ := List.nodup_cons.mp distinct
    have rest : (names.map fun other => (((name :: names).zip (w :: weights)).lookup other).getD 0) = weights := by
      refine (List.map_congr_left fun other member => ?_).trans (ih distinct (Nat.succ.inj length))
      have differs : (other == name) = false := by
        rw [beq_eq_false_iff_ne]
        rintro rfl
        exact apart member
      rw [List.zip_cons_cons, List.lookup_cons, differs]
    rw [List.map_cons, rest]
    simp

/-- The weights that the optimizer returns are the last projection. -/
theorem optimizeStrategyWeights_values {sqrt : K → K} {strategyReturns : Py.Dict String (List K)}
    {config : OptimizationConfig K} {result : OptimizationResult K}
    (returned : optimizeStrategyWeights sqrt strategyReturns config = .ok result) :
    result.weights.values = projectWeights (lastStepped strategyReturns config) config.minWeight config.maxWeight := by
  have length := length_lastStepped strategyReturns config
  unfold optimizeStrategyWeights at returned
  simp only [Run.bind_ok, raiseIf_ok] at returned
  obtain ⟨-, -, -, -, -, iterations, -, -, -, -, -, -, same⟩ := returned
  obtain rfl := Except.ok.inj same
  have distinct := nodup_sortedNames strategyReturns
  have last : config.iterations.toNat = config.iterations.toNat - 1 + 1 := by omega
  dsimp only
  rw [last, Function.iterate_succ_apply', iterate_eq, Py.Dict.values_ofKeys distinct]
  exact map_lookup_zip distinct ((length_projectWeights _ _ _).trans (length.trans (sortedNames_perm _).length_eq.symm))

end Optimizer

end CryptoQuant.Portfolio
