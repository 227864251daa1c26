import Mathlib.Algebra.BigOperators.Ring.List
import Mathlib.Algebra.Order.BigOperators.Group.List
import Mathlib.Algebra.Order.Field.Basic
import Mathlib.Tactic.Linarith

/-!
# Levels

A total is filled up in proportion to a base, and some of the names are fixed on a
bound: the weights of the others are a level times their base. A round that fixes the
names past the bound, and releases the ones that were fixed, finds another level. If
it leaves a name past the bound twice, then so does every later round: each level is
short of the one at which no name would be past the bound.

The bound is an upper one when the sign is 1, and a lower one when it is -1.
-/

namespace WaterLevel
set_option autoImplicit false

variable {α K : Type} [Field K] [LinearOrder K]

section Defs
variable (names : List α) (base : α → K) (sign bound total : K)

/-- Past the bound. -/
def Past (x : K) : Prop := sign * bound < sign * x

instance : DecidablePred (Past sign bound) := fun _ => inferInstanceAs (Decidable (_ < _))

/-- A number, or the bound if the number is past it. -/
def capped (x : K) : K := if Past sign bound x then bound else x

/-- The weights at a level. -/
def weight (fixed : α → Bool) (level : K) (a : α) : K := if fixed a then bound else level * base a

/-- The level at which the weights add up to the total. -/
def IsLevel (fixed : α → Bool) (level : K) : Prop := (names.map (weight base bound fixed level)).sum = total

/-- The names that are past the bound and not fixed. -/
def pastNow (fixed : α → Bool) (level : K) (a : α) : Bool := !fixed a && decide (Past sign bound (level * base a))

/-- Two rounds that end with a name past the bound: the names `fixed` by the second
were past the bound at the `last` level, and another one is at this `level`. -/
structure Unsettled (before fixed : α → Bool) (last level : K) : Prop where
  levelThen : IsLevel names base bound total before last
  levelNow : IsLevel names base bound total fixed level
  released : ∀ a ∈ names, fixed a → ¬ before a ∧ Past sign bound (last * base a)
  some_fixed : ∃ a ∈ names, fixed a
  some_past : ∃ a ∈ names, pastNow base sign bound fixed level a

end Defs

variable {names : List α} {base : α → K} {sign bound total : K}

theorem sign_capped_le_bound (x : K) : sign * capped sign bound x ≤ sign * bound := by
  unfold capped
  split
  · exact le_rfl
  · exact not_lt.mp ‹_›

theorem sign_capped_le (x : K) : sign * capped sign bound x ≤ sign * x := by
  unfold capped
  split
  · exact le_of_lt ‹_›
  · exact le_rfl

theorem pastNow_iff {fixed : α → Bool} {level : K} {a : α} :
    pastNow base sign bound fixed level a ↔ ¬ fixed a ∧ Past sign bound (level * base a) := by
  simp [pastNow]

variable [IsStrictOrderedRing K]

/-- Sums of weights compare as the weights do. -/
theorem sum_lt {f g : α → K} (le : ∀ a ∈ names, sign * f a ≤ sign * g a) (lt : ∃ a ∈ names, sign * f a < sign * g a) :
    sign * (names.map f).sum < sign * (names.map g).sum := by
  rw [← List.sum_map_mul_left, ← List.sum_map_mul_left]
  exact List.sum_lt_sum _ _ le lt

theorem sum_le {f g : α → K} (le : ∀ a ∈ names, sign * f a ≤ sign * g a) :
    sign * (names.map f).sum ≤ sign * (names.map g).sum := by
  rw [← List.sum_map_mul_left, ← List.sum_map_mul_left]
  exact List.sum_le_sum le

/-- **No level is beyond one that is enough**: at which the capped weights reach the
total. -/
theorem IsLevel.le {fixed : α → Bool} {level other : K} (isLevel : IsLevel names base bound total fixed level)
    (positive : ∀ a ∈ names, 0 < base a) (some_ : ∃ a ∈ names, ¬ fixed a)
    (enough : sign * total ≤ sign * (names.map fun a => capped sign bound (other * base a)).sum) :
    sign * level ≤ sign * other := by
  by_contra beyond
  have beyond : sign * other < sign * level := not_le.mp beyond
  have less : sign * (names.map fun a => capped sign bound (other * base a)).sum <
      sign * (names.map (weight base bound fixed level)).sum := by
    have step : ∀ a, sign * capped sign bound (other * base a) ≤ sign * other * base a := fun a => by
      rw [mul_assoc]
      exact sign_capped_le _
    refine sum_lt (fun a member => ?_) ?_
    · unfold weight
      split
      · exact sign_capped_le_bound _
      · rw [← mul_assoc]
        exact (step a).trans (mul_le_mul_of_nonneg_right beyond.le (positive a member).le)
    · obtain ⟨a, member, free⟩ := some_
      refine ⟨a, member, ?_⟩
      rw [weight, if_neg free, ← mul_assoc]
      exact (step a).trans_lt (mul_lt_mul_of_pos_right beyond (positive a member))
  rw [isLevel] at less
  exact absurd enough (not_le.mpr less)

namespace Unsettled
variable {before fixed : α → Bool} {last level next : K}

/-- If the next round left no name past the bound, its level would be no less than
this one. -/
theorem level_le (stage : Unsettled names base sign bound total before fixed last level)
    (positive : ∀ a ∈ names, 0 < base a)
    (isLevel : IsLevel names base bound total (pastNow base sign bound fixed level) next)
    (none_ : ∀ a ∈ names, ¬ pastNow base sign bound fixed level a → ¬ Past sign bound (next * base a)) :
    sign * level ≤ sign * next := by
  by_contra beyond
  have beyond : sign * next < sign * level := not_le.mp beyond
  have less : sign * (names.map (weight base bound (pastNow base sign bound fixed level) next)).sum <
      sign * (names.map (weight base bound fixed level)).sum := by
    refine sum_lt (fun a member => ?_) ?_
    · by_cases past : pastNow base sign bound fixed level a
      · obtain ⟨free, past_⟩ := pastNow_iff.mp past
        rw [weight, weight, if_pos past, if_neg free]
        exact past_.le
      · rw [weight, weight, if_neg past]
        split
        · exact not_lt.mp (none_ a member past)
        · rw [← mul_assoc, ← mul_assoc]
          exact mul_le_mul_of_nonneg_right beyond.le (positive a member).le
    · obtain ⟨a, member, past⟩ := stage.some_past
      obtain ⟨free, past_⟩ := pastNow_iff.mp past
      refine ⟨a, member, ?_⟩
      rw [weight, weight, if_pos past, if_neg free]
      exact past_
  rw [isLevel, stage.levelNow] at less
  exact lt_irrefl _ less

/-- **A round from an unsettled stage is unsettled.** -/
theorem round (stage : Unsettled names base sign bound total before fixed last level)
    (positive : ∀ a ∈ names, 0 < base a)
    (isLevel : IsLevel names base bound total (pastNow base sign bound fixed level) next) :
    Unsettled names base sign bound total fixed (pastNow base sign bound fixed level) level next := by
  refine ⟨stage.levelNow, isLevel, fun a _ past => pastNow_iff.mp past, stage.some_past, ?_⟩
  by_contra settled
  have none_ : ∀ a ∈ names, ¬ pastNow base sign bound fixed level a → ¬ Past sign bound (next * base a) :=
    fun a member free past => settled ⟨a, member, pastNow_iff.mpr ⟨free, past⟩⟩
  have higher := stage.level_le positive isLevel none_
  -- at the next level the capped weights would be the weights, so the last level is no higher
  have enough : sign * total ≤ sign * (names.map fun a => capped sign bound (next * base a)).sum := by
    conv_lhs => rw [← isLevel]
    refine sum_le fun a member => ?_
    by_cases past : pastNow base sign bound fixed level a
    · have more : sign * (level * base a) ≤ sign * (next * base a) := by
        rw [← mul_assoc, ← mul_assoc]
        exact mul_le_mul_of_nonneg_right higher (positive a member).le
      have past_ : Past sign bound (next * base a) := lt_of_lt_of_le (pastNow_iff.mp past).2 more
      rw [weight, if_pos past, capped, if_pos past_]
    · rw [weight, if_neg past, capped, if_neg (none_ a member past)]
  obtain ⟨a, member, here⟩ := stage.some_fixed
  obtain ⟨free, past⟩ := stage.released a member here
  have lower : sign * last ≤ sign * next := stage.levelThen.le positive ⟨a, member, free⟩ enough
  -- so the names that were released are past the bound again
  refine none_ a member (fun past => (pastNow_iff.mp past).1 here) (lt_of_lt_of_le past ?_)
  rw [← mul_assoc, ← mul_assoc]
  exact mul_le_mul_of_nonneg_right lower (positive a member).le

end Unsettled

end WaterLevel
