import CryptoQuant.Lib.Shares
import Mathlib.Algebra.Order.BigOperators.Group.List
import Mathlib.Algebra.Order.Field.Basic
import Mathlib.Tactic.FieldSimp
import Mathlib.Tactic.Linarith

/-!
# Clamping and rescaling

Numbers with a given total are brought under a bound in rounds: a round puts those past
the bound on it, and rescales the others to what is left of the total. The rescaling
moves a number that is on the bound past it again. So after the first round the numbers
are under the bound for good, or never all again.
-/

namespace Clamp
set_option autoImplicit false

variable {K : Type} [Field K] [LinearOrder K]

section Defs
variable (bound total : K)

/-- The numbers that are not past the bound. -/
def free (l : List K) : List K := l.filter fun x => !decide (bound < x)

/-- The numbers past the bound. -/
def past (l : List K) : List K := l.filter fun x => decide (bound < x)

/-- What the numbers past the bound leave of the total once they are on it. -/
def left (l : List K) : K := total - bound * (past bound l).length

/-- What a number that is not past the bound becomes: even shares when these numbers
have no sum. -/
def share (l : List K) (x : K) : K :=
  if (free bound l).sum = 0 then left bound total l / (free bound l).length
  else x * (left bound total l / (free bound l).sum)

/-- One round. -/
def round (l : List K) : List K := l.map fun x => if bound < x then bound else share bound total l x

/-- So many rounds, while a number is past the bound. -/
def rounds : ℕ → List K → List K
  | 0, l => l
  | n + 1, l => if ∀ x ∈ l, x ≤ bound then l else rounds n (round bound total l)

end Defs

variable {bound total : K} {l : List K}

omit [Field K] in
theorem mem_free {x : K} : x ∈ free bound l ↔ x ∈ l ∧ x ≤ bound := by
  unfold free
  simp

omit [Field K] in
theorem mem_past {x : K} : x ∈ past bound l ↔ x ∈ l ∧ bound < x := by
  unfold past
  simp

omit [Field K] in
theorem length_split (bound : K) (l : List K) : l.length = (past bound l).length + (free bound l).length :=
  List.length_eq_length_filter_add _

theorem sum_split (bound : K) (l : List K) : l.sum = (past bound l).sum + (free bound l).sum := by
  have split := Shares.sum_split (fun x => decide (bound < x)) id l
  rw [List.map_id, List.map_id, List.map_id] at split
  exact split

/-- Numbers of one sign with a total that they can have under the bound. -/
structure Level (bound total : K) (l : List K) : Prop where
  sum : l.sum = total
  nonzero : total ≠ 0
  sign : ∀ x ∈ l, 0 ≤ total * x
  room : total ≤ bound * l.length

variable [IsStrictOrderedRing K]

theorem sum_mul_nonneg {c : K} {xs : List K} (sign : ∀ x ∈ xs, 0 ≤ c * x) : 0 ≤ c * xs.sum := by
  have scaled : c * xs.sum = (xs.map fun x => c * x).sum := by
    clear sign
    induction xs with
    | nil => simp
    | cons x xs ih => rw [List.sum_cons, List.map_cons, List.sum_cons, mul_add, ih]
  rw [scaled]
  refine List.sum_nonneg ?_
  simp only [List.mem_map]
  rintro _ ⟨x, member, rfl⟩
  exact sign x member

namespace Level

theorem free_sign (level : Level bound total l) : 0 ≤ total * (free bound l).sum :=
  sum_mul_nonneg fun x member => level.sign x (mem_free.mp member).1

omit [IsStrictOrderedRing K] in
/-- The numbers past the bound had more than they keep. -/
theorem left_sub (level : Level bound total l) :
    left bound total l - (free bound l).sum = ((past bound l).map fun x => x - bound).sum := by
  have split := sum_split bound l
  have excess : ((past bound l).map fun x => x - bound).sum = (past bound l).sum - bound * (past bound l).length := by
    generalize past bound l = xs
    induction xs with
    | nil => simp
    | cons x xs ih =>
      simp only [List.map_cons, List.sum_cons, List.length_cons, ih, Nat.cast_succ]
      ring
  rw [excess, left, ← level.sum, split]
  ring

theorem le_left (level : Level bound total l) : (free bound l).sum ≤ left bound total l := by
  have nonneg : 0 ≤ ((past bound l).map fun x => x - bound).sum := by
    refine List.sum_nonneg ?_
    simp only [List.mem_map]
    rintro _ ⟨x, member, rfl⟩
    exact sub_nonneg.mpr (mem_past.mp member).2.le
  rw [← level.left_sub] at nonneg
  exact sub_nonneg.mp nonneg

theorem lt_left (level : Level bound total l) (some_ : ∃ x ∈ l, bound < x) : (free bound l).sum < left bound total l := by
  have nonempty : (past bound l).map (fun x => x - bound) ≠ [] := by
    obtain ⟨x, member, beyond⟩ := some_
    have here := mem_past.mpr ⟨member, beyond⟩
    intro none_
    rw [List.map_eq_nil_iff.mp none_] at here
    exact absurd here List.not_mem_nil
  have positive : 0 < ((past bound l).map fun x => x - bound).sum := by
    refine List.sum_pos _ ?_ nonempty
    simp only [List.mem_map]
    rintro _ ⟨x, member, rfl⟩
    exact sub_pos.mpr (mem_past.mp member).2
  rw [← level.left_sub] at positive
  exact sub_pos.mp positive

/-- Not all numbers are past the bound. -/
theorem free_ne_nil (level : Level bound total l) : free bound l ≠ [] := by
  intro none_
  have all := length_split bound l
  have room := level.room
  rw [none_, List.length_nil, add_zero] at all
  by_cases some_ : ∃ x ∈ l, bound < x
  · have more := level.lt_left some_
    rw [none_, List.sum_nil, left, ← all] at more
    linarith
  · have within : past bound l = [] := List.eq_nil_iff_forall_not_mem.mpr fun x member =>
      some_ ⟨x, (mem_past.mp member).1, (mem_past.mp member).2⟩
    rw [within, List.length_nil] at all
    have empty : l.sum = 0 := by rw [List.length_eq_zero_iff.mp all, List.sum_nil]
    exact level.nonzero (level.sum.symm.trans empty)

/-- What is left has the sign of the total. -/
theorem left_sign (level : Level bound total l) : 0 ≤ total * left bound total l := by
  rcases lt_or_gt_of_ne level.nonzero with negative | positive
  · refine mul_nonneg_of_nonpos_of_nonpos negative.le ?_
    have some_ : (0 : K) ≤ (past bound l).length := Nat.cast_nonneg _
    have most : ((past bound l).length : K) ≤ l.length := by
      rw [length_split bound l, Nat.cast_add]
      exact le_add_of_nonneg_right (Nat.cast_nonneg _)
    unfold left
    rcases le_total 0 bound with high | low
    · have kept := mul_nonneg high some_
      linarith
    · have kept := mul_le_mul_of_nonpos_left most low
      have room := level.room
      linarith
  · have sum := nonneg_of_mul_nonneg_right level.free_sign positive
    exact mul_nonneg positive.le (sum.trans level.le_left)

/-- The factor of a rescaling. -/
theorem factor_nonneg (level : Level bound total l) : 0 ≤ left bound total l / (free bound l).sum := by
  have sign : 0 ≤ total * left bound total l / (total * (free bound l).sum) := div_nonneg level.left_sign level.free_sign
  rwa [mul_div_mul_left _ _ level.nonzero] at sign

/-- A number of the sign of the total, as a part of the free ones. -/
theorem part_nonneg (level : Level bound total l) {x : K} (sign : 0 ≤ total * x) : 0 ≤ x / (free bound l).sum := by
  have part : 0 ≤ total * x / (total * (free bound l).sum) := div_nonneg sign level.free_sign
  rwa [mul_div_mul_left _ _ level.nonzero] at part

/-- Free numbers without a sum are zero. -/
theorem eq_zero_of_free (level : Level bound total l) (none_ : (free bound l).sum = 0) {x : K} (member : x ∈ l)
    (within : x ≤ bound) : x = 0 := by
  have scaled : ((free bound l).map fun x => total * x).sum = total * (free bound l).sum := by
    generalize free bound l = xs
    induction xs with
    | nil => simp
    | cons x xs ih => rw [List.map_cons, List.sum_cons, ih, List.sum_cons, mul_add]
  rw [none_, mul_zero] at scaled
  have signs : ∀ y ∈ (free bound l).map fun x => total * x, 0 ≤ y := by
    simp only [List.mem_map]
    rintro _ ⟨y, member, rfl⟩
    exact level.sign y (mem_free.mp member).1
  have zero := List.all_zero_of_le_zero_le_of_sum_eq_zero signs scaled
    (List.mem_map_of_mem (mem_free.mpr ⟨member, within⟩))
  exact (mul_eq_zero.mp zero).resolve_left level.nonzero

omit [LinearOrder K] [IsStrictOrderedRing K] in
theorem rescale_sub (x : K) {part whole : K} (nonzero : part ≠ 0) :
    x * (whole / part) - x = x / part * (whole - part) := by
  field_simp

/-- A share is not less than the number. -/
theorem le_share (level : Level bound total l) {x : K} (member : x ∈ l) (within : x ≤ bound) :
    x ≤ share bound total l x := by
  have more := level.le_left
  unfold share
  split
  · rename_i none_
    rw [level.eq_zero_of_free none_ member within]
    rw [none_] at more
    exact div_nonneg more (Nat.cast_nonneg _)
  · rename_i some_
    rw [← sub_nonneg, rescale_sub x some_]
    exact mul_nonneg (level.part_nonneg (level.sign x member)) (sub_nonneg.mpr more)

/-- A number on the bound goes past it, when another is past it. -/
theorem lt_share (level : Level bound total l) (some_ : ∃ x ∈ l, bound < x) (on : bound ∈ l) :
    bound < share bound total l bound := by
  have more := level.lt_left some_
  have nonzero : bound ≠ 0 := by
    rintro rfl
    obtain ⟨x, member, positive⟩ := some_
    have room := level.room
    rw [zero_mul] at room
    have negative : total * x < 0 := mul_neg_of_neg_of_pos (lt_of_le_of_ne room level.nonzero) positive
    exact absurd (level.sign x member) (not_le.mpr negative)
  have sum : (free bound l).sum ≠ 0 := fun none_ => nonzero (level.eq_zero_of_free none_ on le_rfl)
  have part : 0 < bound / (free bound l).sum :=
    lt_of_le_of_ne (level.part_nonneg (level.sign bound on)) (div_ne_zero nonzero sum).symm
  unfold share
  rw [if_neg sum, ← sub_pos, rescale_sub bound sum]
  exact mul_pos part (sub_pos.mpr more)

/-- A round keeps the total. -/
theorem sum_round (level : Level bound total l) : (round bound total l).sum = total := by
  have split := Shares.sum_split (fun x => decide (bound < x)) (fun x => if bound < x then bound else share bound total l x) l
  have clamped : ((past bound l).map fun x => if bound < x then bound else share bound total l x).sum =
      bound * (past bound l).length := by
    rw [List.map_congr_left fun x member => if_pos (mem_past.mp member).2, List.map_const', List.sum_replicate,
      nsmul_eq_mul, mul_comm]
  have shared : ((free bound l).map fun x => if bound < x then bound else share bound total l x).sum =
      left bound total l := by
    rw [List.map_congr_left fun x member => if_neg (not_lt.mpr (mem_free.mp member).2)]
    unfold share
    split
    · exact Shares.sum_even _ level.free_ne_nil
    · rename_i nonzero
      have parts := Shares.sum_proportional (left bound total l) id (l := free bound l) (by rwa [List.map_id])
      rw [List.map_id] at parts
      refine (congrArg List.sum (List.map_congr_left fun x _ => ?_)).trans parts
      rw [id]
      ring
  unfold round
  rw [split, ← past, ← free, clamped, shared, left]
  ring

/-- The bound has the sign of the total, when a number is past it. -/
theorem bound_sign (level : Level bound total l) {x : K} (member : x ∈ l) (beyond : bound < x) : 0 ≤ total * bound := by
  rcases lt_or_gt_of_ne level.nonzero with negative | positive
  · have low : x ≤ 0 := nonpos_of_mul_nonneg_right (level.sign x member) negative
    exact mul_nonneg_of_nonpos_of_nonpos negative.le (beyond.le.trans low)
  · have high : 0 < bound * l.length := positive.trans_le level.room
    have nonneg : 0 ≤ bound := not_lt.mp fun low =>
      absurd high (not_lt.mpr (mul_nonpos_of_nonpos_of_nonneg low.le (Nat.cast_nonneg _)))
    exact mul_nonneg positive.le nonneg

theorem share_sign (level : Level bound total l) {x : K} (member : x ∈ l) : 0 ≤ total * share bound total l x := by
  unfold share
  split
  · rw [← mul_div_assoc]
    exact div_nonneg level.left_sign (Nat.cast_nonneg _)
  · rw [← mul_assoc]
    exact mul_nonneg (level.sign x member) level.factor_nonneg

/-- **One round** keeps the total, the signs and the room. -/
theorem round (level : Level bound total l) : Level bound total (round bound total l) where
  sum := level.sum_round
  nonzero := level.nonzero
  sign := by
    unfold Clamp.round
    simp only [List.mem_map]
    rintro _ ⟨x, member, rfl⟩
    split
    · rename_i beyond
      exact level.bound_sign member beyond
    · exact level.share_sign member
  room := by
    unfold Clamp.round
    rw [List.length_map]
    exact level.room

/-- One round keeps the numbers above another bound. -/
theorem le_round (level : Level bound total l) {least : K} (low : least ≤ bound) (above : ∀ x ∈ l, least ≤ x) :
    ∀ x ∈ Clamp.round bound total l, least ≤ x := by
  unfold Clamp.round
  simp only [List.mem_map]
  rintro _ ⟨x, member, rfl⟩
  split
  · exact low
  · rename_i within
    exact (above x member).trans (level.le_share member (not_lt.mp within))

omit [IsStrictOrderedRing K] in
/-- A round without numbers past the bound changes nothing. -/
theorem round_eq (level : Level bound total l) (within : ∀ x ∈ l, x ≤ bound) : Clamp.round bound total l = l := by
  have none_ : past bound l = [] := List.filter_eq_nil_iff.mpr fun x member => by simpa using within x member
  have all : free bound l = l := List.filter_eq_self.mpr fun x member => by simpa using within x member
  have whole : left bound total l = total := by rw [left, none_, List.length_nil, Nat.cast_zero, mul_zero, sub_zero]
  unfold Clamp.round
  refine (List.map_congr_left fun x member => ?_).trans (List.map_id l)
  rw [if_neg (not_lt.mpr (within x member)), share, all, level.sum, if_neg level.nonzero, whole,
    div_self level.nonzero, mul_one, id]

/-- Under the bound after a round: the shares of the free numbers fit. -/
theorem round_le_iff (level : Level bound total l) :
    (∀ x ∈ Clamp.round bound total l, x ≤ bound) ↔
      ∀ x ∈ l, x ≤ bound → total * (x * left bound total l) ≤ total * (bound * (free bound l).sum) := by
  have shares : (∀ x ∈ Clamp.round bound total l, x ≤ bound) ↔ ∀ x ∈ l, x ≤ bound → share bound total l x ≤ bound := by
    unfold Clamp.round
    simp only [List.mem_map, forall_exists_index, and_imp, forall_apply_eq_imp_iff₂]
    refine forall₂_congr fun x member => ?_
    by_cases within : x ≤ bound
    · rw [if_neg (not_lt.mpr within)]
      exact ⟨fun fits _ => fits, fun fits => fits within⟩
    · rw [if_pos (not_le.mp within)]
      exact ⟨fun _ inside => absurd inside within, fun _ => le_rfl⟩
  rw [shares]
  refine forall₃_congr fun x member within => ?_
  unfold share
  split
  · rename_i none_
    have some_ : (0 : K) < (free bound l).length :=
      Nat.cast_pos.mpr (List.length_pos_iff.mpr level.free_ne_nil)
    have fits : left bound total l ≤ bound * (free bound l).length := by
      have room := level.room
      rw [length_split bound l, Nat.cast_add, mul_add] at room
      unfold left
      linarith
    rw [level.eq_zero_of_free none_ member within, none_, zero_mul, mul_zero bound]
    exact iff_of_true ((div_le_iff₀ some_).mpr fits) le_rfl
  · rename_i some_
    have positive : 0 < total * (free bound l).sum :=
      lt_of_le_of_ne level.free_sign (mul_ne_zero level.nonzero some_).symm
    have ratio : x * (left bound total l / (free bound l).sum) =
        total * (x * left bound total l) / (total * (free bound l).sum) := by
      rw [mul_div_mul_left _ _ level.nonzero, mul_div_assoc]
    rw [ratio, div_le_iff₀ positive]
    exact iff_of_eq (congrArg _ (mul_left_comm _ _ _))

/-- A round leaves no number past the bound, or one past it beside one on it. -/
theorem rounds_stuck (level : Level bound total l) (some_ : ∃ x ∈ l, bound < x) (on : bound ∈ l) (n : ℕ) :
    ∃ x ∈ rounds bound total n l, bound < x := by
  induction n generalizing l with
  | zero => exact some_
  | succ n ih =>
    obtain ⟨x, member, beyond⟩ := some_
    have past_ : ¬ ∀ x ∈ l, x ≤ bound := fun within => absurd (within x member) (not_le.mpr beyond)
    rw [rounds, if_neg past_]
    refine ih level.round ⟨share bound total l bound, ?_, level.lt_share ⟨x, member, beyond⟩ on⟩ ?_
    · exact List.mem_map.mpr ⟨bound, on, if_neg (lt_irrefl bound)⟩
    · exact List.mem_map.mpr ⟨x, member, if_pos beyond⟩

/-- **Under the bound after the rounds**: exactly when after the first. -/
theorem rounds_le_iff (level : Level bound total l) (n : ℕ) :
    (∀ x ∈ rounds bound total (n + 1) l, x ≤ bound) ↔ ∀ x ∈ Clamp.round bound total l, x ≤ bound := by
  rw [rounds]
  by_cases within : ∀ x ∈ l, x ≤ bound
  · rw [if_pos within, level.round_eq within]
  rw [if_neg within]
  by_cases fits : ∀ x ∈ Clamp.round bound total l, x ≤ bound
  · have stops : rounds bound total n (Clamp.round bound total l) = Clamp.round bound total l := by
      cases n with
      | zero => rfl
      | succ n => rw [rounds, if_pos fits]
    rw [stops]
  · refine iff_of_false ?_ fits
    push Not at within fits
    obtain ⟨x, member, beyond⟩ := within
    obtain ⟨y, found, above⟩ := level.round.rounds_stuck fits (List.mem_map.mpr ⟨x, member, if_pos beyond⟩) n
    exact fun all => absurd (all y found) (not_le.mpr above)

/-- The rounds keep the total, and the numbers above another bound. -/
theorem rounds (level : Level bound total l) {least : K} (low : least ≤ bound) (above : ∀ x ∈ l, least ≤ x) (n : ℕ) :
    Level bound total (rounds bound total n l) ∧ ∀ x ∈ Clamp.rounds bound total n l, least ≤ x := by
  induction n generalizing l with
  | zero => exact ⟨level, above⟩
  | succ n ih =>
    rw [Clamp.rounds]
    split
    · exact ⟨level, above⟩
    · exact ih level.round (level.le_round low above)

end Level

end Clamp
