import CryptoQuant.Portfolio.CapitalConservation

/-!
# The bounds of the allocated weights

The projection meets its bounds when one round is enough: when the weights that
start within the bounds are still within them after the others were put on the
bound and the rest was shared. The residual correction keeps weights within bounds.
-/

namespace CryptoQuant.Portfolio
set_option autoImplicit false

/-- Weights within their bounds. -/
def Inside (minWeight maxWeight : ℚ) (weights : Py.Dict String ℚ) : Prop :=
  ∀ weight ∈ weights.values, minWeight ≤ weight ∧ weight ≤ maxWeight

/-- The first round of the projection is enough: every weight that starts within the
bounds gets a share within them. -/
def FirstRoundFits (rawScores : Py.Dict String ℚ) (total minWeight maxWeight : ℚ) : Prop :=
  let names := sortedNames rawScores.keys
  let base := proportional rawScores total
  ∀ name ∈ insideNames names minWeight maxWeight base,
    minWeight ≤ allotment names base total minWeight maxWeight base name ∧
      allotment names base total minWeight maxWeight base name ≤ maxWeight

instance (minWeight maxWeight : ℚ) (weights : Py.Dict String ℚ) : Decidable (Inside minWeight maxWeight weights) :=
  inferInstanceAs (Decidable (∀ weight ∈ weights.values, _ ∧ _))

instance (rawScores : Py.Dict String ℚ) (total minWeight maxWeight : ℚ) :
    Decidable (FirstRoundFits rawScores total minWeight maxWeight) :=
  inferInstanceAs (Decidable (∀ name ∈ insideNames _ _ _ _, _ ∧ _))

section Bounds
variable {names : List String} {base : String → ℚ} {total minWeight maxWeight : ℚ} {p : Py.Dict String ℚ}

theorem inside_iff : Inside minWeight maxWeight p ↔
    ∀ name ∈ p.keys, minWeight ≤ p.getD name 0 ∧ p.getD name 0 ≤ maxWeight := by
  constructor
  · intro inside name member
    obtain ⟨weight, found⟩ := Py.Dict.mem_keys_iff.mp member
    rw [Py.Dict.getD, found, Option.getD_some]
    exact inside weight (List.mem_map.mpr ⟨(name, weight), Py.Dict.mem_of_get? found, rfl⟩)
  · rintro inside _ member
    obtain ⟨⟨name, weight⟩, item, rfl⟩ := List.mem_map.mp member
    have here := inside name (List.mem_map.mpr ⟨(name, weight), item, rfl⟩)
    rw [Py.Dict.getD, Py.Dict.get?_of_mem item, Option.getD_some] at here
    exact here

/-- What the names outside leave depends on the weights of the names alone. -/
theorem allotment_congr {weight weight' : String → ℚ} (same : ∀ name ∈ names, weight name = weight' name) :
    insideNames names minWeight maxWeight weight = insideNames names minWeight maxWeight weight' ∧
      allotment names base total minWeight maxWeight weight = allotment names base total minWeight maxWeight weight' := by
  have filtered : ∀ test : ℚ → Bool, (names.filter fun name => test (weight name)) =
      names.filter fun name => test (weight' name) := fun test =>
    List.filter_congr fun name member => by rw [same name member]
  have inside := filtered fun w => decide (minWeight ≤ w ∧ w ≤ maxWeight)
  have high := filtered fun w => decide (maxWeight < w)
  have low := filtered fun w => decide (w < minWeight)
  refine ⟨inside, funext fun name => ?_⟩
  unfold allotment leftOver insideNames
  rw [inside, high, low]

/-- **One round is enough** when the shares are within the bounds. -/
theorem projectionLoop_inside (ordered : minWeight ≤ maxWeight) (rounds : ℕ)
    (fits : ∀ name ∈ insideNames p.keys minWeight maxWeight fun name => p.getD name 0,
      minWeight ≤ allotment p.keys base total minWeight maxWeight (fun name => p.getD name 0) name ∧
        allotment p.keys base total minWeight maxWeight (fun name => p.getD name 0) name ≤ maxWeight) :
    Inside minWeight maxWeight (projectionLoop p.keys base total minWeight maxWeight (rounds + 1) p) := by
  by_cases settled : ∀ name ∈ p.keys, minWeight ≤ p.getD name 0 ∧ p.getD name 0 ≤ maxWeight
  · rw [projectionLoop_of_inside _ settled]
    exact inside_iff.mpr settled
  have outside := exists_outside settled
  by_cases none_ : (insideNames p.keys minWeight maxWeight fun name => p.getD name 0) = []
  · obtain ⟨name, member, -⟩ := outside
    rw [projectionLoop_of_outside rounds (List.ne_nil_of_mem member) (insideNames_eq_nil.mp none_), inside_iff, keys_clamped]
    exact fun name member => clamped_inside ordered member
  · obtain ⟨q, keys, -, weights, next⟩ := projectionLoop_round base total ordered rounds outside none_
    have bounds : ∀ name ∈ q.keys, minWeight ≤ q.getD name 0 ∧ q.getD name 0 ≤ maxWeight := by
      intro name member
      rw [keys] at member
      rw [weights name member, rebalanced]
      split
      · exact ⟨le_rfl, ordered⟩
      split
      · exact ⟨ordered, le_rfl⟩
      · exact fits name (mem_insideNames.mpr ⟨member, not_lt.mp ‹_›, not_lt.mp ‹_›⟩)
    rw [next, projectionLoop_of_inside _ bounds]
    exact inside_iff.mpr bounds

section Residual
variable {room : ℚ → ℚ} {sign : ℚ}

/-- A correction that moves a weight no further than its room keeps the bounds. -/
theorem settleResidual_inside
    (moves : ∀ weight delta, minWeight ≤ weight → weight ≤ maxWeight → 0 ≤ delta → delta ≤ room weight →
      minWeight ≤ weight + sign * delta ∧ weight + sign * delta ≤ maxWeight)
    {adjustable : List String} (among : ∀ name ∈ adjustable, name ∈ p.keys) {needed : ℚ} (nonneg : 0 ≤ needed)
    (inside : Inside minWeight maxWeight p) :
    Inside minWeight maxWeight (settleResidual room sign adjustable p needed) := by
  induction adjustable generalizing p needed with
  | nil => exact inside
  | cons name adjustable ih =>
    have here := among name List.mem_cons_self
    have later : ∀ name ∈ adjustable, name ∈ p.keys := fun name member => among name (List.mem_cons_of_mem _ member)
    unfold settleResidual
    simp only
    split
    · exact ih later nonneg inside
    rename_i open_
    have bounds := inside_iff.mp inside
    let delta := min (room (p.getD name 0)) needed
    have within := moves _ delta (bounds name here).1 (bounds name here).2 (le_min (not_le.mp open_).le nonneg) (min_le_left _ _)
    let q := p.set name (p.getD name 0 + sign * delta)
    have keys : q.keys = p.keys := Py.Dict.keys_set_of_mem here _
    have inside : Inside minWeight maxWeight q := by
      rw [inside_iff, keys]
      intro other member
      rw [Py.Dict.getD_set]
      split
      · exact within
      · exact bounds other member
    split
    · exact inside
    · exact ih (fun name member => keys ▸ later name member) (sub_nonneg.mpr (min_le_right _ _)) inside

variable (total) in
/-- **The residual correction keeps the bounds.** -/
theorem correctResidual_inside (inside : Inside minWeight maxWeight p) :
    Inside minWeight maxWeight (correctResidual p.keys total minWeight maxWeight p) := by
  have among : ∀ (r : String → String → Prop) [DecidableRel r], ∀ name ∈ p.keys.insertionSort r, name ∈ p.keys :=
    fun r _ name member => (List.perm_insertionSort r p.keys).mem_iff.mp member
  unfold correctResidual
  simp only
  split
  · split
    · rename_i misses
      refine settleResidual_inside (fun weight delta least most nonneg room => ?_) (among _) misses.le inside
      constructor <;> linarith
    · rename_i over_
      refine settleResidual_inside (fun weight delta least most nonneg room => ?_) (among _) ?_ inside
      · constructor <;> linarith
      · exact neg_nonneg.mpr (not_lt.mp over_)
  · exact inside

/-- Weights that add up to the total are not corrected. -/
theorem correctResidual_of_sum (sum : p.values.sum = total) :
    correctResidual names total minWeight maxWeight p = p := by
  have small : ¬ tolerance < |total - p.values.sum| := by
    rw [sum, sub_self, abs_zero]
    norm_num [tolerance]
  unfold correctResidual
  exact if_neg small

end Residual

end Bounds

/-- **The projection meets its bounds** when its first round is enough. -/
theorem projectScores_inside {rawScores : Py.Dict String ℚ} {total minWeight maxWeight : ℚ}
    (feasible : Feasible rawScores.keys.length total minWeight maxWeight)
    (fits : FirstRoundFits rawScores total minWeight maxWeight) :
    ∃ weights, projectScores rawScores total minWeight maxWeight = .ok weights ∧ Inside minWeight maxWeight weights := by
  refine ⟨_, projectScores_eq feasible, ?_⟩
  have keys := (projectedScores_projected feasible).keys
  have inside : Inside minWeight maxWeight (projectedScores rawScores total minWeight maxWeight) := by
    let p := Py.Dict.ofKeys (sortedNames rawScores.keys) (proportional rawScores total)
    have names : p.keys = sortedNames rawScores.keys := Py.Dict.keys_ofKeys (nodup_sortedNames rawScores) _
    have same := @allotment_congr (sortedNames rawScores.keys) (proportional rawScores total) total minWeight maxWeight
      (fun name => p.getD name 0) (proportional rawScores total) fun name member => getD_ofKeys_proportional member
    have inside := @projectionLoop_inside (proportional rawScores total) total minWeight maxWeight p feasible.ordered 15
    rw [names, same.1, same.2] at inside
    exact inside fits
  have corrected := correctResidual_inside total inside
  rw [keys] at corrected
  exact corrected

end CryptoQuant.Portfolio
