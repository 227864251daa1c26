import CryptoQuant.Portfolio.AllocationRounds
import Mathlib.Algebra.BigOperators.Ring.List
import Mathlib.Algebra.Order.Ring.Abs

/-!
# The allocator conserves capital

Every round of the projection keeps the sum of the weights, unless it fixes them
all; then they are within their bounds, which leave enough room to settle what
is missing or too much.
-/

namespace CryptoQuant.Portfolio
set_option autoImplicit false

section Rounds
variable {names : List String} {base : String → ℚ} {total minWeight maxWeight : ℚ}

/-- What the projection loop leaves: weights of all names that add up to the
total, or that are within their bounds and not all zero. -/
structure Projected (names : List String) (total minWeight maxWeight : ℚ) (p : Py.Dict String ℚ) : Prop where
  keys : p.keys = names
  settled : p.values.sum = total ∨
    (0 < p.values.sum ∧ ∀ name ∈ names, minWeight ≤ p.getD name 0 ∧ p.getD name 0 ≤ maxWeight)

/-- The bounds of the weights of `n` names with a sum of `total`. -/
structure Feasible (n : ℕ) (total minWeight maxWeight : ℚ) : Prop where
  positive : 0 < total
  nonneg : 0 ≤ minWeight
  ordered : minWeight ≤ maxWeight
  least : n * minWeight ≤ total
  most : total ≤ n * maxWeight

/-- Weights that add up to the total are not all below the minimum. -/
theorem exists_clampedHigh {p : Py.Dict String ℚ} (feasible : Feasible p.keys.length total minWeight maxWeight)
    (sum : p.values.sum = total) (all : ∀ name ∈ p.keys, maxWeight < p.getD name 0 ∨ p.getD name 0 < minWeight) :
    ∃ name ∈ p.keys, maxWeight < p.getD name 0 := by
  by_contra none_
  have below : ∀ name ∈ p.keys, p.getD name 0 < minWeight := by
    intro name member
    exact (all name member).resolve_left fun high => none_ ⟨name, member, high⟩
  have nonempty : p.keys ≠ [] := by
    intro empty
    rw [sum_values, empty] at sum
    exact feasible.positive.ne sum
  have less := List.sum_lt_sum_of_ne_nil nonempty (fun name => p.getD name 0) (fun _ => minWeight) below
  rw [← sum_values, sum, List.map_const', List.sum_replicate, nsmul_eq_mul] at less
  exact absurd feasible.least (not_le.mpr less)

/-- When every weight is fixed, the weights are within their bounds, and the
maximum is one of them. -/
theorem clamped_projected {p : Py.Dict String ℚ} (feasible : Feasible p.keys.length total minWeight maxWeight)
    (sum : p.values.sum = total) (all : ∀ name ∈ p.keys, maxWeight < p.getD name 0 ∨ p.getD name 0 < minWeight) :
    Projected p.keys total minWeight maxWeight (clamped minWeight maxWeight p) := by
  have bounds : ∀ name ∈ p.keys, minWeight ≤ (clamped minWeight maxWeight p).getD name 0 ∧
      (clamped minWeight maxWeight p).getD name 0 ≤ maxWeight := fun name => clamped_inside feasible.ordered
  obtain ⟨name, member, high⟩ := exists_clampedHigh feasible sum all
  have maximum : (clamped minWeight maxWeight p).getD name 0 = maxWeight := by
    rw [getD_clamped member, if_neg (not_lt.mpr (feasible.ordered.trans high.le)), if_pos high]
  have positive : 0 < maxWeight := by
    by_contra not_
    have nothing : p.keys.length * maxWeight ≤ 0 := mul_nonpos_of_nonneg_of_nonpos (Nat.cast_nonneg _) (not_lt.mp not_)
    exact absurd (feasible.most.trans nothing) (not_le.mpr feasible.positive)
  refine ⟨keys_clamped, .inr ⟨?_, bounds⟩⟩
  have among : maxWeight ∈ p.keys.map fun name => (clamped minWeight maxWeight p).getD name 0 :=
    List.mem_map.mpr ⟨name, member, maximum⟩
  have least : ∀ w ∈ p.keys.map fun name => (clamped minWeight maxWeight p).getD name 0, 0 ≤ w := by
    intro w within
    obtain ⟨name, member, rfl⟩ := List.mem_map.mp within
    exact feasible.nonneg.trans (bounds name member).1
  rw [sum_values, keys_clamped]
  exact positive.trans_le (List.single_le_sum least _ among)

/-- **The projection loop**, from weights that add up to the total. -/
theorem projectionLoop_projected {names : List String} (base : String → ℚ)
    (feasible : Feasible names.length total minWeight maxWeight) (rounds : ℕ) {p : Py.Dict String ℚ}
    (keys : p.keys = names) (sum : p.values.sum = total) :
    Projected names total minWeight maxWeight (projectionLoop names base total minWeight maxWeight rounds p) := by
  induction rounds generalizing p with
  | zero => exact ⟨keys, .inl sum⟩
  | succ rounds ih =>
    subst keys
    by_cases settled : ∀ name ∈ p.keys, minWeight ≤ p.getD name 0 ∧ p.getD name 0 ≤ maxWeight
    · rw [projectionLoop_of_inside _ settled]
      exact ⟨rfl, .inl sum⟩
    have outside := exists_outside settled
    by_cases none_ : (insideNames p.keys minWeight maxWeight fun name => p.getD name 0) = []
    · have all := insideNames_eq_nil.mp none_
      obtain ⟨name, member, -⟩ := outside
      rw [projectionLoop_of_outside rounds (List.ne_nil_of_mem member) all]
      exact clamped_projected feasible sum all
    · obtain ⟨q, keys, sum, -, next⟩ := projectionLoop_round base total feasible.ordered rounds outside none_
      rw [next]
      exact ih keys sum

end Rounds

section Residual
variable {room : ℚ → ℚ} {total minWeight maxWeight : ℚ}

/-- A write at one name leaves the room of the others. -/
theorem room_set {name : String} {adjustable : List String} (apart : name ∉ adjustable) (p : Py.Dict String ℚ) (w : ℚ) :
    (adjustable.map fun other => max (room ((p.set name w).getD other 0)) 0) =
      adjustable.map fun other => max (room (p.getD other 0)) 0 := by
  refine List.map_congr_left fun other member => ?_
  have distinct : other ≠ name := fun same => apart (same ▸ member)
  rw [Py.Dict.getD_set, if_neg distinct]

variable (room) in
/-- **The residual correction** moves what is needed, up to the tolerance, when the
names together have the room. -/
theorem settleResidual_sum (sign : ℚ) {adjustable : List String} (distinct : adjustable.Nodup)
    {p : Py.Dict String ℚ} (among : ∀ name ∈ adjustable, name ∈ p.keys) {needed : ℚ} (nonneg : 0 ≤ needed)
    (enough : needed ≤ (adjustable.map fun name => max (room (p.getD name 0)) 0).sum) :
    (settleResidual room sign adjustable p needed).keys = p.keys ∧
      ∃ left, 0 ≤ left ∧ left ≤ tolerance ∧
        (settleResidual room sign adjustable p needed).values.sum = p.values.sum + sign * (needed - left) := by
  have tolerates : 0 ≤ tolerance := by norm_num [tolerance]
  induction adjustable generalizing p needed with
  | nil =>
    have nothing : needed = 0 := le_antisymm enough nonneg
    exact ⟨rfl, 0, le_rfl, tolerates, by rw [nothing, sub_zero, mul_zero, add_zero, settleResidual]⟩
  | cons name adjustable ih =>
    obtain ⟨apart, distinct⟩ := List.nodup_cons.mp distinct
    have here := among name List.mem_cons_self
    have later : ∀ name ∈ adjustable, name ∈ p.keys := fun name member => among name (List.mem_cons_of_mem _ member)
    rw [List.map_cons, List.sum_cons] at enough
    unfold settleResidual
    simp only
    split
    · rename_i full
      rw [max_eq_right full, zero_add] at enough
      exact ih distinct later nonneg enough
    rename_i open_
    have open_ : 0 < room (p.getD name 0) := not_le.mp open_
    let delta := min (room (p.getD name 0)) needed
    let q := p.set name (p.getD name 0 + sign * delta)
    have keys : q.keys = p.keys := Py.Dict.keys_set_of_mem here _
    have sum : q.values.sum = p.values.sum + sign * delta := by
      rw [sum_values_set here, add_sub_cancel_left]
    have rest : 0 ≤ needed - delta := sub_nonneg.mpr (min_le_right _ _)
    show (if needed - delta ≤ tolerance then q else settleResidual room sign adjustable q (needed - delta)).keys = _ ∧
      ∃ left, _ ∧ _ ∧
        (if needed - delta ≤ tolerance then q else settleResidual room sign adjustable q (needed - delta)).values.sum = _
    split
    · rename_i enough
      refine ⟨keys, needed - delta, rest, enough, ?_⟩
      rw [sum, sub_sub_cancel]
    · rename_i more
      -- the name gave all its room
      have all : delta = room (p.getD name 0) := by
        refine min_eq_left (le_of_not_ge fun less => more ?_)
        show needed - min _ needed ≤ tolerance
        rw [min_eq_right less, sub_self]
        exact tolerates
      have enough : needed - delta ≤ (adjustable.map fun name => max (room (q.getD name 0)) 0).sum := by
        rw [max_eq_left open_.le] at enough
        rw [room_set apart p, all]
        linarith
      obtain ⟨keys', left, least, most, after⟩ := ih distinct (fun name member => keys ▸ later name member) rest enough
      refine ⟨keys'.trans keys, left, least, most, ?_⟩
      rw [after, sum]
      ring

/-- The names have the room to settle what their weights miss, or are too much. -/
theorem room_of_bounds {p : Py.Dict String ℚ} (feasible : Feasible p.keys.length total minWeight maxWeight)
    {adjustable : List String} (perm : adjustable.Perm p.keys) :
    total - p.values.sum ≤ (adjustable.map fun name => max (maxWeight - p.getD name 0) 0).sum ∧
      p.values.sum - total ≤ (adjustable.map fun name => max (p.getD name 0 - minWeight) 0).sum := by
  have up : (p.keys.map fun name => maxWeight - p.getD name 0).sum ≤
      (p.keys.map fun name => max (maxWeight - p.getD name 0) 0).sum := List.sum_le_sum fun _ _ => le_max_left _ _
  have down : (p.keys.map fun name => p.getD name 0 - minWeight).sum ≤
      (p.keys.map fun name => max (p.getD name 0 - minWeight) 0).sum := List.sum_le_sum fun _ _ => le_max_left _ _
  have whole : ∀ f g : String → ℚ, (p.keys.map f).sum + (p.keys.map g).sum = (p.keys.map fun name => f name + g name).sum :=
    fun f g => List.sum_map_add.symm
  have constant : ∀ c : ℚ, (p.keys.map fun _ => c).sum = p.keys.length * c := by
    intro c
    rw [List.map_const', List.sum_replicate, nsmul_eq_mul]
  have high := whole (fun name => p.getD name 0) fun name => maxWeight - p.getD name 0
  have low := whole (fun name => p.getD name 0 - minWeight) fun _ => minWeight
  simp only [add_sub_cancel, sub_add_cancel, constant, ← sum_values] at high low
  rw [(perm.map _).sum_eq, (perm.map _).sum_eq]
  have most := feasible.most
  have least := feasible.least
  constructor <;> linarith

/-- **After the correction** the weights miss the total by at most the tolerance. -/
theorem correctResidual_sum {names : List String} (feasible : Feasible names.length total minWeight maxWeight)
    {p : Py.Dict String ℚ} (projected : Projected names total minWeight maxWeight p) :
    (correctResidual names total minWeight maxWeight p).keys = names ∧
      |(correctResidual names total minWeight maxWeight p).values.sum - total| ≤ tolerance := by
  obtain ⟨rfl, -⟩ := projected
  have sorted : ∀ r : String → String → Prop, [DecidableRel r] → (p.keys.insertionSort r).Perm p.keys :=
    fun r _ => List.perm_insertionSort r _
  unfold correctResidual
  simp only
  split
  · split
    · rename_i misses
      obtain ⟨keys, left, least, most, sum⟩ := settleResidual_sum (fun w => maxWeight - w) 1
        ((sorted _).nodup_iff.mpr p.nodup_keys) (fun name member => (sorted _).mem_iff.mp member) misses.le
        (room_of_bounds feasible (sorted fun a b => p.getD a 0 ≤ p.getD b 0)).1
      refine ⟨keys, ?_⟩
      rw [sum, abs_le]
      constructor <;> linarith
    · rename_i over_
      have over_ : 0 ≤ -(total - p.values.sum) := neg_nonneg.mpr (not_lt.mp over_)
      obtain ⟨keys, left, least, most, sum⟩ := settleResidual_sum (fun w => w - minWeight) (-1)
        ((sorted _).nodup_iff.mpr p.nodup_keys) (fun name member => (sorted _).mem_iff.mp member) over_
        (by
          rw [neg_sub]
          exact (room_of_bounds feasible (sorted fun a b => p.getD b 0 ≤ p.getD a 0)).2)
      refine ⟨keys, ?_⟩
      rw [sum, abs_le]
      constructor <;> linarith
  · rename_i small
    rw [abs_sub_comm] at small
    exact ⟨rfl, not_lt.mp small⟩

end Residual

section Scores
variable {config : CapitalAllocatorConfig}

/-- What `__post_init__` checked, as far as the weights need it. -/
theorem CapitalAllocatorConfig.bounds (config : CapitalAllocatorConfig) :
    0 ≤ config.cashReserveRatio ∧ config.cashReserveRatio < 1 ∧ 0 ≤ config.minWeight ∧
      config.minWeight ≤ config.maxWeight ∧ 0 < config.factorWeights.sum := by
  have checked := config.checked
  unfold AllocatorFields.postInit at checked
  simp only [Run.bind_ok, raiseIf_ok, not_not, not_le] at checked
  obtain ⟨_, ⟨reserve, below⟩, _, -, _, -, _, -, _, ⟨nonneg, ordered, -⟩, _, -, weights⟩ := checked
  exact ⟨reserve, below, nonneg, ordered, weights⟩

/-- The score of a valid signal: the weighted mean of its components, but no less than
the floor. -/
def CapitalAllocatorConfig.score (config : CapitalAllocatorConfig) (signal : AllocationSignal) : ℚ :=
  let components := [clamp01 signal.confidence, clamp01 signal.recentStability,
    1 - clamp01 (signal.drawdown / config.maxDrawdownLimit),
    config.targetVolatility / (signal.volatility + config.targetVolatility),
    config.costBudget / (signal.tradingCost + config.costBudget)]
  max ((List.zipWith (· * ·) components config.factorWeights).sum / config.factorWeights.sum)
    (max (config.minWeight * (1 / 2)) (1 / 100))

theorem CapitalAllocatorConfig.score_pos (config : CapitalAllocatorConfig) (signal : AllocationSignal) :
    0 < config.score signal := by
  have floor : (0 : ℚ) < 1 / 100 := by norm_num
  exact floor.trans_le ((le_max_right _ _).trans (le_max_right _ _))

/-- A valid signal is scored. -/
theorem scoreSignal_ok (config : CapitalAllocatorConfig) (scores : Scores) {name : String} {signal : AllocationSignal}
    (valid : validateSignal name signal = .ok ()) :
    ∃ breakdown, scoreSignal config scores (name, signal) =
      .ok (scores.1.set name (config.score signal), scores.2.set name breakdown) := by
  have weighs : ∀ values, weightedMean values config.factorWeights =
      .ok ((List.zipWith (· * ·) values config.factorWeights).sum / config.factorWeights.sum) := by
    intro values
    exact Run.bind_ok.mpr ⟨(), raiseIf_ok.mpr (not_le.mpr config.bounds.2.2.2.2), rfl⟩
  unfold scoreSignal
  simp only
  rw [valid]
  simp only [bind, Except.bind]
  rw [weighs]
  exact ⟨_, rfl⟩

/-- Valid signals are all scored, under their names. -/
theorem foldlM_scoreSignal {items : List (String × AllocationSignal)}
    (valid : ∀ item ∈ items, validateSignal item.1 item.2 = .ok ()) (scores : Scores)
    (distinct : (scores.1.keys ++ items.map Prod.fst).Nodup) :
    ∃ scores', items.foldlM (scoreSignal config) scores = .ok scores' ∧
      scores'.1.items = scores.1.items ++ items.map fun item => (item.1, config.score item.2) := by
  induction items generalizing scores with
  | nil => exact ⟨scores, rfl, (List.append_nil _).symm⟩
  | cons item items ih =>
    obtain ⟨name, signal⟩ := item
    obtain ⟨breakdown, scored⟩ := scoreSignal_ok config scores (valid _ List.mem_cons_self)
    have fresh : name ∉ scores.1.keys := fun member => List.disjoint_of_nodup_append distinct member List.mem_cons_self
    have keys : (scores.1.set name (config.score signal)).keys = scores.1.keys ++ [name] := by
      rw [Py.Dict.keys_set, if_neg fresh]
    obtain ⟨scores', run, after⟩ := ih (fun item member => valid item (List.mem_cons_of_mem _ member))
      (scores.1.set name (config.score signal), scores.2.set name breakdown) (by
        rw [keys, List.append_assoc]
        exact distinct)
    refine ⟨scores', Run.foldlM_cons_ok.mpr ⟨_, scored, run⟩, ?_⟩
    rw [after, Py.Dict.items_set_of_not_mem fresh, List.append_assoc]
    rfl

end Scores

/-- The weights in proportion to the scores, or even ones when no score is positive. -/
def proportional (rawScores : Py.Dict String ℚ) (total : ℚ) (name : String) : ℚ :=
  let names := sortedNames rawScores.keys
  let rawSum := (names.map fun name => max (rawScores.getD name 0) 0).sum
  if rawSum ≤ 0 then total / names.length else total * max (rawScores.getD name 0) 0 / rawSum

section Project
variable {rawScores : Py.Dict String ℚ} {total minWeight maxWeight : ℚ}

theorem Feasible.sorted (feasible : Feasible rawScores.keys.length total minWeight maxWeight) :
    Feasible (sortedNames rawScores.keys).length total minWeight maxWeight := by
  rwa [(sortedNames_perm _).length_eq]

theorem sum_proportional (feasible : Feasible rawScores.keys.length total minWeight maxWeight) :
    ((sortedNames rawScores.keys).map (proportional rawScores total)).sum = total := by
  have nonempty : sortedNames rawScores.keys ≠ [] := by
    intro empty
    have most := feasible.sorted.most
    rw [empty, List.length_nil, Nat.cast_zero, zero_mul] at most
    exact absurd feasible.positive (not_lt.mpr most)
  by_cases flat : ((sortedNames rawScores.keys).map fun name => max (rawScores.getD name 0) 0).sum ≤ 0
  · have even : proportional rawScores total = fun _ => total / (sortedNames rawScores.keys).length :=
      funext fun _ => if_pos flat
    rw [even]
    exact Shares.sum_even _ nonempty
  · have shares : proportional rawScores total = fun name => total * max (rawScores.getD name 0) 0 /
        ((sortedNames rawScores.keys).map fun name => max (rawScores.getD name 0) 0).sum :=
      funext fun _ => if_neg flat
    rw [shares]
    exact Shares.sum_proportional total _ (not_le.mp flat).ne'

theorem getD_ofKeys_proportional {name : String} (member : name ∈ sortedNames rawScores.keys) :
    (Py.Dict.ofKeys (sortedNames rawScores.keys) (proportional rawScores total)).getD name 0 =
      proportional rawScores total name :=
  Py.Dict.getD_ofKeys member _ _

/-- What the loop of `_project_weights` makes of the scores. -/
def projectedScores (rawScores : Py.Dict String ℚ) (total minWeight maxWeight : ℚ) : Py.Dict String ℚ :=
  projectionLoop (sortedNames rawScores.keys) (proportional rawScores total) total minWeight maxWeight 16
    (.ofKeys (sortedNames rawScores.keys) (proportional rawScores total))

theorem projectedScores_projected (feasible : Feasible rawScores.keys.length total minWeight maxWeight) :
    Projected (sortedNames rawScores.keys) total minWeight maxWeight
      (projectedScores rawScores total minWeight maxWeight) := by
  have keys := Py.Dict.keys_ofKeys (nodup_sortedNames rawScores) (proportional rawScores total)
  refine projectionLoop_projected _ feasible.sorted 16 keys ?_
  rw [Py.Dict.values_ofKeys (nodup_sortedNames rawScores), sum_proportional feasible]

/-- **The projection** never fails within feasible bounds: it corrects what the loop
leaves. -/
theorem projectScores_eq (feasible : Feasible rawScores.keys.length total minWeight maxWeight) :
    projectScores rawScores total minWeight maxWeight = .ok (correctResidual (sortedNames rawScores.keys) total
      minWeight maxWeight (projectedScores rawScores total minWeight maxWeight)) := by
  have tolerates : 0 ≤ tolerance := by norm_num [tolerance]
  have positive : 0 < (projectedScores rawScores total minWeight maxWeight).values.sum := by
    rcases (projectedScores_projected feasible).settled with sum | ⟨positive, -⟩
    · rw [sum]
      exact feasible.positive
    · exact positive
  unfold projectScores
  refine Run.bind_ok.mpr ⟨(), raiseIf_ok.mpr (not_lt.mpr ?_), Run.bind_ok.mpr ⟨(), raiseIf_ok.mpr (not_lt.mpr ?_),
    Run.bind_ok.mpr ⟨(), raiseIf_ok.mpr (not_le.mpr positive), rfl⟩⟩⟩
  · exact feasible.sorted.least.trans (le_add_of_nonneg_right tolerates)
  · exact (sub_le_self _ tolerates).trans feasible.sorted.most

/-- The weights miss the total by at most the tolerance. -/
theorem projectScores_sum (feasible : Feasible rawScores.keys.length total minWeight maxWeight) :
    ∃ weights, projectScores rawScores total minWeight maxWeight = .ok weights ∧
      weights.keys = sortedNames rawScores.keys ∧ |weights.values.sum - total| ≤ tolerance :=
  ⟨_, projectScores_eq feasible, correctResidual_sum feasible.sorted (projectedScores_projected feasible)⟩

end Project

/-- The scores of valid signals. -/
def CapitalAllocatorConfig.scores (config : CapitalAllocatorConfig) (signals : Py.Dict String AllocationSignal) :
    Py.Dict String ℚ :=
  signals.mapValues fun _ signal => config.score signal

/-- **An allocation** of valid signals, from the weights of their scores. -/
theorem allocateCapital_ok (config : CapitalAllocatorConfig) {signals : Py.Dict String AllocationSignal}
    {totalCapital : ℚ} (some_ : signals.items ≠ [])
    (valid : ∀ item ∈ signals.items, validateSignal item.1 item.2 = .ok ()) (positive : 0 < totalCapital)
    {weights : Py.Dict String ℚ}
    (projected : projectScores (config.scores signals) 1 config.minWeight config.maxWeight = .ok weights) :
    ∃ result, allocateCapital signals totalCapital config = .ok result ∧
      result.investableCapital = totalCapital - totalCapital * config.cashReserveRatio ∧
      result.reserveCapital = totalCapital * config.cashReserveRatio ∧ result.strategyWeights = weights ∧
      result.strategyCapital = weights.mapValues fun _ w => result.investableCapital * w := by
  obtain ⟨scores, scored, items⟩ := @foldlM_scoreSignal config _ valid (.empty, .empty) signals.nodup
  have same : scores.1 = config.scores signals := by
    obtain ⟨⟨_, _⟩, _⟩ := scores
    cases items
    rfl
  rw [← same] at projected
  let investable := totalCapital - totalCapital * config.cashReserveRatio
  refine ⟨⟨totalCapital, investable, totalCapital * config.cashReserveRatio, weights,
    weights.mapValues fun _ w => investable * w, scores.1, scores.2⟩, ?_, rfl, rfl, rfl, rfl⟩
  unfold allocateCapital
  refine Run.bind_ok.mpr ⟨(), raiseIf_ok.mpr (not_le.mpr positive), Run.bind_ok.mpr ⟨(), raiseIf_ok.mpr ?_,
    Run.bind_ok.mpr ⟨scores, scored, Run.bind_ok.mpr ⟨weights, projected, rfl⟩⟩⟩⟩
  exact not_lt.mpr (List.length_pos_iff.mpr some_)

/-- Bounds that the weights of the strategies can meet. -/
theorem CapitalAllocatorConfig.feasible (config : CapitalAllocatorConfig) {signals : Py.Dict String AllocationSignal}
    (least : signals.items.length * config.minWeight ≤ 1) (most : 1 ≤ signals.items.length * config.maxWeight) :
    Feasible (config.scores signals).keys.length 1 config.minWeight config.maxWeight := by
  have count : (config.scores signals).keys.length = signals.items.length := by
    rw [CapitalAllocatorConfig.scores, Py.Dict.keys_mapValues, Py.Dict.keys, List.length_map]
  obtain ⟨-, -, nonneg, ordered, -⟩ := config.bounds
  rw [count]
  exact ⟨one_pos, nonneg, ordered, least, most⟩

theorem CapitalAllocatorConfig.investable_nonneg (config : CapitalAllocatorConfig) {totalCapital : ℚ}
    (positive : 0 < totalCapital) : 0 ≤ totalCapital - totalCapital * config.cashReserveRatio := by
  have kept : 0 ≤ totalCapital * (1 - config.cashReserveRatio) :=
    mul_nonneg positive.le (sub_nonneg.mpr config.bounds.2.1.le)
  linarith

/-- **Capital is conserved**: for valid signals and bounds that `n` weights can meet,
the allocation is made, and the reserve and the capital of the strategies add up to
the total, but for the tolerance of the weights. -/
theorem allocateCapital_conserves (config : CapitalAllocatorConfig) {signals : Py.Dict String AllocationSignal}
    {totalCapital : ℚ} (some_ : signals.items ≠ [])
    (valid : ∀ item ∈ signals.items, validateSignal item.1 item.2 = .ok ()) (positive : 0 < totalCapital)
    (least : signals.items.length * config.minWeight ≤ 1) (most : 1 ≤ signals.items.length * config.maxWeight) :
    ∃ result, allocateCapital signals totalCapital config = .ok result ∧
      |result.reserveCapital + result.strategyCapital.values.sum - totalCapital| ≤
        1 / 10 ^ 12 * result.investableCapital := by
  obtain ⟨weights, projected, -, sum⟩ := projectScores_sum (config.feasible least most)
  obtain ⟨result, run, investable, reserve, -, capital⟩ := allocateCapital_ok config some_ valid positive projected
  have invests : 0 ≤ result.investableCapital := investable ▸ config.investable_nonneg positive
  have invested : (weights.mapValues fun _ w => result.investableCapital * w).values.sum =
      result.investableCapital * weights.values.sum := by
    show ((weights.items.map fun item => (item.1, result.investableCapital * item.2)).map Prod.snd).sum = _
    rw [List.map_map, Py.Dict.values, ← List.sum_map_mul_left]
    rfl
  have misses : result.reserveCapital + result.strategyCapital.values.sum - totalCapital =
      result.investableCapital * (weights.values.sum - 1) := by
    rw [capital, invested, reserve]
    linarith
  refine ⟨result, run, ?_⟩
  show |result.reserveCapital + result.strategyCapital.values.sum - totalCapital| ≤ tolerance * result.investableCapital
  rw [misses, abs_mul, abs_of_nonneg invests, mul_comm]
  exact mul_le_mul_of_nonneg_right sum invests

/-- Two strategies under the default configuration. -/
theorem allocateCapital_conserves_pair :
    let signals : Py.Dict String AllocationSignal :=
      ⟨[("trend", ⟨9 / 10, 8 / 10, 0, 1 / 100, 0⟩), ("carry", ⟨1 / 10, 0, 1, 1, 1⟩)], by decide⟩
    ∃ result, allocateCapital signals 1000 .default = .ok result ∧
      |result.reserveCapital + result.strategyCapital.values.sum - 1000| ≤ 1 / 10 ^ 12 * result.investableCapital :=
  allocateCapital_conserves .default (by decide) (by decide +kernel) (by norm_num) (by decide +kernel) (by decide +kernel)

end CryptoQuant.Portfolio
