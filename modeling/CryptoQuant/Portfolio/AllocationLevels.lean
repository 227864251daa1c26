import CryptoQuant.Lib.WaterLevel
import CryptoQuant.Portfolio.AllocationBounds

/-!
# Rounds that do not settle

Where only one of the two bounds can be passed, the rounds of the projection are those
of a level: if the first one is not enough then no number of rounds is, since a weight
released from the bound passes it again.
-/

namespace CryptoQuant.Portfolio
set_option autoImplicit false

open WaterLevel (pastNow pastNow_iff Past IsLevel)

/-- The bound that weights from zero to the total can pass, and the sign of its side. -/
inductive OneSided (total : ℚ) : ℚ → ℚ → ℚ → ℚ → Prop where
  | above (maxWeight : ℚ) : OneSided total 0 maxWeight 1 maxWeight
  | below (minWeight : ℚ) : OneSided total minWeight total (-1) minWeight

/-- The weights of the names are at a level: the fixed ones on the bound, the others the
level times their base. -/
structure AtLevel (names : List String) (base : String → ℚ) (bound total : ℚ) (fixed : String → Bool) (level : ℚ)
    (p : Py.Dict String ℚ) : Prop where
  keys : p.keys = names
  sum : p.values.sum = total
  weight : ∀ name ∈ names, p.getD name 0 = WaterLevel.weight base bound fixed level name
  nonneg : ∀ name ∈ names, 0 ≤ p.getD name 0

section Levels
variable {names : List String} {base : String → ℚ} {total minWeight maxWeight sign bound level last : ℚ}
variable {before fixed : String → Bool} {p : Py.Dict String ℚ}

namespace OneSided

/-- A weight from zero to the total is outside the bounds when it is past the one. -/
theorem outside_iff (side : OneSided total minWeight maxWeight sign bound) {weight : ℚ} (nonneg : 0 ≤ weight)
    (most : weight ≤ total) : maxWeight < weight ∨ weight < minWeight ↔ Past sign bound weight := by
  unfold Past
  cases side with
  | above => rw [one_mul, one_mul, or_iff_left (not_lt.mpr nonneg)]
  | below => rw [neg_one_mul, neg_one_mul, neg_lt_neg_iff, or_iff_right (not_lt.mpr most)]

theorem bound_inside (side : OneSided total minWeight maxWeight sign bound) (ordered : minWeight ≤ maxWeight) :
    minWeight ≤ bound ∧ bound ≤ maxWeight := by
  cases side with
  | above => exact ⟨ordered, le_rfl⟩
  | below => exact ⟨le_rfl, ordered⟩

/-- A name outside its bounds goes to the bound. -/
theorem rebalanced_of_past (side : OneSided total minWeight maxWeight sign bound) {weight : String → ℚ} {name : String}
    (nonneg : 0 ≤ weight name) (most : weight name ≤ total) (past : Past sign bound (weight name)) :
    rebalanced names base total minWeight maxWeight weight name = bound := by
  have outside := (side.outside_iff nonneg most).mpr past
  unfold rebalanced
  cases side with
  | above => rw [if_neg (not_lt.mpr nonneg), if_pos (outside.resolve_right (not_lt.mpr nonneg))]
  | below => rw [if_pos (outside.resolve_left (not_lt.mpr most))]

theorem rebalanced_of_not_past (side : OneSided total minWeight maxWeight sign bound) {weight : String → ℚ}
    {name : String} (nonneg : 0 ≤ weight name) (most : weight name ≤ total) (inside : ¬ Past sign bound (weight name)) :
    rebalanced names base total minWeight maxWeight weight name =
      allotment names base total minWeight maxWeight weight name := by
  rw [← side.outside_iff nonneg most, not_or] at inside
  rw [rebalanced, if_neg inside.2, if_neg inside.1]

/-- The names outside leave no less than nothing. -/
theorem leftOver_nonneg (side : OneSided total minWeight maxWeight sign bound)
    (feasible : Feasible names.length total minWeight maxWeight) {weight : String → ℚ}
    (nonneg : ∀ name ∈ names, 0 ≤ weight name) (most : ∀ name ∈ names, weight name ≤ total)
    (sum : (names.map weight).sum = total) : 0 ≤ leftOver names total minWeight maxWeight weight := by
  unfold leftOver
  cases side with
  | above =>
    have high : ((names.filter fun name => maxWeight < weight name).map fun _ => maxWeight).sum ≤
        ((names.filter fun name => maxWeight < weight name).map weight).sum :=
      List.sum_le_sum fun name member => (of_decide_eq_true (List.mem_filter.mp member).2).le
    have others : 0 ≤ ((names.filter fun name => !decide (maxWeight < weight name)).map weight).sum := by
      refine List.sum_nonneg fun w member => ?_
      obtain ⟨name, within, rfl⟩ := List.mem_map.mp member
      exact nonneg name (List.mem_filter.mp within).1
    rw [Shares.sum_split fun name => decide (maxWeight < weight name)] at sum
    rw [List.map_const', List.sum_replicate, nsmul_eq_mul] at high
    rw [mul_zero, add_zero]
    linarith
  | below =>
    have none_ : (names.filter fun name => total < weight name) = [] := by
      refine List.filter_eq_nil_iff.mpr fun name member => ?_
      rw [decide_eq_true_iff]
      exact not_lt.mpr (most name member)
    have fewer : ((names.filter fun name => weight name < minWeight).length : ℚ) ≤ names.length :=
      Nat.cast_le.mpr (List.length_filter_le _ _)
    have least := (mul_le_mul_of_nonneg_right fewer feasible.nonneg).trans feasible.least
    rw [none_, List.length_nil, Nat.cast_zero, zero_mul, zero_add]
    exact sub_nonneg.mpr least

end OneSided

namespace AtLevel

theorem isLevel (at_ : AtLevel names base bound total fixed level p) : IsLevel names base bound total fixed level := by
  rw [IsLevel, ← List.map_congr_left at_.weight, ← at_.keys, ← sum_values, at_.sum]

theorem most (at_ : AtLevel names base bound total fixed level p) {name : String} (member : name ∈ names) :
    p.getD name 0 ≤ total := by
  have sum := at_.sum
  rw [sum_values, at_.keys] at sum
  rw [← sum]
  refine List.single_le_sum (fun weight within => ?_) _ (List.mem_map.mpr ⟨name, member, rfl⟩)
  obtain ⟨name, member, rfl⟩ := List.mem_map.mp within
  exact at_.nonneg name member

theorem past_iff (at_ : AtLevel names base bound total fixed level p) {name : String} (member : name ∈ names) :
    Past sign bound (p.getD name 0) ↔ pastNow base sign bound fixed level name := by
  rw [at_.weight name member, pastNow_iff, WaterLevel.weight]
  split
  · rename_i here
    exact ⟨fun past => absurd past (lt_irrefl _), fun past => absurd here past.1⟩
  · rename_i free
    exact (and_iff_right free).symm

/-- **A round goes from a level to the next one.** -/
theorem round (at_ : AtLevel names base bound total fixed level p)
    (side : OneSided total minWeight maxWeight sign bound) (feasible : Feasible names.length total minWeight maxWeight)
    (positive : ∀ name ∈ names, 0 < base name) (rounds : ℕ)
    (past : ∃ name ∈ names, pastNow base sign bound fixed level name)
    (inside : (insideNames names minWeight maxWeight fun name => p.getD name 0) ≠ []) :
    ∃ q next, AtLevel names base bound total (pastNow base sign bound fixed level) next q ∧
      (∀ name ∈ insideNames names minWeight maxWeight fun name => p.getD name 0,
        allotment names base total minWeight maxWeight (fun name => p.getD name 0) name = next * base name) ∧
      projectionLoop names base total minWeight maxWeight (rounds + 1) p =
        projectionLoop names base total minWeight maxWeight rounds q := by
  have keys := at_.keys
  subst keys
  let freeBase := ((insideNames p.keys minWeight maxWeight fun name => p.getD name 0).map base).sum
  let next := leftOver p.keys total minWeight maxWeight (fun name => p.getD name 0) / freeBase
  have base_pos : 0 < freeBase := by
    refine List.sum_pos _ (fun w member => ?_) fun none_ => inside (List.map_eq_nil_iff.mp none_)
    obtain ⟨name, within, rfl⟩ := List.mem_map.mp member
    exact positive name (mem_insideNames.mp within).1
  have shared : ∀ name,
      allotment p.keys base total minWeight maxWeight (fun name => p.getD name 0) name = next * base name := by
    intro name
    rw [allotment_of_base base_pos, div_mul_eq_mul_div]
  have most : ∀ name ∈ p.keys, p.getD name 0 ≤ total := fun name => at_.most
  have left := side.leftOver_nonneg feasible at_.nonneg most ((sum_values p).symm.trans at_.sum)
  have outside : ∃ name ∈ p.keys, maxWeight < p.getD name 0 ∨ p.getD name 0 < minWeight := by
    obtain ⟨name, member, past⟩ := past
    exact ⟨name, member, (side.outside_iff (at_.nonneg name member) (most name member)).mpr ((at_.past_iff member).mpr past)⟩
  obtain ⟨q, keys, sum, weights, loop⟩ :=
    projectionLoop_round base total feasible.ordered rounds outside inside
  have values : ∀ name ∈ p.keys,
      q.getD name 0 = WaterLevel.weight base bound (pastNow base sign bound fixed level) next name := by
    intro name member
    rw [weights name member, WaterLevel.weight]
    split
    · rename_i here
      exact side.rebalanced_of_past (at_.nonneg name member) (most name member) ((at_.past_iff member).mpr here)
    · rename_i here
      have within : ¬ Past sign bound (p.getD name 0) := mt (at_.past_iff member).mp here
      rw [← shared name]
      exact side.rebalanced_of_not_past (at_.nonneg name member) (most name member) within
  refine ⟨q, next, ⟨keys, sum, values, fun name member => ?_⟩, fun name _ => shared name, loop⟩
  rw [values name member, WaterLevel.weight]
  split
  · exact feasible.nonneg.trans (side.bound_inside feasible.ordered).1
  · exact mul_nonneg (div_nonneg left base_pos.le) (positive name member).le

/-- A name past the bound is outside its bounds. -/
theorem not_inside (at_ : AtLevel names base bound total fixed level p)
    (side : OneSided total minWeight maxWeight sign bound)
    (past : ∃ name ∈ names, pastNow base sign bound fixed level name) : ¬ Inside minWeight maxWeight p := by
  obtain ⟨name, member, past⟩ := past
  intro inside
  have here := inside_iff.mp inside name (at_.keys ▸ member)
  rcases (side.outside_iff (at_.nonneg name member) (at_.most member)).mpr ((at_.past_iff member).mpr past) with high | low
  · exact absurd here.2 (not_le.mpr high)
  · exact absurd here.1 (not_le.mpr low)

/-- **An unsettled stage never settles.** -/
theorem projectionLoop_unsettled (side : OneSided total minWeight maxWeight sign bound)
    (feasible : Feasible names.length total minWeight maxWeight) (positive : ∀ name ∈ names, 0 < base name) (rounds : ℕ)
    (at_ : AtLevel names base bound total fixed level p)
    (stage : WaterLevel.Unsettled names base sign bound total before fixed last level) :
    (projectionLoop names base total minWeight maxWeight rounds p).values.sum = total ∧
      ¬ Inside minWeight maxWeight (projectionLoop names base total minWeight maxWeight rounds p) := by
  induction rounds generalizing before fixed last level p with
  | zero => exact ⟨at_.sum, at_.not_inside side stage.some_past⟩
  | succ rounds ih =>
    have inside : (insideNames names minWeight maxWeight fun name => p.getD name 0) ≠ [] := by
      obtain ⟨name, member, here⟩ := stage.some_fixed
      refine List.ne_nil_of_mem (mem_insideNames.mpr ⟨member, ?_⟩)
      rw [at_.weight name member, WaterLevel.weight, if_pos here]
      exact side.bound_inside feasible.ordered
    obtain ⟨q, next, later, -, loop⟩ := at_.round side feasible positive rounds stage.some_past inside
    rw [loop]
    exact ih later (stage.round positive later.isLevel)

end AtLevel

/-- When no weight is outside the bounds, the shares are the weights. -/
theorem allotment_of_inside (inside : ∀ name ∈ names, minWeight ≤ base name ∧ base name ≤ maxWeight)
    (sum : (names.map base).sum = total) (positive : 0 < total) (name : String) :
    allotment names base total minWeight maxWeight base name = base name := by
  have all : insideNames names minWeight maxWeight base = names := by
    refine List.filter_eq_self.mpr fun name member => ?_
    rw [decide_eq_true_iff]
    exact inside name member
  have high : (names.filter fun name => maxWeight < base name) = [] := by
    refine List.filter_eq_nil_iff.mpr fun name member => ?_
    rw [decide_eq_true_iff]
    exact not_lt.mpr (inside name member).2
  have low : (names.filter fun name => base name < minWeight) = [] := by
    refine List.filter_eq_nil_iff.mpr fun name member => ?_
    rw [decide_eq_true_iff]
    exact not_lt.mpr (inside name member).1
  have left : leftOver names total minWeight maxWeight base = total := by
    rw [leftOver, high, low]
    simp
  rw [allotment_of_base (by rwa [all, sum]), left, all, sum]
  exact mul_div_cancel_left₀ _ positive.ne'

/-- The loop, when its first round is not enough. -/
theorem projectedScores_not_inside {rawScores : Py.Dict String ℚ} (side : OneSided total minWeight maxWeight sign bound)
    (feasible : Feasible rawScores.keys.length total minWeight maxWeight)
    (positive : ∀ name ∈ sortedNames rawScores.keys, 0 < proportional rawScores total name)
    (unfit : ¬ FirstRoundFits rawScores total minWeight maxWeight) :
    (projectedScores rawScores total minWeight maxWeight).values.sum = total ∧
      ¬ Inside minWeight maxWeight (projectedScores rawScores total minWeight maxWeight) := by
  let names := sortedNames rawScores.keys
  let base := proportional rawScores total
  let p := Py.Dict.ofKeys names base
  have weights : ∀ name ∈ names, p.getD name 0 = base name := fun name member => getD_ofKeys_proportional member
  -- all names start free, at the level one
  have start : AtLevel names base bound total (fun _ => false) 1 p := by
    refine ⟨Py.Dict.keys_ofKeys (nodup_sortedNames rawScores) _, ?_, fun name member => ?_, fun name member => ?_⟩
    · rw [Py.Dict.values_ofKeys (nodup_sortedNames rawScores), sum_proportional feasible]
    · rw [weights name member]
      exact (one_mul _).symm
    · rw [weights name member]
      exact (positive name member).le
  obtain ⟨same, shares⟩ := @allotment_congr names base total minWeight maxWeight (fun name => p.getD name 0) base weights
  obtain ⟨failing, member, out⟩ : ∃ name ∈ insideNames names minWeight maxWeight base,
      ¬ (minWeight ≤ allotment names base total minWeight maxWeight base name ∧
        allotment names base total minWeight maxWeight base name ≤ maxWeight) := by
    by_contra none_
    exact unfit fun name member => by_contra fun out => none_ ⟨name, member, out⟩
  obtain ⟨there, inside⟩ := mem_insideNames.mp member
  have past : ∃ name ∈ names, pastNow base sign bound (fun _ => false) 1 name := by
    by_contra none_
    have all : ∀ name ∈ names, minWeight ≤ base name ∧ base name ≤ maxWeight := by
      by_contra some_
      obtain ⟨name, here, outside⟩ := exists_outside some_
      rw [← weights name here, side.outside_iff (start.nonneg name here) (start.most here)] at outside
      exact none_ ⟨name, here, (start.past_iff here).mp outside⟩
    rw [allotment_of_inside all (sum_proportional feasible) feasible.positive] at out
    exact out inside
  obtain ⟨q, next, later, given, loop⟩ := start.round side feasible.sorted positive 15 past
    (by
      rw [same]
      exact List.ne_nil_of_mem member)
  have again : pastNow base sign bound (pastNow base sign bound (fun _ => false) 1) next failing := by
    have free : ¬ pastNow base sign bound (fun _ => false) 1 failing := by
      rw [← start.past_iff there, ← side.outside_iff (start.nonneg _ there) (start.most there), weights _ there, not_or,
        not_lt, not_lt]
      exact inside.symm
    have weight := later.weight failing there
    rw [WaterLevel.weight, if_neg free, ← given failing (same ▸ member), shares] at weight
    rw [← later.past_iff there, ← side.outside_iff (later.nonneg _ there) (later.most there), weight]
    rw [not_and_or, not_le, not_le] at out
    exact out.symm
  have stage : WaterLevel.Unsettled names base sign bound total (fun _ => false)
      (pastNow base sign bound (fun _ => false) 1) 1 next :=
    ⟨start.isLevel, later.isLevel, fun name _ here => pastNow_iff.mp here, past, ⟨failing, there, again⟩⟩
  have unsettled := later.projectionLoop_unsettled side feasible.sorted positive 15 stage
  rw [← loop] at unsettled
  exact unsettled

/-- **Where only one bound can be passed**, the projection meets its bounds only if its
first round is enough. -/
theorem firstRoundFits_of_inside {rawScores : Py.Dict String ℚ} (side : OneSided total minWeight maxWeight sign bound)
    (feasible : Feasible rawScores.keys.length total minWeight maxWeight)
    (positive : ∀ name ∈ sortedNames rawScores.keys, 0 < proportional rawScores total name)
    {weights : Py.Dict String ℚ} (run : projectScores rawScores total minWeight maxWeight = .ok weights)
    (inside : Inside minWeight maxWeight weights) : FirstRoundFits rawScores total minWeight maxWeight := by
  by_contra unfit
  obtain ⟨sum, unsettled⟩ := projectedScores_not_inside side feasible positive unfit
  have same : weights = projectedScores rawScores total minWeight maxWeight := by
    rw [projectScores_eq feasible, correctResidual_of_sum sum] at run
    exact (Except.ok.inj run).symm
  exact unsettled (same ▸ inside)

end Levels

/-- The weights in proportion to the scores of signals are positive. -/
theorem CapitalAllocatorConfig.proportional_pos (config : CapitalAllocatorConfig)
    {signals : Py.Dict String AllocationSignal} {name : String}
    (member : name ∈ sortedNames (config.scores signals).keys) : 0 < proportional (config.scores signals) 1 name := by
  have score : ∀ name ∈ sortedNames (config.scores signals).keys, 0 < (config.scores signals).getD name 0 := by
    intro name member
    rw [(sortedNames_perm _).mem_iff, CapitalAllocatorConfig.scores, Py.Dict.keys_mapValues] at member
    obtain ⟨signal, found⟩ := Py.Dict.mem_keys_iff.mp member
    rw [CapitalAllocatorConfig.scores, Py.Dict.getD, Py.Dict.get?_mapValues, found]
    exact config.score_pos signal
  have whole : 0 < ((sortedNames (config.scores signals).keys).map fun name =>
      max ((config.scores signals).getD name 0) 0).sum := by
    refine List.sum_pos _ (fun w within => ?_) fun none_ => ?_
    · obtain ⟨name, here, rfl⟩ := List.mem_map.mp within
      exact lt_max_of_lt_left (score name here)
    · rw [List.map_eq_nil_iff.mp none_] at member
      exact absurd member List.not_mem_nil
  rw [proportional, if_neg (not_le.mpr whole), one_mul]
  exact div_pos (lt_max_of_lt_left (score name member)) whole

/-- **The bounds of an allocation** are met when the first round of the projection is
enough, and then no strategy gets a negative amount, or more than the maximum share of the
investable capital. Where only one bound can be passed, they are met only then. -/
theorem allocateCapital_inside (config : CapitalAllocatorConfig) {signals : Py.Dict String AllocationSignal}
    {totalCapital : ℚ} (some_ : signals.items ≠ [])
    (valid : ∀ item ∈ signals.items, validateSignal item.1 item.2 = .ok ()) (positive : 0 < totalCapital)
    (least : signals.items.length * config.minWeight ≤ 1) (most : 1 ≤ signals.items.length * config.maxWeight) :
    ∃ result, allocateCapital signals totalCapital config = .ok result ∧
      projectScores (config.scores signals) 1 config.minWeight config.maxWeight = .ok result.strategyWeights ∧
      (FirstRoundFits (config.scores signals) 1 config.minWeight config.maxWeight →
        Inside config.minWeight config.maxWeight result.strategyWeights ∧
          ∀ capital ∈ result.strategyCapital.values,
            0 ≤ capital ∧ capital ≤ config.maxWeight * result.investableCapital) ∧
      (config.minWeight = 0 ∨ config.maxWeight = 1 →
        Inside config.minWeight config.maxWeight result.strategyWeights →
          FirstRoundFits (config.scores signals) 1 config.minWeight config.maxWeight) := by
  have feasible := config.feasible least most
  obtain ⟨weights, projected, -⟩ := projectScores_sum feasible
  obtain ⟨result, run, investable, -, rfl, capital⟩ := allocateCapital_ok config some_ valid positive projected
  have invests : 0 ≤ result.investableCapital := investable ▸ config.investable_nonneg positive
  refine ⟨result, run, projected, fun fits => ?_, fun side inside => ?_⟩
  · obtain ⟨weights, again, inside⟩ := projectScores_inside feasible fits
    rw [projected] at again
    obtain rfl := Except.ok.inj again
    refine ⟨inside, fun amount member => ?_⟩
    rw [capital] at member
    obtain ⟨_, item, rfl⟩ := List.mem_map.mp member
    obtain ⟨⟨name, weight⟩, here, rfl⟩ := List.mem_map.mp item
    have bounds := inside weight (List.mem_map.mpr ⟨(name, weight), here, rfl⟩)
    refine ⟨mul_nonneg invests (feasible.nonneg.trans bounds.1), ?_⟩
    show result.investableCapital * weight ≤ _
    rw [mul_comm]
    exact mul_le_mul_of_nonneg_right bounds.2 invests
  · have positive : ∀ name ∈ sortedNames (config.scores signals).keys, 0 < proportional (config.scores signals) 1 name :=
      fun name => config.proportional_pos
    rcases side with zero | one
    · rw [zero] at feasible projected inside ⊢
      exact firstRoundFits_of_inside (.above _) feasible positive projected inside
    · rw [one] at feasible projected inside ⊢
      exact firstRoundFits_of_inside (.below _) feasible positive projected inside

/-- A leader and two equal followers: the first round is enough. -/
theorem allocateCapital_inside_leader :
    let config : CapitalAllocatorConfig := ⟨{ minWeight := 1 / 10, maxWeight := 6 / 10 }, by decide +kernel⟩
    let follower : AllocationSignal := ⟨1 / 100, 5 / 100, 35 / 100, 9 / 100, 9 / 1000⟩
    let signals : Py.Dict String AllocationSignal :=
      ⟨[("alpha", ⟨1, 1, 0, 1 / 1000, 1 / 10000⟩), ("beta", follower), ("gamma", follower)], by decide⟩
    ∃ result, allocateCapital signals 100000 config = .ok result ∧
      Inside config.minWeight config.maxWeight result.strategyWeights := by
  intro config follower signals
  obtain ⟨result, run, -, bounded, -⟩ := @allocateCapital_inside config signals 100000
    (by decide) (by decide +kernel) (by norm_num) (by decide +kernel) (by decide +kernel)
  exact ⟨result, run, (bounded (by decide +kernel)).1⟩

/-- The configuration that scores by confidence alone, with a maximum of 0.4. -/
def CapitalAllocatorConfig.byConfidence : CapitalAllocatorConfig :=
  ⟨{ maxWeight := 4 / 10, confidenceWeight := 1, stabilityWeight := 0, drawdownWeight := 0, volatilityWeight := 0,
     tradingCostWeight := 0 }, by decide +kernel⟩

/-- Three strategies with confidences 0.6, 0.3 and 0.1. The first one goes to its
maximum and pushes the second above it, then they change places, and after all rounds
the first one has more than 0.5. -/
theorem allocateCapital_above_maximum :
    let config := CapitalAllocatorConfig.byConfidence
    let signals : Py.Dict String AllocationSignal :=
      ⟨[("trend", ⟨6 / 10, 0, 0, 0, 0⟩), ("carry", ⟨3 / 10, 0, 0, 0, 0⟩), ("value", ⟨1 / 10, 0, 0, 0, 0⟩)], by decide⟩
    (∀ item ∈ signals.items, validateSignal item.1 item.2 = .ok ()) ∧ signals.items.length * config.minWeight ≤ 1 ∧
      1 ≤ signals.items.length * config.maxWeight ∧
      ∃ result, allocateCapital signals 1000 config = .ok result ∧
        ¬ Inside (config.minWeight - 1 / 10 ^ 12) (config.maxWeight + 1 / 10 ^ 12) result.strategyWeights ∧
        1 / 2 < result.strategyWeights.getD "trend" 0 := by
  refine ⟨by decide +kernel, by decide +kernel, by decide +kernel, ?_⟩
  obtain ⟨result, run, test⟩ := Run.endsIn_iff.mp (show Run.endsIn
    (allocateCapital ⟨[("trend", ⟨6 / 10, 0, 0, 0, 0⟩), ("carry", ⟨3 / 10, 0, 0, 0, 0⟩), ("value", ⟨1 / 10, 0, 0, 0, 0⟩)],
      by decide⟩ 1000 .byConfidence) (fun result => decide (¬ Inside (CapitalAllocatorConfig.byConfidence.minWeight - 1 / 10 ^ 12)
        (CapitalAllocatorConfig.byConfidence.maxWeight + 1 / 10 ^ 12) result.strategyWeights ∧
        1 / 2 < result.strategyWeights.getD "trend" 0)) = true by decide +kernel)
  exact ⟨result, run, of_decide_eq_true test⟩

end CryptoQuant.Portfolio
