import CryptoQuant.Lib.Best
import CryptoQuant.Lib.Run
import CryptoQuant.Portfolio.Rebalancing
import Mathlib.Algebra.BigOperators.Ring.List
import Mathlib.Algebra.Order.BigOperators.Group.List
import Mathlib.Algebra.Order.Field.Basic
import Mathlib.Tactic.Linarith
import Mathlib.Tactic.Positivity
import Mathlib.Tactic.Ring

/-!
# Rebalancing schedules

The weights of a day and their targets both sum to one, up to the tolerance of the
validation, so the distances between them nearly balance. This bounds a turnover by the
drift and the drift by the turnover, and a schedule is the part of the days that is
due and passes both thresholds.
-/

namespace CryptoQuant.Rebalancing
set_option autoImplicit false

open Portfolio (sortedNames sortedNames_perm)

section Weights
/-- Weights that the validation accepts. -/
def Weights (weights : List ℚ) : Prop := (∀ weight ∈ weights, 0 ≤ weight ∧ weight ≤ 1) ∧ |weights.sum - 1| ≤ tolerance

theorem validateWeightVector_ok_iff (weights : List ℚ) (label : String) :
    validateWeightVector weights label = .ok () ↔ Weights weights := by
  unfold validateWeightVector Weights
  by_cases within : ∀ weight ∈ weights, 0 ≤ weight ∧ weight ≤ 1
  · rw [if_neg (not_not.mpr within)]
    by_cases far : tolerance < |weights.sum - 1|
    · rw [if_pos far]
      exact ⟨nofun, fun ok => absurd ok.2 (not_le.mpr far)⟩
    · rw [if_neg far]
      exact ⟨fun _ => ⟨within, not_lt.mp far⟩, fun _ => rfl⟩
  · rw [if_pos within]
    exact ⟨nofun, fun ok => absurd ok.1 within⟩

variable {diffs_ : List ℚ}

theorem turnover_nonneg (diffs_ : List ℚ) : 0 ≤ turnover diffs_ := by
  have absolute : 0 ≤ (diffs_.map abs).sum := by
    apply List.sum_nonneg
    intro x member
    obtain ⟨d, -, rfl⟩ := List.mem_map.mp member
    exact abs_nonneg d
  unfold turnover
  positivity

/-- The drift is the greatest distance. -/
theorem isGreatest_maxAbs (some_ : diffs_ ≠ []) : IsGreatest {x | ∃ d ∈ diffs_, |d| = x} (maxAbs diffs_) := by
  obtain ⟨first, rest, rfl⟩ := List.exists_cons_of_ne_nil some_
  have greatest := Best.isGreatest_foldl_max |first| (rest.map abs)
  have values : {x | ∃ d ∈ first :: rest, |d| = x} = {x | x ∈ |first| :: rest.map abs} := by
    ext x
    simp [eq_comm]
  rw [values]
  exact greatest

/-- A distance is at most half of all distances and half of what they miss to balance. -/
theorem two_mul_abs_le {d : ℚ} (member : d ∈ diffs_) : 2 * |d| ≤ (diffs_.map abs).sum + |diffs_.sum| := by
  obtain ⟨before, after, rfl⟩ := List.append_of_mem member
  have total : (before ++ d :: after).sum = d + (before ++ after).sum := by
    simp only [List.sum_append, List.sum_cons]
    ring
  have distances : ((before ++ d :: after).map abs).sum = |d| + ((before ++ after).map abs).sum := by
    simp only [List.map_append, List.map_cons, List.sum_append, List.sum_cons]
    ring
  have others : |(before ++ after).sum| ≤ ((before ++ after).map abs).sum := by
    induction before ++ after with
    | nil => simp
    | cons x xs ih =>
      simp only [List.sum_cons, List.map_cons]
      exact (abs_add_le x xs.sum).trans (by linarith)
  have own : |d| ≤ |d + (before ++ after).sum| + |(before ++ after).sum| := by
    have split : d = (d + (before ++ after).sum) - (before ++ after).sum := by ring
    calc |d| = |(d + (before ++ after).sum) - (before ++ after).sum| := by rw [← split]
      _ ≤ _ := abs_sub _ _
  rw [total, distances]
  linarith

theorem sum_abs_le {bound : ℚ} (within : ∀ d ∈ diffs_, |d| ≤ bound) : (diffs_.map abs).sum ≤ diffs_.length * bound := by
  have most := List.sum_le_card_nsmul (diffs_.map abs) bound fun x member => by
    obtain ⟨d, among, rfl⟩ := List.mem_map.mp member
    exact within d among
  rwa [List.length_map, nsmul_eq_mul] at most

theorem sum_diffs {targetVec current : List ℚ} (lengths : targetVec.length = current.length) :
    (diffs targetVec current).sum = targetVec.sum - current.sum := by
  induction targetVec generalizing current with
  | nil =>
    rw [List.eq_nil_of_length_eq_zero lengths.symm]
    simp [diffs]
  | cons t ts ih =>
    obtain ⟨c, cs, rfl⟩ := List.exists_cons_of_length_eq_add_one lengths.symm
    have rest := ih (show ts.length = cs.length by simpa using lengths)
    simp only [diffs, List.zipWith_cons_cons, List.sum_cons] at rest ⊢
    rw [rest]
    ring

theorem sum_abs_diffs_le {targetVec current : List ℚ} (lengths : targetVec.length = current.length)
    (targets : ∀ t ∈ targetVec, 0 ≤ t) (currents : ∀ c ∈ current, 0 ≤ c) :
    ((diffs targetVec current).map abs).sum ≤ targetVec.sum + current.sum := by
  induction targetVec generalizing current with
  | nil =>
    rw [List.eq_nil_of_length_eq_zero lengths.symm]
    simp [diffs]
  | cons t ts ih =>
    obtain ⟨c, cs, rfl⟩ := List.exists_cons_of_length_eq_add_one lengths.symm
    have rest := ih (show ts.length = cs.length by simpa using lengths) (fun x member => targets x (List.mem_cons_of_mem t member))
      fun x member => currents x (List.mem_cons_of_mem c member)
    have first : |t - c| ≤ t + c := abs_sub_le_iff.mpr
      ⟨by linarith [currents c List.mem_cons_self], by linarith [targets t List.mem_cons_self]⟩
    simp only [diffs, List.zipWith_cons_cons, List.map_cons, List.sum_cons] at rest ⊢
    linarith

/-- **What a rebalance trades**: at most all and the tolerance, at least the greatest drift
less the tolerance, and at most that drift in half of the strategies. -/
theorem rebalanceEvent_bounds {targetVec current : List ℚ} (lengths : targetVec.length = current.length)
    (some_ : targetVec ≠ []) (targets : Weights targetVec) (currents : Weights current) (costRate : ℚ) (dayIndex : ℕ) :
    let event := rebalanceEvent targetVec current costRate dayIndex
    0 ≤ event.turnover ∧ event.turnover ≤ 1 + tolerance ∧ event.maxDrift ≤ event.turnover + tolerance ∧
      event.turnover ≤ targetVec.length / 2 * event.maxDrift := by
  intro event
  have size : (diffs targetVec current).length = targetVec.length := by
    rw [diffs, List.length_zipWith, ← lengths, min_self]
  have filled : diffs targetVec current ≠ [] := by
    intro empty
    rw [empty] at size
    exact some_ (List.eq_nil_of_length_eq_zero size.symm)
  obtain ⟨⟨d, member, drift⟩, greatest⟩ := isGreatest_maxAbs filled
  have balance := two_mul_abs_le member
  rw [sum_diffs lengths, drift] at balance
  have off : |targetVec.sum - current.sum| ≤ 2 * tolerance := by
    have split : targetVec.sum - current.sum = (targetVec.sum - 1) - (current.sum - 1) := by ring
    rw [split]
    exact (abs_sub _ _).trans (by linarith [targets.2, currents.2])
  have whole := sum_abs_diffs_le lengths (fun t member => (targets.1 t member).1) fun c member => (currents.1 c member).1
  have most : ((diffs targetVec current).map abs).sum ≤ (diffs targetVec current).length * maxAbs (diffs targetVec current) :=
    sum_abs_le fun d member => greatest ⟨d, member, rfl⟩
  rw [size] at most
  have above := (abs_le.mp targets.2).2
  have above' := (abs_le.mp currents.2).2
  refine ⟨turnover_nonneg _, ?_, ?_, ?_⟩
  · show turnover (diffs targetVec current) ≤ 1 + tolerance
    unfold turnover
    linarith
  · show maxAbs (diffs targetVec current) ≤ turnover (diffs targetVec current) + tolerance
    unfold turnover
    linarith
  · show turnover (diffs targetVec current) ≤ targetVec.length / 2 * maxAbs (diffs targetVec current)
    unfold turnover
    linarith

end Weights

section Schedule
variable {weightHistory : Py.Dict String (List ℚ)} {targetWeights : Py.Dict String ℚ} {costRate : ℚ}
  {names : List String} {targetVec : List ℚ} {config config' : RebalanceScheduleConfig} {events events' : List RebalanceEvent}

/-- The loop looks at the weights of the day. -/
def Due (config : RebalanceScheduleConfig) (day : ℕ) : Prop := 0 < day ∧ config.cadenceDays ∣ day

/-- The event passes the thresholds. -/
def Passes (config : RebalanceScheduleConfig) (event : RebalanceEvent) : Prop :=
  config.driftThreshold ≤ event.maxDrift ∧ config.minTradeWeight ≤ event.turnover

instance (config : RebalanceScheduleConfig) (day : ℕ) : Decidable (Due config day) :=
  inferInstanceAs (Decidable (0 < day ∧ config.cadenceDays ∣ day))

instance (config : RebalanceScheduleConfig) (event : RebalanceEvent) : Decidable (Passes config event) :=
  inferInstanceAs (Decidable (config.driftThreshold ≤ event.maxDrift ∧ config.minTradeWeight ≤ event.turnover))

/-- The event of a day of the history. -/
def eventOn (weightHistory : Py.Dict String (List ℚ)) (names : List String) (targetVec : List ℚ) (costRate : ℚ) (day : ℕ) :
    RebalanceEvent := rebalanceEvent targetVec (weightsOn weightHistory names day) costRate day

/-- The events of the days that are due and pass. -/
def scheduled (weightHistory : Py.Dict String (List ℚ)) (names : List String) (targetVec : List ℚ) (costRate : ℚ)
    (config : RebalanceScheduleConfig) (days : List ℕ) : List RebalanceEvent :=
  (days.filter fun day => Due config day ∧ Passes config (eventOn weightHistory names targetVec costRate day)).map
    (eventOn weightHistory names targetVec costRate)

theorem scheduled_singleton (day : ℕ) (due : Due config day) :
    scheduled weightHistory names targetVec costRate config [day] =
      if Passes config (eventOn weightHistory names targetVec costRate day) then
        [eventOn weightHistory names targetVec costRate day] else [] := by
  rw [scheduled, List.filter_singleton]
  split <;> simp_all

/-- A day of the loop that does not raise. -/
theorem scheduleDay_ok_iff (day : ℕ) :
    scheduleDay weightHistory names targetVec costRate config events day = .ok events' ↔
      (Due config day → Weights (weightsOn weightHistory names day)) ∧
        events' = events ++ scheduled weightHistory names targetVec costRate config [day] := by
  have skipped : (day = 0 ∨ (day : ℤ) % config.cadenceDays ≠ 0) ↔ ¬ Due config day := by
    rw [Due, Int.dvd_iff_emod_eq_zero]
    omega
  unfold scheduleDay
  by_cases due : Due config day
  · rw [if_neg (not_not.mpr due ∘ skipped.mp), Run.bind_ok, scheduled_singleton day due]
    have thresholds : (if (eventOn weightHistory names targetVec costRate day).maxDrift < config.driftThreshold then
          (.ok events : Except PyError (List RebalanceEvent))
        else if (eventOn weightHistory names targetVec costRate day).turnover < config.minTradeWeight then .ok events
        else .ok (events ++ [eventOn weightHistory names targetVec costRate day])) =
        .ok (events ++ if Passes config (eventOn weightHistory names targetVec costRate day) then
          [eventOn weightHistory names targetVec costRate day] else []) := by
      split
      · rename_i low
        rw [if_neg fun passes : Passes config _ => absurd low (not_lt.mpr passes.1), List.append_nil]
      · rename_i drifted
        split
        · rename_i low
          rw [if_neg fun passes : Passes config _ => absurd low (not_lt.mpr passes.2), List.append_nil]
        · rename_i traded
          rw [if_pos (show Passes config _ from ⟨not_lt.mp drifted, not_lt.mp traded⟩)]
    constructor
    · rintro ⟨⟨⟩, valid, done⟩
      exact ⟨fun _ => (validateWeightVector_ok_iff _ _).mp valid, (Except.ok.inj (thresholds.symm.trans done)).symm⟩
    · rintro ⟨valid, rfl⟩
      exact ⟨(), (validateWeightVector_ok_iff _ _).mpr (valid due), thresholds⟩
  · rw [if_pos (skipped.mpr due)]
    simp [scheduled, due, eq_comm]

theorem scheduled_append (days days' : List ℕ) :
    scheduled weightHistory names targetVec costRate config (days ++ days') =
      scheduled weightHistory names targetVec costRate config days ++
        scheduled weightHistory names targetVec costRate config days' := by
  unfold scheduled
  rw [List.filter_append, List.map_append]

/-- **Run lemma** of the loop. -/
theorem scheduleDays_ok_iff (days : List ℕ) :
    days.foldlM (scheduleDay weightHistory names targetVec costRate config) events = .ok events' ↔
      (∀ day ∈ days, Due config day → Weights (weightsOn weightHistory names day)) ∧
        events' = events ++ scheduled weightHistory names targetVec costRate config days := by
  induction days using List.reverseRecOn generalizing events' with
  | nil => simp [scheduled, pure, Except.pure, eq_comm]
  | append_singleton days day ih =>
    rw [Run.foldlM_snoc_ok, scheduled_append]
    constructor
    · rintro ⟨before, run, last⟩
      obtain ⟨valid, rfl⟩ := ih.mp run
      obtain ⟨own, rfl⟩ := (scheduleDay_ok_iff day).mp last
      refine ⟨fun d member => ?_, List.append_assoc _ _ _⟩
      rcases List.mem_append.mp member with earlier | here
      · exact valid d earlier
      · exact List.mem_singleton.mp here ▸ own
    · rintro ⟨valid, rfl⟩
      refine ⟨_, ih.mpr ⟨fun d member => valid d (List.mem_append_left _ member), rfl⟩, ?_⟩
      exact (scheduleDay_ok_iff day).mpr ⟨valid day (List.mem_append_right _ List.mem_cons_self),
        (List.append_assoc _ _ _).symm⟩

theorem dedup_eq_singleton_iff {α : Type} [DecidableEq α] {l : List α} {a : α} :
    l.dedup = [a] ↔ l ≠ [] ∧ ∀ x ∈ l, x = a := by
  constructor
  · intro alone
    have mem (x : α) : x ∈ l ↔ x = a := by rw [← List.mem_dedup, alone, List.mem_singleton]
    exact ⟨List.ne_nil_of_mem ((mem a).mpr rfl), fun x member => (mem x).mp member⟩
  · rintro ⟨some_, same⟩
    have length : l.length ≠ 0 := fun none_ => some_ (List.eq_nil_of_length_eq_zero none_)
    rw [List.eq_replicate_iff.mpr ⟨rfl, same⟩, List.replicate_dedup length]

/-- What `build_rebalance_schedule` checks, for histories of `length` days. -/
structure Admitted (weightHistory : Py.Dict String (List ℚ)) (targetWeights : Py.Dict String ℚ) (costRate : ℚ)
    (config : RebalanceScheduleConfig) (length : ℕ) : Prop where
  two : 2 ≤ targetWeights.keys.length
  same : weightHistory.keys.toFinset = targetWeights.keys.toFinset
  lengths : ∀ name ∈ targetWeights.keys, (weightHistory.getD name []).length = length
  targets : 0 < length → Weights ((sortedNames targetWeights.keys).map fun name => targetWeights.getD name 0)
  checked : 0 < length → 0 < config.cadenceDays ∧ 0 ≤ config.driftThreshold ∧ 0 ≤ config.minTradeWeight ∧ 0 ≤ costRate
  weights : ∀ day < length, Due config day → Weights (weightsOn weightHistory (sortedNames targetWeights.keys) day)

theorem checkConfig_ok_iff :
    checkConfig config costRate = .ok () ↔
      0 < config.cadenceDays ∧ 0 ≤ config.driftThreshold ∧ 0 ≤ config.minTradeWeight ∧ 0 ≤ costRate := by
  unfold checkConfig
  by_cases cadence : config.cadenceDays ≤ 0
  · rw [if_pos cadence]
    exact ⟨nofun, fun ok => absurd ok.1 (not_lt.mpr cadence)⟩
  rw [if_neg cadence]
  by_cases drift : config.driftThreshold < 0
  · rw [if_pos drift]
    exact ⟨nofun, fun ok => absurd ok.2.1 (not_le.mpr drift)⟩
  rw [if_neg drift]
  by_cases trade : config.minTradeWeight < 0
  · rw [if_pos trade]
    exact ⟨nofun, fun ok => absurd ok.2.2.1 (not_le.mpr trade)⟩
  rw [if_neg trade]
  by_cases cost : costRate < 0
  · rw [if_pos cost]
    exact ⟨nofun, fun ok => absurd ok.2.2.2 (not_le.mpr cost)⟩
  rw [if_neg cost]
  exact ⟨fun _ => ⟨not_le.mp cadence, not_lt.mp drift, not_lt.mp trade, not_lt.mp cost⟩, fun _ => rfl⟩

/-- **When a schedule is returned, and which.** -/
theorem buildRebalanceSchedule_ok_iff :
    buildRebalanceSchedule weightHistory targetWeights costRate config = .ok events ↔
      ∃ length, Admitted weightHistory targetWeights costRate config length ∧
        events = scheduled weightHistory (sortedNames targetWeights.keys)
          ((sortedNames targetWeights.keys).map fun name => targetWeights.getD name 0) costRate config (List.range length) := by
  have names := sortedNames_perm targetWeights.keys
  have count : (sortedNames targetWeights.keys).length = targetWeights.keys.length := names.length_eq
  have sameKeys : (sortedNames targetWeights.keys).toFinset = targetWeights.keys.toFinset := List.toFinset_eq_of_perm _ _ names
  unfold buildRebalanceSchedule
  dsimp only
  rw [count, sameKeys]
  constructor
  · intro built
    split at built
    · cases built
    rename_i two
    split at built
    · cases built
    rename_i same
    split at built
    · rename_i length alone
      obtain ⟨-, lengths⟩ := dedup_eq_singleton_iff.mp alone
      have lengths (name : String) (member : name ∈ targetWeights.keys) : (weightHistory.getD name []).length = length :=
        lengths _ (List.mem_map_of_mem (names.mem_iff.mpr member))
      refine ⟨length, ?_⟩
      split at built
      · rename_i zero
        subst zero
        cases built
        exact ⟨⟨not_lt.mp two, not_not.mp same, lengths, fun some_ => absurd some_ (Nat.lt_irrefl 0),
          fun some_ => absurd some_ (Nat.lt_irrefl 0), fun day before => absurd before (Nat.not_lt_zero day)⟩, rfl⟩
      · obtain ⟨⟨⟩, targets, built⟩ := Run.bind_ok.mp built
        obtain ⟨⟨⟩, checked, built⟩ := Run.bind_ok.mp built
        obtain ⟨weights, made⟩ := (scheduleDays_ok_iff _).mp built
        exact ⟨⟨not_lt.mp two, not_not.mp same, lengths, fun _ => (validateWeightVector_ok_iff _ _).mp targets,
          fun _ => checkConfig_ok_iff.mp checked, fun day before => weights day (List.mem_range.mpr before)⟩, made⟩
    · cases built
  · rintro ⟨length, admitted, rfl⟩
    have alone : ((sortedNames targetWeights.keys).map fun name => (weightHistory.getD name []).length).dedup = [length] := by
      refine dedup_eq_singleton_iff.mpr ⟨fun empty => ?_, fun x member => ?_⟩
      · have none_ := congrArg List.length empty
        rw [List.length_map, count, List.length_nil] at none_
        exact absurd admitted.two (by omega)
      · obtain ⟨name, among, rfl⟩ := List.mem_map.mp member
        exact admitted.lengths name (names.mem_iff.mp among)
    rw [if_neg (not_lt.mpr admitted.two), if_neg (not_not.mpr admitted.same), alone]
    dsimp only
    split
    · rename_i zero
      subst zero
      rfl
    · rename_i some_
      have some_ : 0 < length := Nat.pos_of_ne_zero some_
      refine Run.bind_ok.mpr ⟨(), (validateWeightVector_ok_iff _ _).mpr (admitted.targets some_), ?_⟩
      refine Run.bind_ok.mpr ⟨(), checkConfig_ok_iff.mpr (admitted.checked some_), ?_⟩
      exact (scheduleDays_ok_iff _).mpr ⟨fun day member => admitted.weights day (List.mem_range.mp member), rfl⟩

theorem mem_scheduled {days : List ℕ} {event : RebalanceEvent} :
    event ∈ scheduled weightHistory names targetVec costRate config days ↔
      ∃ day ∈ days, Due config day ∧ Passes config event ∧ event = eventOn weightHistory names targetVec costRate day := by
  unfold scheduled
  rw [List.mem_map]
  constructor
  · rintro ⟨day, member, rfl⟩
    obtain ⟨among, passes⟩ := List.mem_filter.mp member
    obtain ⟨due, passes⟩ := of_decide_eq_true passes
    exact ⟨day, among, due, passes, rfl⟩
  · rintro ⟨day, among, due, passes, rfl⟩
    exact ⟨day, List.mem_filter.mpr ⟨among, decide_eq_true ⟨due, passes⟩⟩, rfl⟩

end Schedule

section Results
variable {weightHistory : Py.Dict String (List ℚ)} {targetWeights : Py.Dict String ℚ}
  {costRate : ℚ} {config : RebalanceScheduleConfig} {events : List RebalanceEvent}

/-- **The schedule is exact.** A schedule that is returned has, in the order of the days, the
events of exactly those days of all histories that are positive multiples of the cadence
and whose drift and turnover reach their thresholds; and a turnover is within one and
the tolerance, not below the drift by more than the tolerance, and at most the drift in
half of the strategies. -/
theorem rebalance_schedule_exact (built : buildRebalanceSchedule weightHistory targetWeights costRate config = .ok events) :
    let names := sortedNames targetWeights.keys
    let targetVec := names.map fun name => targetWeights.getD name 0
    (events.map RebalanceEvent.dayIndex).Pairwise (· < ·) ∧
    (∀ event, event ∈ events ↔ ∃ day : ℕ, (0 < day ∧ config.cadenceDays ∣ day) ∧
      (∀ name ∈ targetWeights.keys, day < (weightHistory.getD name []).length) ∧
      config.driftThreshold ≤ event.maxDrift ∧ config.minTradeWeight ≤ event.turnover ∧
      event = rebalanceEvent targetVec (weightsOn weightHistory names day) costRate day) ∧
    ∀ event ∈ events, 0 ≤ event.turnover ∧ event.turnover ≤ 1 + tolerance ∧ event.maxDrift ≤ event.turnover + tolerance ∧
      event.turnover ≤ targetWeights.keys.length / 2 * event.maxDrift := by
  intro names targetVec
  obtain ⟨length, admitted, rfl⟩ := buildRebalanceSchedule_ok_iff.mp built
  have count : names.length = targetWeights.keys.length := (sortedNames_perm _).length_eq
  refine ⟨?_, fun event => ?_, fun event member => ?_⟩
  · rw [scheduled, List.map_map]
    have days : ((RebalanceEvent.dayIndex ∘ eventOn weightHistory names targetVec costRate : ℕ → ℕ)) = id := rfl
    rw [days, List.map_id]
    exact (List.pairwise_lt_range (n := length)).sublist List.filter_sublist
  · rw [mem_scheduled]
    constructor
    · rintro ⟨day, within, due, passes, same⟩
      refine ⟨day, due, fun name member => ?_, passes.1, passes.2, same⟩
      rw [admitted.lengths name member]
      exact List.mem_range.mp within
    · rintro ⟨day, due, within, drift, trade, same⟩
      obtain ⟨name, member⟩ := List.exists_mem_of_length_pos (Nat.zero_lt_of_lt admitted.two)
      exact ⟨day, List.mem_range.mpr (admitted.lengths name member ▸ within name member), due, ⟨drift, trade⟩, same⟩
  · obtain ⟨day, within, due, passes, rfl⟩ := mem_scheduled.mp member
    have within := List.mem_range.mp within
    have some_ : targetVec ≠ [] := by
      intro empty
      have none_ := congrArg List.length empty
      rw [List.length_map, count, List.length_nil] at none_
      exact absurd admitted.two (by omega)
    have bounds := rebalanceEvent_bounds
      (show targetVec.length = (weightsOn weightHistory names day).length by rw [weightsOn, List.length_map, List.length_map]) some_ (admitted.targets (Nat.zero_lt_of_lt within))
      (admitted.weights day within due) costRate day
    rwa [List.length_map, count] at bounds

/-- **What the schedule costs.** At every rate the events of a schedule cost at most
the rate for each of them, and the tolerance, at the rate of the schedule what the
schedule estimates; the points are those of the rates in their order, and from one
to the next the cost does not fall and the net return does not rise. -/
theorem cost_sensitivity (built : buildRebalanceSchedule weightHistory targetWeights costRate config = .ok events)
    {grossReturn : ℚ} {costRates : List ℚ} {result : CostSensitivityResult}
    (analyzed : analyzeTransactionCostSensitivity grossReturn events costRates = .ok result) :
    (result.points.map CostSensitivityPoint.costRate).Perm costRates ∧
    result.points.Pairwise (fun p p' => p.costRate ≤ p'.costRate ∧ p.estimatedCost ≤ p'.estimatedCost ∧
      p'.netReturn ≤ p.netReturn) ∧
    ∀ point ∈ result.points, point.netReturn = grossReturn - point.estimatedCost ∧ 0 ≤ point.estimatedCost ∧
      point.estimatedCost ≤ events.length * (1 + tolerance) * point.costRate ∧
      (point.costRate = costRate → point.estimatedCost = (events.map RebalanceEvent.estimatedCostRate).sum) := by
  obtain ⟨-, exact_, bounds⟩ := rebalance_schedule_exact built
  unfold analyzeTransactionCostSensitivity at analyzed
  split at analyzed
  · cases analyzed
  rename_i rates
  cases analyzed
  have rates (rate : ℚ) (member : rate ∈ costRates.insertionSort (· ≤ ·)) : 0 ≤ rate := by
    by_contra negative
    exact rates ⟨rate, (List.perm_insertionSort _ _).mem_iff.mp member, not_le.mp negative⟩
  have total : 0 ≤ (events.map RebalanceEvent.turnover).sum := by
    apply List.sum_nonneg
    intro x member
    obtain ⟨event, among, rfl⟩ := List.mem_map.mp member
    exact (bounds event among).1
  have most : (events.map RebalanceEvent.turnover).sum ≤ events.length * (1 + tolerance) := by
    have each := List.sum_le_card_nsmul (events.map RebalanceEvent.turnover) (1 + tolerance) fun x member => by
      obtain ⟨event, among, rfl⟩ := List.mem_map.mp member
      exact (bounds event among).2.1
    rwa [List.length_map, nsmul_eq_mul] at each
  have estimated : (events.map RebalanceEvent.estimatedCostRate).sum = (events.map RebalanceEvent.turnover).sum * costRate := by
    rw [← List.sum_map_mul_right]
    refine congrArg List.sum (List.map_congr_left fun event member => ?_)
    obtain ⟨day, -, -, -, -, rfl⟩ := (exact_ event).mp member
    rfl
  refine ⟨?_, ?_, ?_⟩
  · rw [List.map_map]
    exact (List.map_id _).symm ▸ List.perm_insertionSort _ _
  · refine List.pairwise_map.mpr ((List.pairwise_insertionSort (· ≤ ·) costRates).imp fun {rate rate'} less => ?_)
    have cost := mul_le_mul_of_nonneg_left less total
    exact ⟨less, cost, sub_le_sub_left cost grossReturn⟩
  · intro point member
    obtain ⟨rate, among, rfl⟩ := List.mem_map.mp member
    refine ⟨rfl, mul_nonneg total (rates rate among), mul_le_mul_of_nonneg_right most (rates rate among), ?_⟩
    rintro rfl
    exact estimated.symm

end Results

section Witness

/-- Two strategies that drift apart and are traded back. -/
def drifting : Py.Dict String (List ℚ) := ⟨[("carry", [1 / 2, 3 / 4, 5 / 8]), ("trend", [1 / 2, 1 / 4, 3 / 8])], by decide⟩

def halves : Py.Dict String ℚ := ⟨[("trend", 1 / 2), ("carry", 1 / 2)], by decide⟩

def daily : RebalanceScheduleConfig := ⟨1, 1 / 10, 0⟩

theorem drifting_built : ∃ events, buildRebalanceSchedule drifting halves (1 / 1000) daily = .ok events ∧
    (events.length == 2) = true := Run.endsIn_iff.mp (by decide +kernel)

theorem rebalance_schedule_exact_daily : ∃ events, buildRebalanceSchedule drifting halves (1 / 1000) daily = .ok events ∧
    (events.map RebalanceEvent.dayIndex).Pairwise (· < ·) := by
  obtain ⟨events, built, -⟩ := drifting_built
  exact ⟨events, built, (rebalance_schedule_exact built).1⟩

theorem cost_sensitivity_daily : ∃ events result, buildRebalanceSchedule drifting halves (1 / 1000) daily = .ok events ∧
    analyzeTransactionCostSensitivity 1 events [1 / 500, 1 / 1000] = .ok result ∧
    (result.points.map CostSensitivityPoint.costRate).Perm [1 / 500, 1 / 1000] := by
  obtain ⟨events, built, -⟩ := drifting_built
  have rates : ¬ ∃ rate ∈ [(1 / 500 : ℚ), 1 / 1000], rate < 0 := by decide +kernel
  obtain ⟨result, analyzed⟩ : ∃ result, analyzeTransactionCostSensitivity 1 events [1 / 500, 1 / 1000] = .ok result :=
    ⟨_, if_neg rates⟩
  exact ⟨events, result, built, analyzed, (cost_sensitivity built analyzed).1⟩

end Witness

end CryptoQuant.Rebalancing
