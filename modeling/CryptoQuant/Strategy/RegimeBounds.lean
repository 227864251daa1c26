import CryptoQuant.Lib.Stats
import CryptoQuant.Strategy.Regime
import Mathlib.Data.Rat.Cast.Order

/-!
# What a market regime can be

The scores of a regime are ratios, so they do not see the scale of the closes, and one
close among few cannot be many deviations off their mean.
-/

namespace CryptoQuant.Regime
set_option autoImplicit false

variable {K : Type} [Field K] [LinearOrder K]

section Looked

variable {sqrt : K → K}

theorem detect_ok_iff {detector : MarketRegimeDetector K} {events : List MarketEvent} {eventIntensity : K} {regime : MarketRegime K} :
    detect sqrt detector events eventIntensity = .ok regime ↔
      detector.config.lookbackEvents ≤ events.length ∧ (∀ v ∈ recentCloses detector.config events, 0 < v) ∧
        regime = regimeOf sqrt detector.config (recentCloses detector.config events) eventIntensity := by
  unfold detect
  split
  · rename_i short
    exact ⟨nofun, fun ok => absurd short (not_lt.mpr ok.1)⟩
  rename_i enough
  dsimp only
  split
  · rename_i bad
    obtain ⟨v, member, low⟩ := bad
    exact ⟨nofun, fun ok => absurd low (not_le.mpr (ok.2.1 v member))⟩
  rename_i good
  simp only [not_exists, not_and, not_le] at good
  exact ⟨fun ok => ⟨not_lt.mp enough, good, (Except.ok.inj ok).symm⟩, fun ok => congrArg Except.ok ok.2.2.symm⟩

omit [LinearOrder K] in
/-- As many closes are looked at as the configuration says. -/
theorem length_recentCloses {config : MarketRegimeConfig K} {events : List MarketEvent} (lookback : 5 ≤ config.lookbackEvents)
    (enough : config.lookbackEvents ≤ events.length) : ((recentCloses config events).length : ℤ) = config.lookbackEvents := by
  rw [recentCloses, List.length_map, List.length_drop]
  omega

theorem returnsOf_prod [IsStrictOrderedRing K] {closes : List K} (positive : ∀ v ∈ closes, 0 < v) (some_ : closes ≠ []) :
    ((returnsOf closes).map (1 + ·)).prod = closes.getLastD 0 / closes.headD 0 := by
  induction closes with
  | nil => exact absurd rfl some_
  | cons first rest ih =>
    have firstPos := positive first List.mem_cons_self
    cases rest with
    | nil => simp [returnsOf, div_self firstPos.ne']
    | cons second rest =>
      have secondPos := positive second (List.mem_cons_of_mem _ List.mem_cons_self)
      have later := ih (fun v member => positive v (List.mem_cons_of_mem _ member)) (List.cons_ne_nil _ _)
      have step : (returnsOf (first :: second :: rest)).map (1 + ·) =
          (1 + (second / first - 1)) :: (returnsOf (second :: rest)).map (1 + ·) := rfl
      rw [step, List.prod_cons, later, add_sub_cancel]
      simp only [List.headD_cons, List.getLastD_cons]
      field_simp

end Looked

section Bounds
variable [IsStrictOrderedRing K] {sqrt : K → K}

/-- The deviation squared is the mean of the squared distances. -/
theorem stddev_mul_self (root : ∀ square, 0 ≤ square → 0 ≤ sqrt square ∧ sqrt square * sqrt square = square) {values : List K}
    (some_ : values ≠ []) :
    0 ≤ stddev sqrt values ∧
      stddev sqrt values * stddev sqrt values = (values.map fun v => (v - mean values) ^ 2).sum / values.length := by
  have distances : (0 : K) ≤ (values.map fun v => (v - mean values) ^ 2).sum / values.length := by
    refine div_nonneg (List.sum_nonneg fun y member => ?_) (Nat.cast_nonneg _)
    obtain ⟨x, -, rfl⟩ := List.mem_map.mp member
    exact sq_nonneg _
  rw [stddev, if_neg some_]
  exact root _ distances

theorem stddev_nonneg (root : ∀ square, 0 ≤ square → 0 ≤ sqrt square ∧ sqrt square * sqrt square = square) (values : List K) :
    0 ≤ stddev sqrt values := by
  by_cases none_ : values = []
  · rw [stddev, if_pos none_]
  · exact (stddev_mul_self root none_).1

/-- The last of `n` values is at most `√(n - 1)` deviations off their mean. -/
theorem sq_zScoreOf_le (root : ∀ square, 0 ≤ square → 0 ≤ sqrt square ∧ sqrt square * sqrt square = square) {closes : List K}
    (two : 2 ≤ closes.length) : zScoreOf sqrt closes ^ 2 ≤ closes.length - 1 := by
  have some_ : closes ≠ [] := by
    rintro rfl
    simp at two
  obtain ⟨before, last, rfl⟩ : ∃ before last, closes = before ++ [last] :=
    ⟨closes.dropLast, closes.getLast some_, (List.dropLast_append_getLast some_).symm⟩
  have others : before ≠ [] := by
    rintro rfl
    simp at two
  have count : (1 : K) ≤ (before ++ [last]).length := by exact_mod_cast (by omega : 1 ≤ (before ++ [last]).length)
  unfold zScoreOf
  dsimp only
  split
  · rw [zero_pow two_ne_zero]
    linarith
  · rename_i deviates
    obtain ⟨-, squared⟩ := stddev_mul_self root some_
    have spread := Stats.sq_sub_mean_le others last
    have positive : 0 < stddev sqrt (before ++ [last]) * stddev sqrt (before ++ [last]) := mul_self_pos.mpr deviates
    rw [List.getLastD_concat, div_pow, div_le_iff₀ (by rw [sq]; exact positive), sq (stddev _ _), squared, mul_div_assoc']
    rw [le_div_iff₀ (by linarith)]
    calc (last - mean (before ++ [last])) ^ 2 * (before ++ [last]).length
        = (before ++ [last]).length * (last - mean (before ++ [last])) ^ 2 := mul_comm _ _
      _ ≤ _ := spread

theorem confidenceOf_bounds (trendScore zScore volatility : K) (config : MarketRegimeConfig K) (eventRegime : EventRegime) :
    0 ≤ confidenceOf trendScore zScore volatility config eventRegime ∧
      confidenceOf trendScore zScore volatility config eventRegime ≤ 1 := by
  unfold confidenceOf
  split
  · exact ⟨zero_le_one, le_refl 1⟩
  · exact ⟨le_max_left _ _, max_le zero_le_one (min_le_left _ _)⟩

/-- **What a regime can be**, for every history that is accepted: the score of the last of
`n` closes is within `√(n - 1)`, so that a larger threshold never finds the market
stretched; the trend is that of the returns, one after the other, and never a loss of
all; and the confidence is within zero and one. -/
theorem regime_bounds (root : ∀ square, 0 ≤ square → 0 ≤ sqrt square ∧ sqrt square * sqrt square = square)
    {detector : MarketRegimeDetector K} {events : List MarketEvent} {eventIntensity : K} {regime : MarketRegime K}
    (detected : detect sqrt detector events eventIntensity = .ok regime) :
    regime.zScore ^ 2 ≤ detector.config.lookbackEvents - 1 ∧
    (0 ≤ detector.config.meanReversionZscore →
      detector.config.lookbackEvents - 1 < detector.config.meanReversionZscore ^ 2 → regime.meanReversion = .neutral) ∧
    1 + regime.trendScore = ((returnsOf (recentCloses detector.config events)).map (1 + ·)).prod ∧ -1 < regime.trendScore ∧
    0 ≤ regime.volatilityValue ∧ 0 ≤ regime.confidence ∧ regime.confidence ≤ 1 := by
  obtain ⟨enough, positive, rfl⟩ := detect_ok_iff.mp detected
  have length := length_recentCloses detector.lookback_ge enough
  have lookback := detector.lookback_ge
  generalize recentCloses detector.config events = closes at positive length ⊢
  have some_ : closes ≠ [] := by
    rintro rfl
    simp at length
    omega
  have score := sq_zScoreOf_le root (show 2 ≤ closes.length by omega)
  have count : (closes.length : K) = detector.config.lookbackEvents := by exact_mod_cast congrArg (Int.cast (R := K)) length
  rw [count] at score
  have trend := returnsOf_prod positive some_
  have rises : 0 < closes.getLastD 0 / closes.headD 0 := by
    have last : closes.getLastD 0 = closes.getLast some_ := by
      rw [List.getLastD_eq_getLast?, List.getLast?_eq_getLast_of_ne_nil some_]
      rfl
    rw [last]
    refine div_pos (positive _ (List.getLast_mem some_)) ?_
    obtain ⟨first, rest, rfl⟩ := List.exists_cons_of_ne_nil some_
    exact positive first List.mem_cons_self
  refine ⟨score, fun threshold beyond => ?_, ?_, ?_, stddev_nonneg root _, confidenceOf_bounds _ _ _ _ _⟩
  · refine if_neg fun stretched => ?_
    have stretched : detector.config.meanReversionZscore ≤ |zScoreOf sqrt closes| := stretched
    have squares := mul_self_le_mul_self threshold stretched
    rw [abs_mul_abs_self] at squares
    nlinarith [score]
  · rw [trend]
    exact add_sub_cancel 1 _
  · show -1 < closes.getLastD 0 / closes.headD 0 - 1
    linarith

end Bounds

section Scale
variable {c : K}

omit [LinearOrder K] in
theorem mean_scaled (c : K) (values : List K) : mean (values.map (c * ·)) = c * mean values := by
  unfold mean
  rw [List.sum_map_mul_left, List.map_id', List.length_map, mul_div_assoc]

omit [LinearOrder K] in
theorem getLastD_scaled (c : K) (closes : List K) : (closes.map (c * ·)).getLastD 0 = c * closes.getLastD 0 := by
  rw [List.getLastD_eq_getLast?, List.getLastD_eq_getLast?, List.getLast?_map]
  cases closes.getLast? with
  | none => exact (mul_zero c).symm
  | some v => rfl

omit [LinearOrder K] in
theorem headD_scaled (c : K) (closes : List K) : (closes.map (c * ·)).headD 0 = c * closes.headD 0 := by
  cases closes with
  | nil => exact (mul_zero c).symm
  | cons v rest => rfl

omit [LinearOrder K] in
theorem returnsOf_scaled (nonzero : c ≠ 0) (closes : List K) : returnsOf (closes.map (c * ·)) = returnsOf closes := by
  unfold returnsOf
  rw [← List.map_tail, List.zipWith_map]
  simp only [mul_div_mul_left _ _ nonzero]

variable [IsStrictOrderedRing K] {sqrt : K → K}

theorem stddev_scaled (root : ∀ square, 0 ≤ square → 0 ≤ sqrt square ∧ sqrt square * sqrt square = square) (positive : 0 < c)
    (values : List K) : stddev sqrt (values.map (c * ·)) = c * stddev sqrt values := by
  by_cases none_ : values = []
  · subst none_
    simp [stddev]
  · obtain ⟨nonneg, squared⟩ := stddev_mul_self root none_
    obtain ⟨nonneg', squared'⟩ := stddev_mul_self root (show values.map (c * ·) ≠ [] by simpa using none_)
    refine (mul_self_inj nonneg' (mul_nonneg positive.le nonneg)).mp ?_
    rw [squared', mean_scaled, List.map_map, List.length_map]
    have distances : (values.map ((fun v => (v - c * mean values) ^ 2) ∘ (c * ·))).sum =
        c ^ 2 * (values.map fun v => (v - mean values) ^ 2).sum := by
      rw [← List.sum_map_mul_left]
      refine congrArg List.sum (List.map_congr_left fun v _ => ?_)
      rw [Function.comp_apply]
      ring
    rw [distances, mul_mul_mul_comm, squared]
    ring

theorem regimeOf_scaled (root : ∀ square, 0 ≤ square → 0 ≤ sqrt square ∧ sqrt square * sqrt square = square) (positive : 0 < c)
    (config : MarketRegimeConfig K) (closes : List K) (eventIntensity : K) :
    regimeOf sqrt config (closes.map (c * ·)) eventIntensity = regimeOf sqrt config closes eventIntensity := by
  have trend : trendScoreOf (closes.map (c * ·)) = trendScoreOf closes := by
    unfold trendScoreOf
    rw [getLastD_scaled, headD_scaled, mul_div_mul_left _ _ positive.ne']
  have score : zScoreOf sqrt (closes.map (c * ·)) = zScoreOf sqrt closes := by
    unfold zScoreOf
    dsimp only
    rw [getLastD_scaled, mean_scaled, stddev_scaled root positive, ← mul_sub, mul_div_mul_left _ _ positive.ne']
    simp only [mul_eq_zero, positive.ne', false_or]
  unfold regimeOf
  rw [trend, score, returnsOf_scaled positive.ne']

/-- **The regime is one of proportions**: it is decided by the last `lookback_events` closes
alone, whatever symbols, times or earlier closes, and multiplying those by a positive
factor changes neither the regime nor an error. -/
theorem detect_scaled (root : ∀ square, 0 ≤ square → 0 ≤ sqrt square ∧ sqrt square * sqrt square = square)
    (detector : MarketRegimeDetector K) {events events' : List MarketEvent} (positive : 0 < c)
    (enough : detector.config.lookbackEvents ≤ events.length) (enough' : detector.config.lookbackEvents ≤ events'.length)
    (scaled : recentCloses detector.config events' = (recentCloses detector.config events).map (c * ·)) (eventIntensity : K) :
    detect sqrt detector events' eventIntensity = detect sqrt detector events eventIntensity := by
  have bad : (∃ v ∈ (recentCloses detector.config events).map (c * ·), v ≤ 0) ↔
      ∃ v ∈ recentCloses detector.config events, v ≤ 0 := by
    simp only [List.mem_map, exists_exists_and_eq_and]
    refine exists_congr fun v => and_congr_right fun _ => ?_
    exact ⟨fun low => nonpos_of_mul_nonpos_right low positive, mul_nonpos_of_nonneg_of_nonpos positive.le⟩
  unfold detect
  dsimp only
  rw [if_neg (not_lt.mpr enough), if_neg (not_lt.mpr enough'), scaled, regimeOf_scaled root positive]
  simp only [bad]

end Scale

section Witness

/-- A market that does not move. -/
noncomputable def patient : MarketRegimeDetector ℝ := ⟨⟨5, 1, 1, 1, 1, 1⟩, le_refl 5⟩

def still (close : ℚ) : List MarketEvent := List.replicate 5 ⟨"BTCUSDT", .m1, close, 0, "test"⟩

theorem real_root (square : ℝ) (nonneg : 0 ≤ square) : 0 ≤ √square ∧ √square * √square = square :=
  ⟨Real.sqrt_nonneg square, Real.mul_self_sqrt nonneg⟩

theorem recentCloses_still (close : ℚ) : recentCloses patient.config (still close) = List.replicate 5 (close : ℝ) := rfl

theorem regime_bounds_still : ∃ regime, detect Real.sqrt patient (still 1) 0 = .ok regime ∧ regime.zScore ^ 2 ≤ 5 - 1 := by
  have detected : detect Real.sqrt patient (still 1) 0 = .ok (regimeOf Real.sqrt patient.config (recentCloses patient.config (still 1)) 0) := by
    refine detect_ok_iff.mpr ⟨by decide, ?_, rfl⟩
    rw [recentCloses_still]
    simp
  refine ⟨_, detected, ?_⟩
  have bound := (regime_bounds real_root detected).1
  simpa [patient] using bound

theorem detect_scaled_still : detect Real.sqrt patient (still 3) 0 = detect Real.sqrt patient (still 1) 0 := by
  refine detect_scaled real_root patient (c := 3) (by norm_num) (by decide) (by decide) ?_ 0
  rw [recentCloses_still, recentCloses_still]
  norm_num

end Witness

end CryptoQuant.Regime
