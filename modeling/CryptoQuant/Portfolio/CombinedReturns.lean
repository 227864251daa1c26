import CryptoQuant.Lib.Gram
import CryptoQuant.Portfolio.Projection
import Mathlib.Algebra.BigOperators.Field
import Mathlib.Data.List.GetD

/-!
# The combined return series

The reported numbers of an optimization are those of one series: at every time the
weighted sum of the returns. Its mean is the weighted sum of the means, and its sample
variance the quadratic form of the covariances.
-/

namespace CryptoQuant.Portfolio
set_option autoImplicit false

open Finset (range)

section Series
variable {K : Type} [Field K]

/-- `r_t`: the weighted sum of the returns at every time. -/
def combinedReturns (w : List K) (matrix : List (List K)) : List K :=
  (List.range (matrix.head?.getD []).length).map fun t => dot w (matrix.map fun row => row.getD t 0)

/-- The unbiased variance of a sample. -/
def sampleVariance (values : List K) : K := (values.map fun value => (value - mean values) ^ 2).sum / (values.length - 1)

/-- `cov[i][j]`, by the loop of `_covariance_matrix` over the places. -/
def covarianceAt (matrix : List (List K)) (i j : ℕ) : K :=
  let length := (matrix.head?.getD []).length
  let denom := max (length - 1) 1
  let means := matrix.map mean
  (List.range length).foldl (fun accum k => accum +
    ((matrix.getD i []).getD k 0 - means.getD i 0) * ((matrix.getD j []).getD k 0 - means.getD j 0)) 0 / denom

/-- `_quadratic`, by its two sums over the places. -/
def quadraticAt (w : List K) (cov : ℕ → ℕ → K) : K :=
  ((List.range w.length).map fun i => w.getD i 0 * ((List.range w.length).map fun j => cov i j * w.getD j 0).sum).sum

/-- Return series of the same length. -/
structure Rectangular (matrix : List (List K)) (length : ℕ) : Prop where
  nonempty : matrix ≠ []
  rows : ∀ row ∈ matrix, row.length = length
  observations : 2 ≤ length

theorem dot_comm (a b : List K) : dot a b = dot b a := by
  unfold dot
  rw [List.zipWith_comm]
  simp only [mul_comm]

theorem dot_eq_sum {a : List K} {n : ℕ} (length : a.length ≤ n) (b : List K) :
    dot a b = ∑ i ∈ range n, a.getD i 0 * b.getD i 0 := Gram.sum_zipWith_mul a b length

variable {matrix : List (List K)} {length : ℕ}

omit [Field K] in
theorem Rectangular.head (rect : Rectangular matrix length) : (matrix.head?.getD []).length = length := by
  obtain ⟨row, rest, rfl⟩ := List.exists_cons_of_ne_nil rect.nonempty
  exact rect.rows row List.mem_cons_self

/-- Weighing values of the series is a sum over their places. -/
theorem dot_map (f : List K → K) (w : List K) :
    dot (matrix.map f) w = ∑ i ∈ range matrix.length, f (matrix.getD i []) * w.getD i 0 := by
  rw [dot_eq_sum (List.length_map f).le]
  apply Finset.sum_congr rfl
  intro i member
  have bound := Finset.mem_range.mp member
  rw [List.getD_eq_getElem _ _ (by simpa using bound), List.getD_eq_getElem _ _ bound, List.getElem_map]

theorem mean_eq_sum {values : List K} (size : values.length = length) :
    mean values = (∑ t ∈ range length, values.getD t 0) / length := by
  rw [mean, Gram.sum_eq values size.le, size]

/-- The products of two centred series. -/
theorem dot_centered {rowI rowJ : List K} (sizeI : rowI.length = length) (sizeJ : rowJ.length = length) :
    dot (rowI.map (· - mean rowI)) (rowJ.map (· - mean rowJ)) =
      ∑ t ∈ range length, (rowI.getD t 0 - mean rowI) * (rowJ.getD t 0 - mean rowJ) := by
  rw [dot_eq_sum (show (rowI.map (· - mean rowI)).length ≤ length by simp [sizeI])]
  apply Finset.sum_congr rfl
  intro t member
  have bound := Finset.mem_range.mp member
  have centred {row : List K} (size : row.length = length) : (row.map (· - mean row)).getD t 0 = row.getD t 0 - mean row := by
    rw [List.getD_eq_getElem _ _ (by simpa [size] using bound), List.getD_eq_getElem _ _ (by omega), List.getElem_map]
  rw [centred sizeI, centred sizeJ]

/-- The covariances, as sums over the times. -/
theorem covarianceMatrix_eq (rect : Rectangular matrix length) :
    covarianceMatrix matrix = matrix.map fun rowI => matrix.map fun rowJ =>
      (∑ t ∈ range length, (rowI.getD t 0 - mean rowI) * (rowJ.getD t 0 - mean rowJ)) / ((length - 1 : ℕ) : K) := by
  have denom : max ((matrix.head?.getD []).length - 1) 1 = length - 1 := by
    have observations := rect.observations
    rw [rect.head]
    omega
  unfold covarianceMatrix
  simp only [denom, List.map_map]
  apply List.map_congr_left
  intro rowI memberI
  apply List.map_congr_left
  intro rowJ memberJ
  rw [Function.comp_apply, dot_centered (rect.rows rowI memberI) (rect.rows rowJ memberJ)]

theorem combinedReturns_eq (rect : Rectangular matrix length) (w : List K) :
    combinedReturns w matrix = (List.range length).map fun t => ∑ i ∈ range matrix.length, (matrix.getD i []).getD t 0 * w.getD i 0 := by
  unfold combinedReturns
  simp only [rect.head, dot_comm w, dot_map]

/-- **The mean** of the combined series. -/
theorem mean_combinedReturns (rect : Rectangular matrix length) (w : List K) :
    mean (combinedReturns w matrix) = dot w (matrix.map mean) := by
  have rows : ∀ i ∈ range matrix.length, mean (matrix.getD i []) * w.getD i 0 =
      (∑ t ∈ range length, (matrix.getD i []).getD t 0 * w.getD i 0) / length := by
    intro i member
    have bound := Finset.mem_range.mp member
    rw [mean_eq_sum (rect.rows _ (List.getD_eq_getElem _ _ bound ▸ List.getElem_mem bound)), div_mul_eq_mul_div, Finset.sum_mul]
  calc mean (combinedReturns w matrix)
      = (∑ t ∈ range length, ∑ i ∈ range matrix.length, (matrix.getD i []).getD t 0 * w.getD i 0) / length := by
        rw [combinedReturns_eq rect, mean, List.length_map, List.length_range]
        rfl
    _ = ∑ i ∈ range matrix.length, (∑ t ∈ range length, (matrix.getD i []).getD t 0 * w.getD i 0) / length := by
        rw [Finset.sum_comm, Finset.sum_div]
    _ = ∑ i ∈ range matrix.length, mean (matrix.getD i []) * w.getD i 0 := Finset.sum_congr rfl fun i member => (rows i member).symm
    _ = dot w (matrix.map mean) := by rw [dot_comm, dot_map]

/-- The combined series is centred as its parts are. -/
theorem combined_sub_mean (rect : Rectangular matrix length) (w : List K) (t : ℕ) :
    (∑ i ∈ range matrix.length, (matrix.getD i []).getD t 0 * w.getD i 0) - mean (combinedReturns w matrix) =
      ∑ i ∈ range matrix.length, w.getD i 0 * ((matrix.getD i []).getD t 0 - mean (matrix.getD i [])) := by
  rw [mean_combinedReturns rect, dot_comm, dot_map, ← Finset.sum_sub_distrib]
  apply Finset.sum_congr rfl
  intro i _
  ring

theorem sampleVariance_eq {values : List K} (size : values.length = length) (nonempty : 1 ≤ length) :
    sampleVariance values = (∑ t ∈ range length, (values.getD t 0 - mean values) ^ 2) / ((length - 1 : ℕ) : K) := by
  have squares : (values.map fun value => (value - mean values) ^ 2).sum = ∑ t ∈ range length, (values.getD t 0 - mean values) ^ 2 := by
    rw [Gram.sum_eq _ (show (values.map fun value => (value - mean values) ^ 2).length ≤ length by simp [size])]
    apply Finset.sum_congr rfl
    intro t member
    have bound := Finset.mem_range.mp member
    rw [List.getD_eq_getElem _ _ (by simpa [size] using bound), List.getD_eq_getElem _ _ (by omega), List.getElem_map]
  rw [sampleVariance, squares, size, Nat.cast_sub nonempty, Nat.cast_one]

theorem sampleVariance_combinedReturns (rect : Rectangular matrix length) (w : List K) :
    sampleVariance (combinedReturns w matrix) =
      (∑ t ∈ range length, (∑ i ∈ range matrix.length, w.getD i 0 * ((matrix.getD i []).getD t 0 - mean (matrix.getD i []))) ^ 2) /
        ((length - 1 : ℕ) : K) := by
  have size : (combinedReturns w matrix).length = length := by
    rw [combinedReturns_eq rect, List.length_map, List.length_range]
  rw [sampleVariance_eq size (one_le_two.trans rect.observations)]
  congr 1
  apply Finset.sum_congr rfl
  intro t member
  have bound := Finset.mem_range.mp member
  have entry : (combinedReturns w matrix).getD t 0 = ∑ i ∈ range matrix.length, (matrix.getD i []).getD t 0 * w.getD i 0 := by
    rw [List.getD_eq_getElem _ _ (by omega)]
    simp only [combinedReturns_eq rect, List.getElem_map, List.getElem_range]
  rw [entry, combined_sub_mean rect]

/-- **The quadratic form** of the covariances is the sample variance of the combined series. -/
theorem quadratic_covarianceMatrix (rect : Rectangular matrix length) (w : List K) :
    quadratic w (covarianceMatrix matrix) = sampleVariance (combinedReturns w matrix) := by
  rw [sampleVariance_combinedReturns rect, ← Gram.quadratic_form, covarianceMatrix_eq rect, quadratic, List.map_map, dot_comm,
    dot_map, Finset.sum_div]
  apply Finset.sum_congr rfl
  intro i _
  rw [Function.comp_apply, dot_map, mul_comm, mul_div_assoc, Finset.sum_div]
  congr 1
  apply Finset.sum_congr rfl
  intro j _
  rw [div_mul_eq_mul_div]

omit [Field K] in
theorem getD_map_row {A : Type} (f : List K → A) (z : A) {i : ℕ} (bound : i < matrix.length) :
    (matrix.map f).getD i z = f (matrix.getD i []) := by
  rw [List.getD_eq_getElem _ _ (by simpa using bound), List.getD_eq_getElem _ _ bound, List.getElem_map]

/-- The entries of the matrix are those of the loops. -/
theorem covarianceAt_eq (rect : Rectangular matrix length) {i j : ℕ} (rowI : i < matrix.length) (rowJ : j < matrix.length) :
    covarianceAt matrix i j = ((covarianceMatrix matrix).getD i []).getD j 0 := by
  have denom : max (length - 1) 1 = length - 1 := by
    have observations := rect.observations
    omega
  rw [covarianceMatrix_eq rect, getD_map_row _ _ rowI, getD_map_row _ _ rowJ]
  simp only [covarianceAt, rect.head, denom, getD_map_row _ _ rowI, getD_map_row _ _ rowJ, Gram.foldl_add]

/-- The quadratic form is that of the loops. -/
theorem quadraticAt_eq (rect : Rectangular matrix length) {w : List K} (size : w.length = matrix.length) :
    quadraticAt w (covarianceAt matrix) = quadratic w (covarianceMatrix matrix) := by
  have sums : quadraticAt w (covarianceAt matrix) =
      ∑ i ∈ range matrix.length, w.getD i 0 * ∑ j ∈ range matrix.length, covarianceAt matrix i j * w.getD j 0 := by
    rw [← size]
    rfl
  rw [sums, covarianceMatrix_eq rect, quadratic, List.map_map, dot_comm, dot_map]
  apply Finset.sum_congr rfl
  intro i memberI
  rw [Function.comp_apply, dot_map, mul_comm]
  congr 1
  apply Finset.sum_congr rfl
  intro j memberJ
  have rowI := Finset.mem_range.mp memberI
  have rowJ := Finset.mem_range.mp memberJ
  rw [covarianceAt_eq rect rowI rowJ, covarianceMatrix_eq rect, getD_map_row _ _ rowI, getD_map_row _ _ rowJ]

theorem variances_eq (rect : Rectangular matrix length) :
    ((covarianceMatrix matrix).zipIdx.map fun (row, idx) => row.getD idx 0) = matrix.map sampleVariance := by
  have size : (covarianceMatrix matrix).length = matrix.length := by rw [covarianceMatrix_eq rect, List.length_map]
  apply List.ext_getElem
  · simp [size]
  · intro i bound bound'
    have row : i < matrix.length := by simpa using bound'
    have length_row := rect.rows _ (List.getElem_mem row)
    have entry : (covarianceMatrix matrix)[i] = matrix.map fun rowJ =>
        (∑ t ∈ range length, (matrix[i].getD t 0 - mean matrix[i]) * (rowJ.getD t 0 - mean rowJ)) / ((length - 1 : ℕ) : K) := by
      simp only [covarianceMatrix_eq rect, List.getElem_map]
    simp only [List.getElem_map, List.getElem_zipIdx, zero_add]
    rw [entry, getD_map_row _ _ row, List.getD_eq_getElem _ _ row, sampleVariance_eq length_row (one_le_two.trans rect.observations)]
    simp only [sq]

end Series

section Ordered
variable {K : Type} [Field K] [LinearOrder K] [IsStrictOrderedRing K]

theorem sampleVariance_nonneg {values : List K} (nonempty : 1 ≤ values.length) : 0 ≤ sampleVariance values := by
  apply div_nonneg
  · apply List.sum_nonneg
    intro square member
    obtain ⟨value, -, rfl⟩ := List.mem_map.mp member
    exact sq_nonneg _
  · have size : (1 : K) ≤ values.length := by exact_mod_cast nonempty
    linarith

omit [Field K] [LinearOrder K] [IsStrictOrderedRing K] in
theorem rectangular_of_lengths {names : List String} {f : String → List K} (enough : 2 ≤ names.length)
    (lengths : ¬ ((((names.map f).map List.length).dedup).length ≠ 1 ∨ (((names.map f).map List.length).dedup).head?.getD 0 < 2)) :
    ∃ length, Rectangular (names.map f) length := by
  rw [not_or, not_not, not_lt] at lengths
  obtain ⟨one, observations⟩ := lengths
  obtain ⟨length, all⟩ := List.length_eq_one_iff.mp one
  rw [all] at observations
  refine ⟨length, ?_, ?_, observations⟩
  · intro empty
    rw [← List.length_map f, empty] at enough
    simp at enough
  · intro row member
    have among := List.mem_dedup.mpr (List.mem_map_of_mem (f := List.length) member)
    rw [all] at among
    exact List.mem_singleton.mp among

theorem length_iterated {matrix : List (List K)} {n : ℕ} (size : matrix.length = n) (config : OptimizationConfig K) (iterations : ℕ) :
    ((iterate (matrix.map mean) (covarianceMatrix matrix) config)^[iterations] (List.replicate n (1 / (n : K)))).length = n := by
  rw [length_iterations config, List.length_replicate]
  · rw [List.length_map, List.length_replicate, size]
  · rw [List.length_replicate, ← size]
    simp [covarianceMatrix]

/-- What the result tells of the weights it returns. -/
theorem optimizeStrategyWeights_result {sqrt : K → K} {strategyReturns : Py.Dict String (List K)} {config : OptimizationConfig K}
    {result : OptimizationResult K} (returned : optimizeStrategyWeights sqrt strategyReturns config = .ok result)
    {matrix : List (List K)} (rows : matrix = (sortedNames strategyReturns.keys).map fun name => strategyReturns.getD name []) :
    (∃ length, Rectangular matrix length) ∧
    result.expectedReturn = dot result.weights.values (matrix.map mean) * config.annualizationFactor ∧
    result.expectedVolatility = sqrt (max (quadratic result.weights.values (covarianceMatrix matrix)) 0) * sqrt config.annualizationFactor ∧
    result.strategyStats = List.zipWith (fun name (meanReturn, variance) => ⟨name, meanReturn, sqrt (max variance 0)⟩)
      (sortedNames strategyReturns.keys)
      ((matrix.map mean).zip ((covarianceMatrix matrix).zipIdx.map fun (row, idx) => row.getD idx 0)) := by
  unfold optimizeStrategyWeights at returned
  simp only [Run.bind_ok, raiseIf_ok] at returned
  obtain ⟨-, enough, -, lengths, -, -, -, -, -, -, -, -, same⟩ := returned
  obtain rfl := Except.ok.inj same
  have distinct := nodup_sortedNames strategyReturns
  subst rows
  have size := length_iterated (show (((sortedNames strategyReturns.keys).map fun name => strategyReturns.getD name []).length =
    (sortedNames strategyReturns.keys).length) from List.length_map _) config config.iterations.toNat
  have values := map_lookup_zip distinct size
  rw [← Py.Dict.values_ofKeys distinct] at values
  refine ⟨rectangular_of_lengths (not_lt.mp enough) lengths, ?_, ?_, rfl⟩
  · dsimp only
    rw [values]
  · dsimp only
    rw [values]

/-- **The reported statistics** are those of the combined series. No variance is negative,
so the guards change nothing. -/
theorem portfolio_statistics {sqrt : K → K} {strategyReturns : Py.Dict String (List K)} {config : OptimizationConfig K}
    {result : OptimizationResult K} (returned : optimizeStrategyWeights sqrt strategyReturns config = .ok result) :
    let matrix := (sortedNames strategyReturns.keys).map fun name => strategyReturns.getD name []
    let weights := result.weights.values
    let series := combinedReturns weights matrix
    dot weights (matrix.map mean) = mean series ∧
    result.expectedReturn = mean series * config.annualizationFactor ∧
    quadratic weights (covarianceMatrix matrix) = sampleVariance series ∧
    result.expectedVolatility = sqrt (sampleVariance series) * sqrt config.annualizationFactor ∧
    result.strategyStats = (sortedNames strategyReturns.keys).map (fun name =>
      ⟨name, mean (strategyReturns.getD name []), sqrt (sampleVariance (strategyReturns.getD name []))⟩) ∧
    ∀ w : List K, w.length = matrix.length →
      quadraticAt w (covarianceAt matrix) = quadratic w (covarianceMatrix matrix) ∧
      0 ≤ quadratic w (covarianceMatrix matrix) ∧
      max (quadratic w (covarianceMatrix matrix)) 0 = quadratic w (covarianceMatrix matrix) := by
  intro matrix weights series
  obtain ⟨⟨length, rect⟩, expected, volatility, stats⟩ := optimizeStrategyWeights_result returned (show matrix = _ from rfl)
  have nonneg (w : List K) : 0 ≤ quadratic w (covarianceMatrix matrix) := by
    have size : (combinedReturns w matrix).length = length := by
      rw [combinedReturns_eq rect, List.length_map, List.length_range]
    rw [quadratic_covarianceMatrix rect]
    exact sampleVariance_nonneg (size ▸ one_le_two.trans rect.observations)
  have mean_ : mean series = dot weights (matrix.map mean) := mean_combinedReturns rect weights
  have variance : quadratic weights (covarianceMatrix matrix) = sampleVariance series := quadratic_covarianceMatrix rect weights
  refine ⟨mean_.symm, mean_ ▸ expected, variance, ?_, ?_, ?_⟩
  · rw [volatility, max_eq_left (nonneg weights), variance]
  · rw [stats, variances_eq rect, List.zip_map', List.map_map, List.zipWith_map_right, List.zipWith_self]
    apply List.map_congr_left
    intro name member
    have row := rect.rows _ (List.mem_map_of_mem member)
    have positive : 0 ≤ sampleVariance (strategyReturns.getD name []) :=
      sampleVariance_nonneg (row ▸ one_le_two.trans rect.observations)
    simp only [Function.comp_apply, max_eq_left positive]
  · intro w size
    exact ⟨quadraticAt_eq rect size, nonneg w, max_eq_left (nonneg w)⟩

end Ordered

section Examples

/-- Two strategies that never move together. -/
def hedged : Py.Dict String (List ℚ) := (Py.Dict.empty.set "a" [2 / 10, 0]).set "b" [0, 1 / 10]

/-- The statistics of one iteration over them. -/
theorem portfolio_statistics_hedged : ∃ result,
    optimizeStrategyWeights id hedged { OptimizationConfig.default with iterations := 1 } = .ok result ∧
    result.expectedReturn = mean (combinedReturns result.weights.values [[2 / 10, 0], [0, 1 / 10]]) * 365 ∧
    quadratic result.weights.values (covarianceMatrix [[2 / 10, 0], [0, 1 / 10]]) =
      sampleVariance (combinedReturns result.weights.values [[2 / 10, 0], [0, 1 / 10]]) := by
  obtain ⟨result, returned, -⟩ := Run.endsIn_iff.mp (show Run.endsIn
    (optimizeStrategyWeights id hedged { OptimizationConfig.default with iterations := 1 }) (fun _ => true) = true by decide +kernel)
  obtain ⟨-, expected, variance, -⟩ := portfolio_statistics returned
  have rows : ((sortedNames hedged.keys).map fun name => hedged.getD name []) = [[2 / 10, 0], [0, 1 / 10]] := by decide +kernel
  rw [rows] at expected variance
  exact ⟨result, returned, expected, variance⟩

end Examples

end CryptoQuant.Portfolio
