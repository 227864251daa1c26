import CryptoQuant.Basic
import Mathlib.Data.List.Sort

/-!
# The weight optimizer

`portfolio/optimizer.py`: gradient steps on mean return less penalised variance,
each projected back to weights within their bounds. The numbers are those of any
ordered field, with its square root as a parameter.
-/

namespace CryptoQuant.Portfolio
set_option autoImplicit false

section Types
variable (K : Type)

/-- `StrategyStats`. -/
structure StrategyStats where
  name : String
  meanReturn : K
  volatility : K

/-- `OptimizationConfig`. -/
structure OptimizationConfig where
  riskAversion : K
  maxWeight : K
  minWeight : K
  learningRate : K
  iterations : ℤ
  annualizationFactor : K

/-- `OptimizationResult`. -/
structure OptimizationResult where
  weights : Py.Dict String K
  expectedReturn : K
  expectedVolatility : K
  sharpeLike : K
  strategyStats : List (StrategyStats K)

end Types

/-- `sorted(names)`. -/
def sortedNames (names : List String) : List String := names.insertionSort (· ≤ ·)

theorem sortedNames_perm (names : List String) : (sortedNames names).Perm names := List.perm_insertionSort _ _

theorem nodup_sortedNames {V : Type} (d : Py.Dict String V) : (sortedNames d.keys).Nodup :=
  (sortedNames_perm _).nodup_iff.mpr d.nodup_keys

variable {K : Type} [Field K] [LinearOrder K]

/-- `OptimizationConfig()`. -/
def OptimizationConfig.default : OptimizationConfig K where
  riskAversion := 2
  maxWeight := 7 / 10
  minWeight := 0
  learningRate := 8 / 100
  iterations := 500
  annualizationFactor := 365

/-- `_mean`. -/
def mean (values : List K) : K := values.sum / values.length

/-- `_dot`. -/
def dot (a b : List K) : K := (List.zipWith (· * ·) a b).sum

/-- `_covariance_matrix`. -/
def covarianceMatrix (matrix : List (List K)) : List (List K) :=
  let length := (matrix.head?.getD []).length
  let denom := max (length - 1) 1
  let centered := matrix.map fun row => row.map (· - mean row)
  centered.map fun rowI => centered.map fun rowJ => dot rowI rowJ / denom

/-- `_quadratic`. -/
def quadratic (w : List K) (cov : List (List K)) : K := dot w (cov.map fun row => dot row w)

/-- `_objective_gradient`. -/
def objectiveGradient (weights means : List K) (cov : List (List K)) (riskAversion : K) : List K :=
  let covW := cov.map fun row => dot row weights
  List.zipWith (fun mean c => mean - 2 * riskAversion * c) means covW

/-- A weight outside its bounds, which a pass of the loop fixes. -/
def outside (minW maxW w : K) : Bool := decide (maxW < w ∨ w < minW)

/-- The body of the loop of `_project_weights`: weights outside their bounds go to
the bound, and the others share what is left. -/
def redistribute (minW maxW : K) (normalized : List K) : List K :=
  let fix := fun w : K => if w < minW then minW else if maxW < w then maxW else w
  let remainder := 1 - ((normalized.filter (outside minW maxW)).map fix).sum
  let free := normalized.filter fun w => !outside minW maxW w
  let freeTotal := free.sum
  normalized.map fun w =>
    if outside minW maxW w then fix w
    else if freeTotal ≤ 0 then remainder / free.length
    else w * (remainder / freeTotal)

/-- The loop of `_project_weights`: it stops early when no weight is outside, or
when all are. -/
def redistributions (minW maxW : K) : ℕ → List K → List K
  | 0, normalized => normalized
  | passes + 1, normalized =>
    if normalized.all fun w => !outside minW maxW w then normalized
    else if normalized.all (outside minW maxW) then redistribute minW maxW normalized
    else redistributions minW maxW passes (redistribute minW maxW normalized)

/-- `_project_weights`. -/
def projectWeights (weights : List K) (minW maxW : K) : List K :=
  let clipped := weights.map fun w => min (max w minW) maxW
  let total := clipped.sum
  if total ≤ 0 then clipped.map fun _ => 1 / (clipped.length : K)
  else
    let normalized := redistributions minW maxW 8 (clipped.map (· / total))
    let total := normalized.sum
    normalized.map (· / total)

/-- One iteration of the loop of `optimize_strategy_weights`. -/
def iterate (means : List K) (cov : List (List K)) (config : OptimizationConfig K) (weights : List K) : List K :=
  let gradient := objectiveGradient weights means cov config.riskAversion
  let candidate := List.zipWith (fun w g => w + config.learningRate * g) weights gradient
  projectWeights candidate config.minWeight config.maxWeight

/-- `optimize_strategy_weights`. -/
def optimizeStrategyWeights (sqrt : K → K) (strategyReturns : Py.Dict String (List K))
    (config : OptimizationConfig K) : Except PyError (OptimizationResult K) := do
  let names := sortedNames strategyReturns.keys
  raiseIf (names.length < 2) (.valueError "at least two strategies are required")
  let matrix := names.map fun name => strategyReturns.getD name []
  let lengths := (matrix.map List.length).dedup
  raiseIf (lengths.length ≠ 1 ∨ lengths.head?.getD 0 < 2) (.valueError "all strategies must have same length >= 2")
  raiseIf (config.iterations ≤ 0) (.valueError "iterations must be > 0")
  raiseIf (config.learningRate ≤ 0) (.valueError "learning_rate must be > 0")
  raiseIf (¬ (0 ≤ config.minWeight ∧ config.minWeight ≤ config.maxWeight ∧ config.maxWeight ≤ 1))
    (.valueError "weight bounds must satisfy 0 <= min_weight <= max_weight <= 1")
  let means := matrix.map mean
  let cov := covarianceMatrix matrix
  let equal := List.replicate names.length (1 / (names.length : K))
  let weights := (iterate means cov config)^[config.iterations.toNat] equal
  let expectedReturn := dot weights means
  let portfolioVar := quadratic weights cov
  let expectedVolatility := sqrt (max portfolioVar 0)
  let sharpeLike := if 0 < expectedVolatility then expectedReturn / expectedVolatility else 0
  let variances := cov.zipIdx.map fun (row, idx) => row.getD idx 0
  let strategyStats := List.zipWith
    (fun name (meanReturn, variance) => ⟨name, meanReturn, sqrt (max variance 0)⟩) names (means.zip variances)
  raiseIf (config.annualizationFactor < 0) (.valueError "math domain error")
  let annualScale := sqrt config.annualizationFactor
  return { weights := .ofKeys names fun name => ((names.zip weights).lookup name).getD 0
           expectedReturn := expectedReturn * config.annualizationFactor
           expectedVolatility := expectedVolatility * annualScale
           sharpeLike := sharpeLike * annualScale
           strategyStats }

end CryptoQuant.Portfolio
