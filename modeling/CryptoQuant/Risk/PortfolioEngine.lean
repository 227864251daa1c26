import CryptoQuant.Portfolio.MultiStrategy
import Mathlib.Algebra.Order.Floor.Ring

/-!
# The portfolio risk engine

`risk/portfolio_engine.py`: the correlations of strategy returns, and the historical
value at risk. The numbers are those of any ordered field with floors, with its square
root as a parameter.
-/

namespace CryptoQuant.PortfolioEngine
set_option autoImplicit false

open Portfolio (PyFloat sortedNames)

section Types
variable (K : Type) [Field K] [LinearOrder K]

/-- `CorrelationRiskConfig`, with what its constructor checks. -/
structure CorrelationRiskConfig where
  maxAbsPairCorr : K
  maxAvgAbsCorr : K
  pair_bounds : 0 < maxAbsPairCorr ∧ maxAbsPairCorr ≤ 1
  avg_bounds : 0 < maxAvgAbsCorr ∧ maxAvgAbsCorr ≤ 1

omit [Field K] [LinearOrder K] in
/-- `CorrelationRiskResult`. -/
structure CorrelationRiskResult where
  approved : Bool
  matrix : Py.Dict String (Py.Dict String K)
  avgAbsCorrelation : K
  breachedPairs : List (String × String × K)
  reasons : List String

/-- `VarCvarResult`. -/
structure VarCvarResult where
  confidence : K
  horizonDays : ℤ
  portfolioValue : K
  var : K
  cvar : K
  tailScenarios : ℤ

end Types

variable {K : Type} [Field K] [LinearOrder K] [FloorRing K]

/-- `CorrelationRiskConfig(max_abs_pair_corr, max_avg_abs_corr)`. -/
def CorrelationRiskConfig.new (maxAbsPairCorr : K := 85 / 100) (maxAvgAbsCorr : K := 65 / 100) :
    Except PyError (CorrelationRiskConfig K) :=
  if pair : 0 < maxAbsPairCorr ∧ maxAbsPairCorr ≤ 1 then
    if avg : 0 < maxAvgAbsCorr ∧ maxAvgAbsCorr ≤ 1 then .ok ⟨maxAbsPairCorr, maxAvgAbsCorr, pair, avg⟩
    else .error (.valueError "max_avg_abs_corr must be in (0, 1]")
  else .error (.valueError "max_abs_pair_corr must be in (0, 1]")

/-- `round(x)`: to the nearest integer, a tie to the even one. -/
def roundHalfEven (x : K) : ℤ :=
  let below := ⌊x⌋
  let rest := x - below
  if rest + rest < 1 ∨ (rest + rest = 1 ∧ below % 2 = 0) then below else below + 1

/-- `f"{x:.{digits}f}"`. -/
def formatFixed (digits : ℕ) (x : K) : String :=
  let scaled := (roundHalfEven (|x| * (10 ^ digits : ℕ))).toNat
  (if x < 0 then "-" else "") ++ toString (scaled / 10 ^ digits) ++ "." ++ zeroPad digits (scaled % 10 ^ digits)

/-- `ZeroDivisionError`. -/
def divisionByZero : PyError := .external "division by zero"

/-- `x / y`. -/
def divide (x y : K) : Except PyError K := if y = 0 then .error divisionByZero else .ok (x / y)

/-- `_mean`. -/
def mean (values : List K) : Except PyError K :=
  match values with
  | [] => .error (.valueError "cannot compute mean of empty values")
  | _ :: _ => divide values.sum values.length

/-- `_mean`, of some values. -/
theorem mean_eq {values : List K} (nonempty : 0 < values.length) : mean values = .ok (values.sum / values.length) := by
  cases values with
  | nil => simp at nonempty
  | cons value values =>
    have whole : (((value :: values).length : ℕ) : K) ≠ 0 := Nat.cast_ne_zero.mpr nonempty.ne'
    exact if_neg whole

/-- `num`, `den_x` and `den_y`. -/
structure Moments (K : Type) where
  num : K
  denX : K
  denY : K

/-- One round of the loop of `_pearson`. -/
def Moments.add (xMean yMean : K) (m : Moments K) (pair : K × K) : Moments K :=
  let dx := pair.1 - xMean
  let dy := pair.2 - yMean
  { num := m.num + dx * dy, denX := m.denX + dx * dx, denY := m.denY + dy * dy }

/-- `_pearson`. -/
def pearson (sqrt : K → K) (x y : List K) (xMean yMean : K) : Except PyError K :=
  let m := (x.zip y).foldl (Moments.add xMean yMean) ⟨0, 0, 0⟩
  let denom := sqrt (m.denX * m.denY)
  if denom = 0 then .ok 0 else divide m.num denom

/-- `matrix`, `abs_corr_values` and `breached_pairs`. -/
structure Scan (K : Type) where
  matrix : Py.Dict String (Py.Dict String K)
  absCorrValues : List K
  breachedPairs : List (String × String × K)

/-- `matrix[left][right] = corr`. -/
def Scan.put (scan : Scan K) (left right : String) (corr : K) : Scan K :=
  { scan with matrix := scan.matrix.set left ((scan.matrix.getD left .empty).set right corr) }

section Correlation
variable (sqrt : K → K) (strategyReturns : Py.Dict String (List K)) (config : CorrelationRiskConfig K)

/-- One round of the two loops of `evaluate_correlation_risk`. -/
def scanPair (means : Py.Dict String K) (scan : Scan K) (left right : String × ℕ) : Except PyError (Scan K) :=
  if left.2 = right.2 then .ok (scan.put left.1 right.1 1)
  else do
    let corr ← pearson sqrt (strategyReturns.getD left.1 []) (strategyReturns.getD right.1 [])
      (means.getD left.1 0) (means.getD right.1 0)
    let scan := scan.put left.1 right.1 corr
    if left.2 < right.2 then
      let absCorr := |corr|
      let scan := { scan with absCorrValues := scan.absCorrValues ++ [absCorr] }
      if config.maxAbsPairCorr < absCorr then
        return { scan with breachedPairs := scan.breachedPairs ++ [(left.1, right.1, corr)] }
      else return scan
    else return scan

/-- `pair_summary`. -/
def pairSummary (breachedPairs : List (String × String × K)) : String :=
  ", ".intercalate (breachedPairs.map fun (left, right, corr) => s!"{left}/{right}={formatFixed 3 corr}")

/-- `evaluate_correlation_risk`. -/
def evaluateCorrelationRisk : Except PyError (CorrelationRiskResult K) := do
  let names := sortedNames strategyReturns.keys
  raiseIf (names.length < 2) (.valueError "at least two strategies are required")
  let lengths := (names.map fun name => (strategyReturns.getD name []).length).dedup
  raiseIf (lengths.length ≠ 1) (.valueError "all strategy return series must have same length")
  let sampleSize := lengths.head?.getD 0
  raiseIf (sampleSize < 2) (.valueError "at least two observations are required")
  let means ← names.foldlM (fun means name => return means.set name (← mean (strategyReturns.getD name []))) Py.Dict.empty
  let scan ← names.zipIdx.foldlM
    (fun scan left => names.zipIdx.foldlM (fun scan right => scanPair sqrt strategyReturns config means scan left right) scan)
    { matrix := .ofKeys names fun _ => .empty, absCorrValues := [], breachedPairs := [] }
  let avgAbs ← mean scan.absCorrValues
  let pairReasons := if scan.breachedPairs = [] then [] else
    [s!"pair correlation breach (limit={formatFixed 2 config.maxAbsPairCorr}): {pairSummary scan.breachedPairs}"]
  let avgReasons := if config.maxAvgAbsCorr < avgAbs then
    [s!"average absolute correlation breach: {formatFixed 3 avgAbs} > {formatFixed 3 config.maxAvgAbsCorr}"] else []
  let reasons := pairReasons ++ avgReasons
  return { approved := reasons.length = 0, matrix := scan.matrix, avgAbsCorrelation := avgAbs
           breachedPairs := scan.breachedPairs, reasons }

end Correlation

/-- The loss of one return: the body of the loop of `historical_var_cvar`. -/
def lossOf (horizonScale portfolioValue : K) : PyFloat K → Except PyError K
  | .finite value => .ok (-value * horizonScale * portfolioValue)
  | .nonFinite => .error (.valueError "returns must be finite numbers")

/-- `historical_var_cvar`. -/
def historicalVarCvar (sqrt : K → K) (returns : List (PyFloat K)) (confidence : K := 95 / 100) (horizonDays : ℤ := 1)
    (portfolioValue : K := 1) : Except PyError (VarCvarResult K) := do
  raiseIf (¬ (0 < confidence ∧ confidence < 1)) (.valueError "confidence must be in (0, 1)")
  raiseIf (horizonDays ≤ 0) (.valueError "horizon_days must be positive")
  raiseIf (portfolioValue ≤ 0) (.valueError "portfolio_value must be positive")
  raiseIf (returns.length < 2) (.valueError "at least two return observations are required")
  let horizonScale := sqrt horizonDays
  let losses ← returns.mapM (lossOf horizonScale portfolioValue)
  let losses := losses.insertionSort (· ≥ ·)
  let alpha := 1 - confidence
  let tailCount := max 1 ⌈alpha * losses.length⌉
  match losses[(tailCount - 1).toNat]? with
  | none => .error (.indexError "list index out of range")
  | some var =>
    let cvar ← mean (losses.take tailCount.toNat)
    return { confidence, horizonDays, portfolioValue, var, cvar, tailScenarios := tailCount }

end CryptoQuant.PortfolioEngine
