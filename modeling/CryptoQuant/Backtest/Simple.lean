import CryptoQuant.Events.Market
import CryptoQuant.Indicators.Builtin

/-!
# The SMA crossover backtest

`backtest/simple.py`, with `BacktestReport` of `reporting.py` and the plugins of
`indicators/core.py`. Numbers are exact rationals; `math.sqrt`, `**` and `int` of a
text are in `Numerics`.
-/

namespace CryptoQuant.Indicators
set_option autoImplicit false

/-- `IndicatorPlugin`. -/
structure IndicatorPlugin where
  name : String
  compute : IndicatorContext Bar → Except PyError (List (Option ℚ))

/-- An `SMAIndicator` as a plugin. -/
def SMAIndicator.plugin (indicator : SMAIndicator) : IndicatorPlugin := ⟨indicator.name, indicator.compute Bar.close⟩

end CryptoQuant.Indicators

namespace CryptoQuant.Simple
set_option autoImplicit false

open Indicators

/-- `math.sqrt`, which is zero at zero only, `**` and `int(text)`. -/
structure Numerics where
  sqrt : ℚ → ℚ
  sqrt_eq_zero : ∀ {x : ℚ}, 0 ≤ x → (sqrt x = 0 ↔ x = 0)
  pow : ℚ → ℚ → ℚ
  int : String → Except PyError ℤ

/-- `BacktestReport`. -/
structure BacktestReport where
  symbol : String
  timeframe : String
  bars : ℕ
  trades : ℕ
  totalReturn : ℚ
  maxDrawdown : ℚ
  annualizedReturn : ℚ := 0
  sharpeRatio : ℚ := 0
  winRate : ℚ := 0
  finalEquity : ℚ := 1
deriving DecidableEq, Repr

/-- `BacktestResult`. -/
structure BacktestResult where
  equityCurve : List ℚ
  drawdownCurve : List ℚ
  report : BacktestReport
deriving DecidableEq, Repr

/-- `ZeroDivisionError`. -/
def zeroDivision (message : String) : PyError := .external message

/-- `xs[i]`. -/
def itemAt {α : Type} (xs : List α) (i : ℕ) : Except PyError α :=
  match xs[i]? with
  | some x => .ok x
  | none => .error (.indexError "list index out of range")

/-- The variables of the loop. -/
structure Walk where
  equity : ℚ := 1
  peak : ℚ := 1
  maxDrawdown : ℚ := 0
  pos : ℕ := 0
  trades : ℕ := 0
  curve : List ℚ := [1]
  drawdownCurve : List ℚ := [0]
  activeReturns : List ℚ := []

/-- `next_pos`. -/
def Walk.nextPos (st : Walk) (prev : Bar) (signal : Option ℚ) : ℕ :=
  match signal with
  | none => st.pos
  | some signal => if signal < prev.close then 1 else 0

/-- The round from one bar to the next. -/
def Walk.next (st : Walk) (prev cur : Bar) (signal : Option ℚ) : Walk :=
  let pos := st.nextPos prev signal
  let ret := cur.close / prev.close - 1
  let equity := if pos = 1 then st.equity * (1 + ret) else st.equity
  let peak := max st.peak equity
  let dd := if peak ≠ 0 then (peak - equity) / peak else 0
  { equity, peak, maxDrawdown := max st.maxDrawdown dd, pos
    trades := if pos ≠ st.pos then st.trades + 1 else st.trades
    curve := st.curve ++ [equity]
    drawdownCurve := st.drawdownCurve ++ [dd]
    activeReturns := if pos = 1 then st.activeReturns ++ [ret] else st.activeReturns }

/-- One round of the loop. -/
def turn (bars : List Bar) (values : List (Option ℚ)) (st : Walk) (i : ℕ) : Except PyError Walk := do
  let prev ← itemAt bars (i - 1)
  let cur ← itemAt bars i
  let signal ← itemAt values (i - 1)
  raiseIf (prev.close = 0) (zeroDivision "float division by zero")
  return st.next prev cur signal

/-- `_timeframe_to_minutes`. -/
def timeframeToMinutes (py : Numerics) (timeframe : String) : Except PyError ℤ :=
  match timeframe.toList.getLast? with
  | none => .error (.indexError "string index out of range")
  | some last => do
    let unit := strLower (String.ofList [last])
    let count := String.ofList timeframe.toList.dropLast
    let value ← py.int (if count = "" then "1" else count)
    if unit = "m" then return value
    else if unit = "h" then return value * 60
    else if unit = "d" then return value * 24 * 60
    else .error (.valueError s!"unsupported timeframe: {timeframe}")

/-- `int((365 * 24 * 60) / minutes)`. -/
def periodsPerYear (py : Numerics) (timeframe : String) : Except PyError ℤ := do
  let minutes ← timeframeToMinutes py timeframe
  raiseIf (minutes = 0) (zeroDivision "division by zero")
  return (365 * 24 * 60 : ℤ).tdiv minutes

/-- `_annualized_return`. -/
def annualizedReturn (py : Numerics) (totalReturn : ℚ) (bars : ℕ) (timeframe : String) : Except PyError ℚ := do
  if bars ≤ 1 then return 0
  let periods ← periodsPerYear py timeframe
  raiseIf (periods = 0) (zeroDivision "division by zero")
  let years := (bars : ℚ) / periods
  if years ≤ 0 ∨ years < 1 / 12 then return 0
  return py.pow (1 + totalReturn) (1 / years) - 1

/-- `sqrt`, of the `math` module. -/
def mathSqrt (py : Numerics) (x : ℚ) : Except PyError ℚ := do
  raiseIf (x < 0) (.valueError "math domain error")
  return py.sqrt x

/-- The variance that `_sharpe_ratio` takes the root of. -/
def variance (returns : List ℚ) : ℚ :=
  let mean := returns.sum / returns.length
  (returns.map fun r => (r - mean) ^ 2).sum / ((returns.length : ℚ) - 1)

/-- `_sharpe_ratio`. -/
def sharpeRatio (py : Numerics) (returns : List ℚ) (timeframe : String) : Except PyError ℚ := do
  if returns.length < 2 then return 0
  let mean := returns.sum / returns.length
  let std ← mathSqrt py (variance returns)
  if std = 0 then return 0
  let periods ← periodsPerYear py timeframe
  let root ← mathSqrt py periods
  return mean / std * root

/-- `_win_rate`. -/
def winRate (returns : List ℚ) : ℚ :=
  if returns = [] then 0 else ((returns.filter fun r => 0 < r).length : ℚ) / returns.length

/-- `run_sma_crossover_backtest`. -/
def runSmaCrossoverBacktest (py : Numerics) (bars : List Bar) (indicator : IndicatorPlugin) :
    Except PyError BacktestResult :=
  match bars with
  | [] => .ok ⟨[], [], { symbol := "", timeframe := "", bars := 0, trades := 0, totalReturn := 0, maxDrawdown := 0 }⟩
  | first :: _ => do
    let values ← indicator.compute ⟨bars⟩
    let st ← (List.range' 1 (bars.length - 1)).foldlM (turn bars values) {}
    let annualized ← annualizedReturn py (st.equity - 1) bars.length first.timeframe
    let sharpe ← sharpeRatio py st.activeReturns first.timeframe
    return ⟨st.curve, st.drawdownCurve,
      { symbol := first.symbol, timeframe := first.timeframe, bars := bars.length, trades := st.trades
        totalReturn := st.equity - 1, maxDrawdown := st.maxDrawdown, annualizedReturn := annualized
        sharpeRatio := sharpe, winRate := winRate st.activeReturns, finalEquity := st.equity }⟩

end CryptoQuant.Simple
