import CryptoQuant.Basic
import CryptoQuant.Lib.Causal
import Mathlib.Algebra.Order.Ring.Rat

/-!
# Indicators

`backtest/indicators.py`. The numbers are those of any type with the arithmetic
that the code uses; nothing is assumed of it, so it may round. What it takes from
outside is in `NumberOps`. A bar is anything with a close, a high and a low.
-/

namespace CryptoQuant.Indicators
set_option autoImplicit false

open Prefix

/-- `math.sqrt`, `abs` and `sum`. -/
structure NumberOps (K : Type) where
  sqrt : K → K
  abs : K → K
  sum : List K → K

/-- `_validate_window`. -/
def validateWindow (window : ℤ) : Except PyError Unit :=
  raiseIf (window ≤ 0) (.valueError "window must be positive")

variable {β K : Type} [Zero K] [One K] [Add K] [Sub K] [Neg K] [Mul K] [Div K] [NatCast K] [Pow K ℕ] [LT K]
  [DecidableLT K] [DecidableEq K]

/-- `max(a, b)`: the first one unless the second is greater. -/
def pyMax (a b : K) : K := if a < b then b else a

/-- `x or 0.0`. -/
def orZero (x : Option K) : K :=
  match x with
  | none => 0
  | some x => if x = 0 then 0 else x

section Values
variable (ops : NumberOps K) (values : List K) (window : ℕ)

/-- One round of the loop of `sma`: the rolling sum and the entry it writes. -/
def smaRound (i : ℕ) (st : K × Option K) : K × Option K :=
  let rollingSum := st.1 + values.getD i 0
  let rollingSum := if window ≤ i then rollingSum - values.getD (i - window) 0 else rollingSum
  (rollingSum, if window - 1 ≤ i then some (rollingSum / (window : K)) else none)

/-- `sma`, of the closes. -/
def smaValues : List (Option K) := (states (smaRound values window) 0 values.length (0, none)).map Prod.snd

/-- One round of the loop of `ema`. -/
def emaRound (i : ℕ) (prev : K) : K :=
  let k := ((2 : ℕ) : K) / ((window + 1 : ℕ) : K)
  values.getD i 0 * k + prev * (1 - k)

/-- `ema`, of the closes. -/
def emaValues : List (Option K) :=
  if values.length < window then List.replicate values.length none
  else
    let seed := ops.sum (values.take window) / (window : K)
    List.replicate (window - 1) none ++
      (seed :: states (emaRound values window) window (values.length - window) seed).map some

/-- `_rsi_from_avg`. -/
def rsiFromAvg (avgs : K × K) : K :=
  let (avgGain, avgLoss) := avgs
  if avgLoss = 0 then ((100 : ℕ) : K)
  else
    let rs := avgGain / avgLoss
    ((100 : ℕ) : K) - ((100 : ℕ) : K) / (1 + rs)

/-- Gain and loss from one close to the next. -/
def gainLoss (i : ℕ) : K × K :=
  let delta := values.getD i 0 - values.getD (i - 1) 0
  (pyMax delta 0, pyMax (-delta) 0)

/-- The average gain and loss of the first closes. -/
def rsiSeed : K × K :=
  let sums := (List.range' 1 window).foldl (fun sums i =>
    (sums.1 + (gainLoss values i).1, sums.2 + (gainLoss values i).2)) ((0, 0) : K × K)
  (sums.1 / (window : K), sums.2 / (window : K))

/-- One round of the loop of `rsi`. -/
def rsiRound (i : ℕ) (avgs : K × K) : K × K :=
  let (gain, loss) := gainLoss values i
  ((avgs.1 * ((window - 1 : ℕ) : K) + gain) / (window : K), (avgs.2 * ((window - 1 : ℕ) : K) + loss) / (window : K))

/-- `rsi`, of the closes. -/
def rsiValues : List (Option K) :=
  if values.length ≤ window then List.replicate values.length none
  else
    List.replicate window none ++
      (rsiSeed values window ::
        states (rsiRound values window) (window + 1) (values.length - (window + 1)) (rsiSeed values window)).map
        fun avgs => some (rsiFromAvg avgs)

/-- `values[i - window + 1 : i + 1]`. -/
def segment (i : ℕ) : List K := (values.take (i + 1)).drop (i + 1 - window)

/-- The mean and the standard deviation behind the bands at a place. -/
def bandAt (i : ℕ) : K × K :=
  let mean := orZero ((smaValues values window).getD i none)
  let variance := ops.sum ((segment values window i).map fun x => (x - mean) ^ 2) / (window : K)
  (mean, ops.sqrt variance)

/-- A band that is written from the first full window on. -/
def bandValues (band : K × K → K) : List (Option K) :=
  List.replicate (min (window - 1) values.length) none ++
    (List.range' (window - 1) (values.length - (window - 1))).map fun i => some (band (bandAt ops values window i))

end Values

section Bars
variable (ops : NumberOps K) (close high low : β → K)

/-- The true ranges of the bars, after the bar before them. -/
def trueRanges : Option β → List β → List K
  | _, [] => []
  | none, bar :: rest => (high bar - low bar) :: trueRanges (some bar) rest
  | some prev, bar :: rest =>
    pyMax (pyMax (high bar - low bar) (ops.abs (high bar - close prev))) (ops.abs (low bar - close prev)) ::
      trueRanges (some bar) rest

/-- One round of the loop of `atr`. -/
def atrRound (window : ℕ) (bars : List β) (i : ℕ) (prev : K) : K :=
  (prev * ((window - 1 : ℕ) : K) + (trueRanges ops close high low none bars).getD i 0) / (window : K)

/-- `sma`. -/
def sma (bars : List β) (window : ℤ) : Except PyError (List (Option K)) := do
  validateWindow window
  return smaValues (bars.map close) window.toNat

/-- `ema`. -/
def ema (bars : List β) (window : ℤ) : Except PyError (List (Option K)) := do
  validateWindow window
  return emaValues ops (bars.map close) window.toNat

/-- `rsi`. -/
def rsi (bars : List β) (window : ℤ := 14) : Except PyError (List (Option K)) := do
  validateWindow window
  return rsiValues (bars.map close) window.toNat

/-- The entry of the upper band, by the mean and the standard deviation. -/
def upperBand (numStddev : K) (band : K × K) : K := band.1 + numStddev * band.2

/-- The entry of the lower band. -/
def lowerBand (numStddev : K) (band : K × K) : K := band.1 - numStddev * band.2

/-- `bollinger_bands`: the upper band, the middle and the lower one. -/
def bollingerBands (numStddev : K) (bars : List β) (window : ℤ := 20) :
    Except PyError (List (Option K) × List (Option K) × List (Option K)) := do
  validateWindow window
  let values := bars.map close
  let mid ← sma close bars window
  return (bandValues ops values window.toNat (upperBand numStddev), mid,
    bandValues ops values window.toNat (lowerBand numStddev))

/-- `atr`. -/
def atr (bars : List β) (window : ℤ := 14) : Except PyError (List (Option K)) := do
  validateWindow window
  let w := window.toNat
  if bars.length ≤ w then return List.replicate bars.length none
  let firstAtr := ops.sum ((trueRanges ops close high low none bars).take (w + 1) |>.drop 1) / (w : K)
  return List.replicate w none ++
    (firstAtr :: states (atrRound ops close high low w bars) (w + 1) (bars.length - (w + 1)) firstAtr).map some

end Bars

end CryptoQuant.Indicators
