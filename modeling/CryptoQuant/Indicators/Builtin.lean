import CryptoQuant.Backtest.Indicators

/-!
# The built-in indicator plugins

`indicators/builtin.py`, and the context of `indicators/core.py`. The numbers are
those of `Backtest.Indicators`.
-/

namespace CryptoQuant.Indicators
set_option autoImplicit false

open Prefix

/-- `IndicatorContext`. -/
structure IndicatorContext (β : Type) where
  bars : List β

/-- `SMAIndicator`. -/
structure SMAIndicator where
  window : ℤ := 14
  name : String := "sma"

/-- `EMAIndicator`. -/
structure EMAIndicator where
  window : ℤ := 14
  name : String := "ema"

variable {β K : Type} [Zero K] [One K] [Add K] [Sub K] [Mul K] [Div K] [NatCast K]

/-- One round of the loop of `SMAIndicator.compute`. -/
def smaIndicatorRound (closes : List K) (window i : ℕ) (st : K × Option K) : K × Option K :=
  let acc := st.1 + closes.getD i 0
  let acc := if window ≤ i then acc - closes.getD (i - window) 0 else acc
  (acc, if i + 1 < window then none else some (acc / (window : K)))

/-- `SMAIndicator.compute`. -/
def SMAIndicator.compute (indicator : SMAIndicator) (close : β → K) (ctx : IndicatorContext β) :
    Except PyError (List (Option K)) := do
  raiseIf (indicator.window ≤ 0) (.valueError "window must be > 0")
  let closes := ctx.bars.map close
  return (states (smaIndicatorRound closes indicator.window.toNat) 0 closes.length (0, none)).map Prod.snd

/-- One round of the loop of `EMAIndicator.compute`. -/
def emaIndicatorRound (closes : List K) (window i : ℕ) (ema : Option K) : Option K :=
  let alpha := ((2 : ℕ) : K) / ((window + 1 : ℕ) : K)
  let px := closes.getD i 0
  match ema with
  | none => some px
  | some ema => some (px * alpha + ema * (1 - alpha))

/-- `EMAIndicator.compute`. -/
def EMAIndicator.compute (indicator : EMAIndicator) (close : β → K) (ctx : IndicatorContext β) :
    Except PyError (List (Option K)) := do
  raiseIf (indicator.window ≤ 0) (.valueError "window must be > 0")
  let closes := ctx.bars.map close
  return states (emaIndicatorRound closes indicator.window.toNat) 0 closes.length none

end CryptoQuant.Indicators
