import CryptoQuant.Events.Market
import Mathlib.Algebra.Order.Group.Abs
import Mathlib.Data.Rat.Cast.Defs

/-!
# The market regime detector

`strategy/regime.py`: trend, mean reversion, volatility and jumps of the last closes, and
the profile and confidence drawn from them. The numbers are those of any ordered field,
with its square root as a parameter.
-/

namespace CryptoQuant.Regime
set_option autoImplicit false

/-- `TrendRegime`. -/
inductive TrendRegime
  | up | down | sideways
deriving DecidableEq, Repr

/-- `MeanReversionRegime`. -/
inductive MeanReversionRegime
  | stretched | neutral
deriving DecidableEq, Repr

/-- `VolatilityRegime`. -/
inductive VolatilityRegime
  | low | normal | high
deriving DecidableEq, Repr

/-- `EventRegime`. -/
inductive EventRegime
  | calm | event
deriving DecidableEq, Repr

/-- `MarketRegimeProfile`. -/
inductive MarketRegimeProfile
  | trend | meanReversion | volatility | event
deriving DecidableEq, Repr

section Types
variable (K : Type)

/-- `MarketRegime`. -/
structure MarketRegime where
  trend : TrendRegime
  meanReversion : MeanReversionRegime
  volatility : VolatilityRegime
  event : EventRegime
  profile : MarketRegimeProfile
  confidence : K
  trendScore : K
  zScore : K
  volatilityValue : K

/-- `MarketRegimeConfig`. -/
structure MarketRegimeConfig where
  lookbackEvents : ℤ
  trendThreshold : K
  meanReversionZscore : K
  volatilityLowThreshold : K
  volatilityHighThreshold : K
  eventJumpThreshold : K

/-- `MarketRegimeDetector`, with what its constructor checks. -/
structure MarketRegimeDetector where
  config : MarketRegimeConfig K
  lookback_ge : 5 ≤ config.lookbackEvents

end Types

variable {K : Type} [Field K] [LinearOrder K]

/-- `MarketRegimeConfig()`. -/
def MarketRegimeConfig.default : MarketRegimeConfig K where
  lookbackEvents := 30
  trendThreshold := (1 / 100 : ℚ)
  meanReversionZscore := (12 / 10 : ℚ)
  volatilityLowThreshold := (4 / 1000 : ℚ)
  volatilityHighThreshold := (12 / 1000 : ℚ)
  eventJumpThreshold := (2 / 100 : ℚ)

/-- `MarketRegimeDetector(config)`. -/
def MarketRegimeDetector.new (config : MarketRegimeConfig K := .default) : Except PyError (MarketRegimeDetector K) :=
  if lookback : config.lookbackEvents < 5 then .error (.valueError "lookback_events must be >= 5")
  else .ok ⟨config, not_lt.mp lookback⟩

/-- `mean`, of some values. -/
def mean (values : List K) : K := values.sum / values.length

/-- `_stddev`; the same as `pstdev` where there are values. -/
def stddev (sqrt : K → K) (values : List K) : K :=
  if values = [] then 0 else sqrt ((values.map fun v => (v - mean values) ^ 2).sum / values.length)

/-- `[(closes[i] / closes[i - 1]) - 1.0 for i in range(1, len(closes))]`. -/
def returnsOf (closes : List K) : List K := List.zipWith (fun close previous => close / previous - 1) closes.tail closes

/-- `_select_profile`. -/
def selectProfile (trend : TrendRegime) (meanReversion : MeanReversionRegime) (volatility : VolatilityRegime)
    (eventRegime : EventRegime) : MarketRegimeProfile :=
  if eventRegime = .event then .event
  else if volatility = .high then .volatility
  else if trend = .up ∨ trend = .down then .trend
  else if meanReversion = .stretched then .meanReversion
  else .trend

/-- `1e-9`. -/
def least : K := (1 / 1000000000 : ℚ)

/-- `_confidence`. -/
def confidenceOf (trendScore zScore volatility : K) (config : MarketRegimeConfig K) (eventRegime : EventRegime) : K :=
  if eventRegime = .event then 1
  else
    let trendComponent := min (|trendScore| / max config.trendThreshold least) 1
    let meanComponent := min (|zScore| / max config.meanReversionZscore least) 1
    let volComponent := min (volatility / max config.volatilityHighThreshold least) 1
    max 0 (min 1 ((4 / 10 : ℚ) * trendComponent + (4 / 10 : ℚ) * meanComponent + (2 / 10 : ℚ) * volComponent))

/-- `trend_score`, of the closes looked at. -/
def trendScoreOf (closes : List K) : K := closes.getLastD 0 / closes.headD 0 - 1

/-- `z_score`, of the closes looked at. -/
def zScoreOf (sqrt : K → K) (closes : List K) : K :=
  let sigma := stddev sqrt closes
  if sigma = 0 then 0 else (closes.getLastD 0 - mean closes) / sigma

/-- The regime of the closes that `detect` looks at. -/
def regimeOf (sqrt : K → K) (config : MarketRegimeConfig K) (closes : List K) (eventIntensity : K) : MarketRegime K :=
  let returns := returnsOf closes
  let trendScore := trendScoreOf closes
  let vol := stddev sqrt returns
  let zScore := zScoreOf sqrt closes
  let trend : TrendRegime :=
    if config.trendThreshold ≤ trendScore then .up else if trendScore ≤ -config.trendThreshold then .down else .sideways
  let meanReversion : MeanReversionRegime := if config.meanReversionZscore ≤ |zScore| then .stretched else .neutral
  let volatility : VolatilityRegime :=
    if config.volatilityHighThreshold ≤ vol then .high else if vol ≤ config.volatilityLowThreshold then .low else .normal
  let recentJump := if returns = [] then 0 else |returns.getLastD 0|
  let eventRegime : EventRegime := if config.eventJumpThreshold ≤ max |eventIntensity| recentJump then .event else .calm
  { trend, meanReversion, volatility
    event := eventRegime
    profile := selectProfile trend meanReversion volatility eventRegime
    confidence := confidenceOf trendScore zScore vol config eventRegime
    trendScore, zScore, volatilityValue := vol }

/-- `events[-lookback_events:]`, by their closes. -/
def recentCloses (config : MarketRegimeConfig K) (events : List MarketEvent) : List K :=
  (events.drop (events.length - config.lookbackEvents.toNat)).map fun event => (event.close : K)

/-- `detect`. -/
def detect (sqrt : K → K) (detector : MarketRegimeDetector K) (events : List MarketEvent) (eventIntensity : K := 0) :
    Except PyError (MarketRegime K) :=
  if events.length < detector.config.lookbackEvents then .error (.valueError "insufficient history for regime detection")
  else
    let closes := recentCloses detector.config events
    if ∃ v ∈ closes, v ≤ 0 then .error (.valueError "close values must be finite and > 0")
    else .ok (regimeOf sqrt detector.config closes eventIntensity)

end CryptoQuant.Regime
