import CryptoQuant.Events.Market

/-!
# Bar aggregation

`aggregation/bar_aggregator.py`. Numbers are exact rationals; the time stamps have
one UTC offset, so they are compared on their wall clock.
-/

namespace CryptoQuant.Aggregation
set_option autoImplicit false

/-- `TargetTimeframe`. -/
inductive TargetTimeframe
  | m15 | h1
deriving DecidableEq, Repr

/-- The literal of a target. -/
def TargetTimeframe.text : TargetTimeframe → String
  | .m15 => "15m"
  | .h1 => "1h"

/-- `_BUCKET_MINUTES`. -/
def TargetTimeframe.bucketMinutes : TargetTimeframe → ℤ
  | .m15 => 15
  | .h1 => 60

/-- Microseconds in a minute. -/
def microsPerMinute : ℤ := 60 * microsPerSecond

/-- `ts.minute`. -/
def minuteOf (ts : DateTime) : ℤ := ts / microsPerMinute % 60

/-- `ts.replace(minute=minute, second=0, microsecond=0)`. -/
def replaceMinute (ts : DateTime) (minute : ℤ) : DateTime :=
  ts - ts % (60 * microsPerMinute) + minute * microsPerMinute

/-- `_floor_to_bucket`. -/
def floorToBucket (ts : DateTime) (bucketMinutes : ℤ) : DateTime :=
  replaceMinute ts (minuteOf ts / bucketMinutes * bucketMinutes)

/-- `current_symbol`, `o`, `h`, `low`, `c` and `v`. -/
structure Candle where
  symbol : String
  o : ℚ
  h : ℚ
  low : ℚ
  c : ℚ
  v : ℚ
deriving DecidableEq, Repr

/-- The variables after the first bar of a bucket. -/
def Candle.first (bar : Bar) : Candle where
  symbol := bar.symbol
  o := bar.open
  h := max bar.open bar.high
  low := min bar.open bar.low
  c := bar.close
  v := bar.volume

/-- The variables after another bar of the bucket. -/
def Candle.add (candle : Candle) (bar : Bar) : Candle :=
  { candle with h := max candle.h bar.high, low := min candle.low bar.low, c := bar.close
                v := candle.v + bar.volume }

/-- The bar that is appended for a bucket. -/
def Candle.bar (candle : Candle) (target : TargetTimeframe) (start : DateTime) (symbol : String) : Bar where
  symbol := if candle.symbol = "" then symbol else candle.symbol
  timeframe := target.text
  ts := start
  «open» := candle.o
  high := candle.h
  low := candle.low
  close := candle.c
  volume := candle.v

section Stream
variable (bucketMinutes : ℤ) (target : TargetTimeframe)

/-- One round of the loop of `_aggregate_stream`: `out`, and `current_start` with the
variables of the bucket. -/
def aggregateRound (st : List Bar × Option (DateTime × Candle)) (bar : Bar) :
    List Bar × Option (DateTime × Candle) :=
  let bucketStart := floorToBucket bar.ts bucketMinutes
  match st with
  | (out, none) => (out, some (bucketStart, .first bar))
  | (out, some (start, candle)) =>
    if bucketStart ≠ start then
      (out ++ [candle.bar target start bar.symbol], some (bucketStart, .first bar))
    else (out, some (start, candle.add bar))

/-- `_aggregate_stream`. -/
def aggregateStream (stream : List Bar) : List Bar :=
  match stream.foldl (aggregateRound bucketMinutes target) ([], none) with
  | (out, none) => out
  | (out, some (start, candle)) => out ++ [candle.bar target start ""]

end Stream

/-- The flat bars between two bars. -/
def missingBars (prev bar : Bar) : List Bar :=
  let missing := (bar.ts - prev.ts) / microsPerMinute - 1
  (List.range missing.toNat).map fun i =>
    let px := prev.close
    { symbol := prev.symbol, timeframe := "1m", ts := prev.ts + (i + 1 : ℤ) * microsPerMinute
      «open» := px, high := px, low := px, close := px, volume := 0 }

/-- `_fill_gaps`, after the bar before. -/
def fillGaps : Option Bar → List Bar → List Bar
  | _, [] => []
  | none, bar :: rest => bar :: fillGaps (some bar) rest
  | some prev, bar :: rest => missingBars prev bar ++ bar :: fillGaps (some bar) rest

/-- `_validate_1m_bars`. -/
def validate1mBars (bars : List Bar) : Except PyError Unit :=
  match bars with
  | [] => .error (.indexError "list index out of range")
  | first :: _ => bars.forM fun bar => do
    raiseIf (bar.timeframe ≠ "1m") (.valueError "BarAggregator only accepts 1m bars as input")
    raiseIf (bar.symbol ≠ first.symbol) (.valueError "All bars must be for the same symbol")

/-- `BarAggregator`. -/
structure BarAggregator where
  gapFill : Bool := true

/-- `aggregate`. -/
def BarAggregator.aggregate (agg : BarAggregator) (bars1m : List Bar) (target : TargetTimeframe) :
    Except PyError (List Bar) := do
  let normalized := bars1m.insertionSort fun a b => a.ts ≤ b.ts
  if normalized = [] then return []
  validate1mBars normalized
  let stream := if agg.gapFill then fillGaps none normalized else normalized
  return aggregateStream target.bucketMinutes target stream

end CryptoQuant.Aggregation
