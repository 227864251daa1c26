import CryptoQuant.Aggregation.BarAggregator
import CryptoQuant.Lib.Buckets
import CryptoQuant.Lib.Run

/-!
# Quarters and hours

On bars of one symbol `_aggregate_stream` is bucketing by the start of the bucket.
A quarter of an hour lies in one hour, and an hour takes the bar of a quarter as it
would have taken its bars.
-/

namespace CryptoQuant.Aggregation
set_option autoImplicit false

open Buckets

/-- The buckets of `_aggregate_stream`. -/
def candles (bucketMinutes : ℤ) (target : TargetTimeframe) : Scheme Bar DateTime Candle where
  key bar := floorToBucket bar.ts bucketMinutes
  first := .first
  add := .add
  emit start candle := candle.bar target start ""

/-- The open is within the range of the bar. -/
def Ranged (bar : Bar) : Prop := bar.low ≤ bar.open ∧ bar.open ≤ bar.high

section OneSymbol
variable {bucketMinutes : ℤ} {target : TargetTimeframe} {symbol : String} {stream : List Bar}

theorem candle_bar_symbol {candle : Candle} (same : candle.symbol = symbol) (start : DateTime) :
    candle.bar target start symbol = candle.bar target start "" := by
  subst same
  unfold Candle.bar
  split <;> simp [*]

variable (bucketMinutes target) in
/-- On bars of one symbol a round is a step of the bucketing. -/
theorem aggregateRound_eq {st : List Bar × Option (DateTime × Candle)}
    (open_ : ∀ start candle, st.2 = some (start, candle) → candle.symbol = symbol) {bar : Bar}
    (same : bar.symbol = symbol) :
    aggregateRound bucketMinutes target st bar = (candles bucketMinutes target).step st bar ∧
      ∀ start candle, ((candles bucketMinutes target).step st bar).2 = some (start, candle) → candle.symbol = symbol := by
  obtain ⟨out, current⟩ := st
  cases current with
  | none => exact ⟨rfl, by rintro start candle ⟨rfl, rfl⟩; exact same⟩
  | some bucket =>
    obtain ⟨start, candle⟩ := bucket
    by_cases inside : floorToBucket bar.ts bucketMinutes = start
    · rw [(candles bucketMinutes target).step_same inside]
      refine ⟨?_, by rintro later grown ⟨rfl, rfl⟩; exact (open_ start candle rfl :)⟩
      unfold aggregateRound
      simp only [inside, ne_eq, not_true_eq_false, if_false]
      rfl
    · rw [(candles bucketMinutes target).step_other inside]
      refine ⟨?_, by rintro start candle ⟨rfl, rfl⟩; exact same⟩
      unfold aggregateRound
      simp only [ne_eq, inside, not_false_eq_true, if_true, same, candle_bar_symbol (open_ _ _ rfl)]
      rfl

/-- **On bars of one symbol** the stream is bucketed. -/
theorem aggregateStream_eq_run (one : ∀ bar ∈ stream, bar.symbol = symbol) :
    aggregateStream bucketMinutes target stream = (candles bucketMinutes target).run stream := by
  have all : ∀ bars : List Bar, (∀ bar ∈ bars, bar.symbol = symbol) → ∀ st : List Bar × Option (DateTime × Candle),
      (∀ start candle, st.2 = some (start, candle) → candle.symbol = symbol) →
      bars.foldl (aggregateRound bucketMinutes target) st = bars.foldl (candles bucketMinutes target).step st := by
    intro bars
    induction bars with
    | nil => exact fun _ _ _ => rfl
    | cons bar bars ih =>
      intro one st open_
      obtain ⟨round, open_⟩ := aggregateRound_eq bucketMinutes target open_
        (one bar List.mem_cons_self)
      rw [List.foldl_cons, List.foldl_cons, round]
      exact ih (fun b member => one b (List.mem_cons_of_mem bar member)) _ open_
  unfold aggregateStream Scheme.run
  rw [all stream one _ (by simp)]
  generalize stream.foldl (candles bucketMinutes target).step ([], none) = st
  obtain ⟨out, current⟩ := st
  cases current <;> rfl

theorem symbol_of_mem_run (one : ∀ bar ∈ stream, bar.symbol = symbol) {bar : Bar}
    (member : bar ∈ (candles bucketMinutes target).run stream) : bar.symbol = symbol := by
  obtain ⟨start, candle, same, rfl⟩ := (candles bucketMinutes target).mem_run (P := fun candle => candle.symbol = symbol)
    (fun bar member => one bar member) (fun _ _ _ same => same) member
  show (if candle.symbol = "" then "" else candle.symbol) = symbol
  split
  · rename_i empty
    rw [← same, empty]
  · exact same

end OneSymbol

section Refinement

theorem minuteOf_lt (ts : DateTime) : 0 ≤ minuteOf ts ∧ minuteOf ts < 60 := by
  unfold minuteOf
  omega

theorem floorToBucket_hour (ts : DateTime) : floorToBucket ts 60 = ts - ts % (60 * microsPerMinute) := by
  obtain ⟨least, most⟩ := minuteOf_lt ts
  have none_ : minuteOf ts / 60 * 60 = 0 := by omega
  unfold floorToBucket replaceMinute
  rw [none_, zero_mul, add_zero]

/-- A quarter starts in the hour of its bars. -/
theorem hour_of_quarter (ts : DateTime) : floorToBucket (floorToBucket ts 15) 60 = floorToBucket ts 60 := by
  obtain ⟨least, most⟩ := minuteOf_lt ts
  have within : ∀ wall quarter : ℤ, 0 ≤ quarter → quarter < 60 →
      wall - wall % (60 * microsPerMinute) + quarter * microsPerMinute -
        (wall - wall % (60 * microsPerMinute) + quarter * microsPerMinute) % (60 * microsPerMinute) =
      wall - wall % (60 * microsPerMinute) := by
    intro wall quarter least most
    unfold microsPerMinute microsPerSecond
    omega
  rw [floorToBucket_hour, floorToBucket_hour]
  exact within ts (minuteOf ts / 15 * 15) (by omega) (by omega)

/-- **Quarters refine hours.** -/
theorem quarters_refine_hours :
    Refines (candles 15 .m15) (candles 60 .h1) Ranged fun start => floorToBucket start 60 where
  key bar := (hour_of_quarter bar.ts).symm
  key_emit _ _ := rfl
  first bar _ := by
    simp [candles, Candle.first, Candle.bar]
  add bar candle ranged := by
    obtain ⟨least, most⟩ := ranged
    simp [candles, Candle.first, Candle.bar, Candle.add, max_eq_right most, min_eq_right least]
  first_add start candle bar := by
    simp [candles, Candle.first, Candle.bar, Candle.add, max_assoc, min_assoc]
  add_add hour start candle bar := by
    simp [candles, Candle.bar, Candle.add, max_assoc, min_assoc, add_assoc]

end Refinement

section Stream
variable {symbol : String} {bars : List Bar}

/-- A filled bar is one of the symbol, and ranged. -/
theorem mem_missingBars {prev next bar : Bar} (member : bar ∈ missingBars prev next) :
    bar.symbol = prev.symbol ∧ Ranged bar := by
  unfold missingBars at member
  simp only [List.mem_map] at member
  obtain ⟨i, -, rfl⟩ := member
  exact ⟨rfl, le_rfl, le_rfl⟩

/-- What a filled bar takes over from the bar before it holds of all bars of the filled
list. -/
theorem mem_fillGaps {P : Bar → Prop} (fills : ∀ prev next bar, P prev → bar ∈ missingBars prev next → P bar)
    {prev : Option Bar} (before : ∀ bar ∈ prev, P bar) (all : ∀ bar ∈ bars, P bar) {bar : Bar}
    (member : bar ∈ fillGaps prev bars) : P bar := by
  induction bars generalizing prev with
  | nil => cases prev <;> exact absurd member (by simp [fillGaps])
  | cons next rest ih =>
    rw [List.forall_mem_cons] at all
    have later := fun member => ih (show ∀ bar ∈ some next, P bar by simpa using all.1) all.2 member
    cases prev with
    | none =>
      rcases List.mem_cons.mp member with rfl | member
      · exact all.1
      · exact later member
    | some prev =>
      rcases List.mem_append.mp member with filled | member
      · exact fills prev next bar (before prev rfl) filled
      · rcases List.mem_cons.mp member with rfl | member
        · exact all.1
        · exact later member

theorem forM_ok {f : Bar → Except PyError Unit} (passes : ∀ bar ∈ bars, f bar = .ok ()) : bars.forM f = .ok () := by
  induction bars with
  | nil => rfl
  | cons bar bars ih =>
    have here := passes bar List.mem_cons_self
    show (f bar >>= fun _ => bars.forM f) = .ok ()
    rw [here]
    exact ih fun b member => passes b (List.mem_cons_of_mem bar member)

theorem validate1mBars_ok (some_ : bars ≠ []) (minutes : ∀ bar ∈ bars, bar.timeframe = "1m")
    (one : ∀ bar ∈ bars, bar.symbol = symbol) : validate1mBars bars = .ok () := by
  cases bars with
  | nil => exact absurd rfl some_
  | cons first rest =>
    refine forM_ok fun bar member => ?_
    have same : bar.symbol = first.symbol := (one bar member).trans (one first List.mem_cons_self).symm
    exact Run.bind_ok.mpr ⟨(), raiseIf_ok.mpr (not_not.mpr (minutes bar member)), raiseIf_ok.mpr (not_not.mpr same)⟩

/-- The bars that are bucketed. -/
def BarAggregator.stream (agg : BarAggregator) (bars : List Bar) : List Bar :=
  let normalized := bars.insertionSort fun a b => a.ts ≤ b.ts
  if agg.gapFill then fillGaps none normalized else normalized

theorem BarAggregator.mem_stream (agg : BarAggregator) {P : Bar → Prop}
    (fills : ∀ prev next bar, P prev → bar ∈ missingBars prev next → P bar) (all : ∀ bar ∈ bars, P bar) {bar : Bar}
    (member : bar ∈ agg.stream bars) : P bar := by
  have sorted : ∀ bar ∈ bars.insertionSort fun a b => a.ts ≤ b.ts, P bar :=
    fun bar member => all bar ((List.mem_insertionSort _).mp member)
  unfold BarAggregator.stream at member
  dsimp only at member
  split at member
  · exact mem_fillGaps fills (by simp) sorted member
  · exact sorted bar member

theorem BarAggregator.symbol_of_mem_stream (agg : BarAggregator) (one : ∀ bar ∈ bars, bar.symbol = symbol) :
    ∀ bar ∈ agg.stream bars, bar.symbol = symbol :=
  fun _ member => agg.mem_stream (fun _ _ _ same filled => (mem_missingBars filled).1.trans same) one member

/-- **Aggregation** of minute bars of one symbol returns the buckets of the stream. -/
theorem BarAggregator.aggregate_ok (agg : BarAggregator) (minutes : ∀ bar ∈ bars, bar.timeframe = "1m")
    (one : ∀ bar ∈ bars, bar.symbol = symbol) (target : TargetTimeframe) :
    agg.aggregate bars target = .ok ((candles target.bucketMinutes target).run (agg.stream bars)) := by
  rw [← aggregateStream_eq_run (agg.symbol_of_mem_stream one)]
  unfold BarAggregator.aggregate
  dsimp only
  split
  · rename_i none_
    have nothing : agg.stream bars = [] := by
      unfold BarAggregator.stream
      dsimp only
      rw [none_]
      split <;> rfl
    rw [nothing]
    rfl
  · rename_i some_
    have valid := validate1mBars_ok some_ (fun bar member => minutes bar ((List.mem_insertionSort _).mp member))
      fun bar member => one bar ((List.mem_insertionSort _).mp member)
    rw [valid]
    rfl

/-- **Hours of quarters.** Bucketing the quarters into hours gives the hours of the
bars, with gap filling on or off. -/
theorem aggregateStream_quarters (agg : BarAggregator) (minutes : ∀ bar ∈ bars, bar.timeframe = "1m")
    (one : ∀ bar ∈ bars, bar.symbol = symbol) (ranged : ∀ bar ∈ bars, bar.low ≤ bar.open ∧ bar.open ≤ bar.high) :
    ∃ quarters hours, agg.aggregate bars .m15 = .ok quarters ∧ agg.aggregate bars .h1 = .ok hours ∧
      aggregateStream 60 .h1 quarters = hours := by
  refine ⟨_, _, agg.aggregate_ok minutes one .m15, agg.aggregate_ok minutes one .h1, ?_⟩
  rw [aggregateStream_eq_run fun bar member => symbol_of_mem_run (agg.symbol_of_mem_stream one) member]
  apply quarters_refine_hours.run_run
  intro bar member
  exact agg.mem_stream (fun _ _ _ _ filled => (mem_missingBars filled).2) ranged member

/-- Two minutes of one quarter and one of the next. -/
def threeMinutes : List Bar :=
  [0, 2, 16].map fun minute =>
    { symbol := "BTCUSDT", timeframe := "1m", ts := minute * microsPerMinute, «open» := 100 + minute, high := 102 + minute
      low := 99, close := 101, volume := 3 }

theorem aggregateStream_quarters_threeMinutes :
    ∃ quarters hours, ({} : BarAggregator).aggregate threeMinutes .m15 = .ok quarters ∧
      ({} : BarAggregator).aggregate threeMinutes .h1 = .ok hours ∧ aggregateStream 60 .h1 quarters = hours :=
  aggregateStream_quarters {} (by decide) (show ∀ bar ∈ threeMinutes, bar.symbol = "BTCUSDT" by decide)
    (by decide +kernel)

end Stream

end CryptoQuant.Aggregation
