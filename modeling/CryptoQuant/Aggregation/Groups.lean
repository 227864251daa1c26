import CryptoQuant.Aggregation.Consistency
import CryptoQuant.Lib.Grouping
import CryptoQuant.Lib.StableSort
import Mathlib.Order.Bounds.Basic

/-!
# Buckets of bars

Without gap filling the aggregated bars are the groups of the input bars by the start
of their bucket, each summed up: the first open, the last close, the extremes and the
total volume.
-/

namespace CryptoQuant.Aggregation
set_option autoImplicit false

open Buckets

/-! ## Bucket starts -/

section Starts
variable (target : TargetTimeframe)

/-- The length of a bucket. -/
def TargetTimeframe.width : ℤ := target.bucketMinutes * microsPerMinute

/-- The start of the bucket of a time stamp. -/
def TargetTimeframe.start (ts : DateTime) : DateTime := floorToBucket ts target.bucketMinutes

/-- A bucket starts at a multiple of its length. -/
theorem TargetTimeframe.start_eq (ts : DateTime) : target.start ts = target.width * (ts / target.width) := by
  have multiple : ∀ wall bucket : ℤ, bucket = 15 ∨ bucket = 60 →
      wall - wall % (60 * (60 * 1000000)) + wall / (60 * 1000000) % 60 / bucket * bucket * (60 * 1000000) =
        bucket * (60 * 1000000) * (wall / (bucket * (60 * 1000000))) := by
    rintro wall bucket (rfl | rfl) <;> omega
  apply multiple ts target.bucketMinutes
  cases target <;> simp [bucketMinutes]

theorem TargetTimeframe.width_pos : 0 < target.width := by
  cases target <;> decide

theorem TargetTimeframe.start_mono {ts ts' : DateTime} (le : ts ≤ ts') : target.start ts ≤ target.start ts' := by
  rw [start_eq, start_eq]
  have quotients := Int.ediv_le_ediv target.width_pos le
  exact mul_le_mul_of_nonneg_left quotients target.width_pos.le

end Starts

/-! ## Sums of bars -/

/-- A bar with its open and its close within its range. -/
structure ValidBar (bar : Bar) : Prop where
  low_open : bar.low ≤ bar.open
  open_high : bar.open ≤ bar.high
  low_close : bar.low ≤ bar.close
  close_high : bar.close ≤ bar.high

instance (bar : Bar) : Decidable (ValidBar bar) :=
  decidable_of_iff (bar.low ≤ bar.open ∧ bar.open ≤ bar.high ∧ bar.low ≤ bar.close ∧ bar.close ≤ bar.high)
    ⟨fun ⟨a, b, c, d⟩ => ⟨a, b, c, d⟩, fun ⟨a, b, c, d⟩ => ⟨a, b, c, d⟩⟩

/-- The open, the extremes, the close and the volume are those of the bars together. -/
structure SumsUp (bars : List Bar) («open» high low close volume : ℚ) : Prop where
  «open» : bars.head?.map Bar.open = some «open»
  high : IsGreatest {h | ∃ bar ∈ bars, bar.high = h} high
  low : IsLeast {l | ∃ bar ∈ bars, bar.low = l} low
  close : bars.getLast?.map Bar.close = some close
  volume : volume = (bars.map Bar.volume).sum

/-- The candle of some bars. -/
def Candle.SumsUp (candle : Candle) (bars : List Bar) : Prop :=
  Aggregation.SumsUp bars candle.o candle.h candle.low candle.c candle.v

section Candle
variable {candle : Candle} {bars : List Bar}

theorem Candle.first_sumsUp {bar : Bar} (valid : ValidBar bar) : (Candle.first bar).SumsUp [bar] := by
  constructor <;> simp [Candle.first, valid.open_high, valid.low_open]

/-- One bar more. -/
theorem Candle.SumsUp.add (sums : candle.SumsUp bars) (bar : Bar) : (candle.add bar).SumsUp (bars ++ [bar]) := by
  obtain ⟨open_, high, low, close, volume⟩ := sums
  have values (f : Bar → ℚ) : {v | ∃ b ∈ bars ++ [bar], f b = v} = {v | ∃ b ∈ bars, f b = v} ∪ {f bar} := by
    ext v
    constructor
    · rintro ⟨b, member, rfl⟩
      rcases List.mem_append.mp member with before | here
      · exact .inl ⟨b, before, rfl⟩
      · exact .inr (by rw [List.mem_singleton.mp here]; rfl)
    · rintro (⟨b, before, rfl⟩ | rfl)
      · exact ⟨b, List.mem_append_left _ before, rfl⟩
      · exact ⟨bar, List.mem_append_right _ (List.mem_singleton_self bar), rfl⟩
  refine ⟨?_, ?_, ?_, ?_, ?_⟩
  · cases bars with
    | nil => simp at open_
    | cons b rest => exact open_
  · rw [values]
    exact high.union isGreatest_singleton
  · rw [values]
    exact low.union isLeast_singleton
  · simp [Candle.add]
  · simp [Candle.add, volume]

theorem Candle.SumsUp.foldl (sums : candle.SumsUp bars) (later : List Bar) :
    (later.foldl Candle.add candle).SumsUp (bars ++ later) := by
  induction later generalizing candle bars with
  | nil => simpa using sums
  | cons bar later ih => simpa using ih (sums.add bar)

/-- The contents of a bucket sum up its bars. -/
theorem Candle.sumsUp_of_gather {target : TargetTimeframe} (valid : ∀ bar ∈ bars, ValidBar bar)
    (gathered : (candles target.bucketMinutes target).gather bars = some candle) : candle.SumsUp bars := by
  cases bars with
  | nil => cases gathered
  | cons bar rest =>
    cases gathered
    exact (Candle.first_sumsUp (valid bar List.mem_cons_self)).foldl rest

/-- A sum of valid bars is valid. -/
theorem SumsUp.valid {o h l c v : ℚ} (sums : SumsUp bars o h l c v) (valid : ∀ bar ∈ bars, ValidBar bar) :
    l ≤ o ∧ o ≤ h ∧ l ≤ c ∧ c ≤ h := by
  obtain ⟨first, head, rfl⟩ := Option.map_eq_some_iff.mp sums.open
  obtain ⟨last, tail, rfl⟩ := Option.map_eq_some_iff.mp sums.close
  have firstIn := List.mem_of_head? head
  have lastIn := List.mem_of_getLast? tail
  refine ⟨?_, ?_, ?_, ?_⟩
  · exact (sums.low.2 ⟨first, firstIn, rfl⟩).trans (valid first firstIn).low_open
  · exact (valid first firstIn).open_high.trans (sums.high.2 ⟨first, firstIn, rfl⟩)
  · exact (sums.low.2 ⟨last, lastIn, rfl⟩).trans (valid last lastIn).low_close
  · exact (valid last lastIn).close_high.trans (sums.high.2 ⟨last, lastIn, rfl⟩)

end Candle

/-! ## Aggregation -/

/-- `sorted(bars, key=lambda b: b.ts)`. -/
def inTimeOrder (bars : List Bar) : List Bar := bars.insertionSort fun a b => a.ts ≤ b.ts

theorem perm_inTimeOrder (bars : List Bar) : (inTimeOrder bars).Perm bars := List.perm_insertionSort _ bars

theorem pairwise_inTimeOrder (bars : List Bar) : (inTimeOrder bars).Pairwise fun a b => a.ts ≤ b.ts :=
  List.pairwise_insertionSort _ bars

section Aggregate
variable {target : TargetTimeframe} {symbol : String} {bars stream : List Bar}

variable (target) in
/-- The buckets of bars in time order are ordered. -/
theorem ordered_of_pairwise (sorted : stream.Pairwise fun a b => a.ts ≤ b.ts) :
    (candles target.bucketMinutes target).Ordered stream :=
  sorted.imp fun le => target.start_mono le

/-- The bars of a run have the keys of its buckets as time stamps. -/
theorem ts_run (stream : List Bar) : ((candles target.bucketMinutes target).run stream).map Bar.ts =
    ((candles target.bucketMinutes target).buckets stream).map Prod.fst := by
  rw [Scheme.run_eq_buckets, List.map_map]
  rfl

/-- A bar that is returned is the candle of its bucket. -/
theorem mem_run_iff {bar : Bar} : bar ∈ (candles target.bucketMinutes target).run stream ↔
    ∃ start candle, (start, candle) ∈ (candles target.bucketMinutes target).buckets stream ∧
      bar = candle.bar target start "" := by
  rw [Scheme.run_eq_buckets, List.mem_map]
  constructor
  · rintro ⟨⟨start, candle⟩, member, rfl⟩
    exact ⟨start, candle, member, rfl⟩
  · rintro ⟨start, candle, member, rfl⟩
    exact ⟨(start, candle), member, rfl⟩

theorem increasing_run (sorted : stream.Pairwise fun a b => a.ts ≤ b.ts) :
    ((candles target.bucketMinutes target).run stream).Pairwise fun a b => a.ts < b.ts := by
  have increasing := (ordered_of_pairwise target sorted).groups.increasing
  rw [← ts_run, List.pairwise_map] at increasing
  exact increasing

/-- **Aggregation without loss.** Without gap filling the returned bars are the groups of
the input bars by the start of their bucket, in time order, each summed up over its bars
in stable time order. -/
theorem aggregate_groups (target : TargetTimeframe) (minutes : ∀ bar ∈ bars, bar.timeframe = "1m")
    (one : ∀ bar ∈ bars, bar.symbol = symbol) (valid : ∀ bar ∈ bars, ValidBar bar) :
    ∃ out, BarAggregator.aggregate { gapFill := false } bars target = .ok out ∧
      (out.Pairwise fun a b => a.ts < b.ts) ∧
      (∀ start, (∃ bar ∈ out, bar.ts = start) ↔
        ∃ bar ∈ bars, floorToBucket bar.ts target.bucketMinutes = start) ∧
      (∀ bar ∈ out, SumsUp (inTimeOrder (bars.filter fun b => floorToBucket b.ts target.bucketMinutes = bar.ts))
        bar.open bar.high bar.low bar.close bar.volume) ∧
      (∀ bar ∈ out, bar.symbol = symbol ∧ bar.timeframe = target.text ∧ ValidBar bar) ∧
      (out.map Bar.volume).sum = (bars.map Bar.volume).sum := by
  refine ⟨_, BarAggregator.aggregate_ok _ minutes one target, ?_⟩
  show _ ∧ _
  rw [show BarAggregator.stream { gapFill := false } bars = inTimeOrder bars from rfl]
  have perm := perm_inTimeOrder bars
  have groups := (ordered_of_pairwise target (pairwise_inTimeOrder bars)).groups
  have sums : ∀ bar ∈ (candles target.bucketMinutes target).run (inTimeOrder bars),
      SumsUp (inTimeOrder (bars.filter fun b => floorToBucket b.ts target.bucketMinutes = bar.ts))
        bar.open bar.high bar.low bar.close bar.volume := by
    intro bar member
    obtain ⟨start, candle, bucket, rfl⟩ := mem_run_iff.mp member
    have contents := groups.contents _ bucket
    have taken : (candles target.bucketMinutes target).group start (inTimeOrder bars) =
        inTimeOrder (bars.filter fun b => floorToBucket b.ts target.bucketMinutes = start) :=
      StableSort.filter_insertionSort _ bars
    rw [taken] at contents
    apply Candle.sumsUp_of_gather _ contents
    intro b among
    exact valid b (List.mem_of_mem_filter ((perm_inTimeOrder _).mem_iff.mp among))
  refine ⟨increasing_run (pairwise_inTimeOrder bars), fun start => ?_, sums, fun bar member => ?_, ?_⟩
  · have keys := groups.keys start
    rw [← ts_run, List.mem_map] at keys
    rw [keys]
    constructor
    · rintro ⟨bar, member, own⟩
      exact ⟨bar, perm.mem_iff.mp member, own⟩
    · rintro ⟨bar, member, own⟩
      exact ⟨bar, perm.mem_iff.mpr member, own⟩
  · obtain ⟨low_open, open_high, low_close, close_high⟩ := (sums bar member).valid fun b among =>
      valid b (List.mem_of_mem_filter ((perm_inTimeOrder _).mem_iff.mp among))
    refine ⟨symbol_of_mem_run (fun b among => one b (perm.mem_iff.mp among)) member, ?_,
      ⟨low_open, open_high, low_close, close_high⟩⟩
    obtain ⟨start, candle, -, rfl⟩ := mem_run_iff.mp member
    rfl
  · rw [Scheme.run_eq_buckets, List.map_map, ← (perm.map Bar.volume).sum_eq]
    exact Scheme.sum_buckets _ Bar.volume Candle.v (fun _ => rfl) (fun _ _ => rfl) _

/-- A bar of the second quarter before three of the first, two of them of one minute. -/
def shuffled : List Bar :=
  [(16, 104), (0, 100), (14, 102), (0, 101)].map fun (minute, price) =>
    { symbol := "BTCUSDT", timeframe := "1m", ts := minute * microsPerMinute, «open» := price, high := price + 2
      low := price - 3, close := price + 1, volume := 1 }

theorem aggregate_groups_shuffled :
    ∃ out, BarAggregator.aggregate { gapFill := false } shuffled .m15 = .ok out ∧
      (out.Pairwise fun a b => a.ts < b.ts) ∧
      (∀ start, (∃ bar ∈ out, bar.ts = start) ↔ ∃ bar ∈ shuffled, floorToBucket bar.ts 15 = start) ∧
      (∀ bar ∈ out, SumsUp (inTimeOrder (shuffled.filter fun b => floorToBucket b.ts 15 = bar.ts))
        bar.open bar.high bar.low bar.close bar.volume) ∧
      (∀ bar ∈ out, bar.symbol = "BTCUSDT" ∧ bar.timeframe = "15m" ∧ ValidBar bar) ∧
      (out.map Bar.volume).sum = (shuffled.map Bar.volume).sum :=
  aggregate_groups .m15 (by decide) (by decide) (by decide +kernel)

/-- `current_start` and `v` of `_aggregate_stream`, with volumes of any numbers. -/
def volumes {K : Type} [Add K] (bucketMinutes : ℤ) : Scheme (DateTime × K) DateTime K where
  key bar := floorToBucket bar.1 bucketMinutes
  first bar := bar.2
  add v bar := v + bar.2
  emit start v := (start, v)

/-- The volumes of the returned bars are those of this loop. -/
theorem aggregate_volumes (target : TargetTimeframe) (minutes : ∀ bar ∈ bars, bar.timeframe = "1m")
    (one : ∀ bar ∈ bars, bar.symbol = symbol) :
    ∃ out, BarAggregator.aggregate { gapFill := false } bars target = .ok out ∧
      out.map (fun bar => (bar.ts, bar.volume)) =
        (volumes target.bucketMinutes).run ((inTimeOrder bars).map fun bar => (bar.ts, bar.volume)) := by
  refine ⟨_, BarAggregator.aggregate_ok _ minutes one target, ?_⟩
  rw [show BarAggregator.stream { gapFill := false } bars = inTimeOrder bars from rfl]
  have buckets := (candles target.bucketMinutes target).buckets_map (volumes target.bucketMinutes)
    (f := fun bar : Bar => (bar.ts, bar.volume)) (g := Candle.v) (fun _ => rfl) (fun _ => rfl) (fun _ _ => rfl) (inTimeOrder bars)
  rw [Scheme.run_eq_buckets, Scheme.run_eq_buckets, buckets, List.map_map, List.map_map]
  rfl

/-- Three bars on doubles, two of them of one quarter: their volumes and those of the quarters have different totals. -/
theorem volume_changed_on_doubles :
    let bars : List (DateTime × Float) := [(0, 0.1), (15 * microsPerMinute, 0.2), (16 * microsPerMinute, 0.5)]
    let out := (volumes 15).run bars
    out.length = 2 ∧ (out.map Prod.snd).foldl (· + ·) 0 < (bars.map Prod.snd).foldl (· + ·) 0 := by
  decide +kernel

end Aggregate

end CryptoQuant.Aggregation
