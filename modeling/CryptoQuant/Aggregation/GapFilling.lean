import CryptoQuant.Aggregation.Groups
import CryptoQuant.Lib.Filling
import Mathlib.Data.List.Range

/-!
# Gap filling

The filled stream never jumps two minutes, whatever the seconds of the bars, so it
visits every bucket between the first and the last. The flat bars carry the close of the
bar before them: they leave the close and the volume of its bucket alone, and a bucket
with no other bars repeats that close.
-/

namespace CryptoQuant.Aggregation
set_option autoImplicit false

open Buckets

/-! ## The stream -/

/-- The second time stamp comes less than two minutes after the first. -/
def Soon (ts ts' : DateTime) : Prop := ts ≤ ts' ∧ ts' < ts + 2 * microsPerMinute

section Stream
variable {prev bar : Bar} {bars : List Bar}

/-- `missing`, the number of flat bars. -/
def missing (prev bar : Bar) : ℕ := ((bar.ts - prev.ts) / microsPerMinute - 1).toNat

/-- The flat bar that many minutes after a bar. -/
def flatBar (prev : Bar) (minutes : ℤ) : Bar where
  symbol := prev.symbol
  timeframe := "1m"
  ts := prev.ts + minutes * microsPerMinute
  «open» := prev.close
  high := prev.close
  low := prev.close
  close := prev.close

theorem missingBars_eq (prev bar : Bar) :
    missingBars prev bar = (List.range (missing prev bar)).map fun i : ℕ => flatBar prev (i + 1) := by
  -- The definition casts the list of the minutes before it maps it.
  show ((List.range (missing prev bar)).flatMap fun i : ℕ => [(i : ℤ)]).map (fun i : ℤ => flatBar prev (i + 1)) = _
  rw [← List.map_eq_flatMap, List.map_map]
  rfl

theorem ts_missingBars (prev bar : Bar) : (prev :: missingBars prev bar).map Bar.ts =
    (List.range (missing prev bar + 1)).map fun i : ℕ => prev.ts + (i : ℤ) * microsPerMinute := by
  rw [List.range_succ_eq_map, List.map_cons, List.map_cons, List.map_map, missingBars_eq, List.map_map]
  simp [Function.comp_def, flatBar]

/-- The last flat bar, or the bar before, comes soon before the next. -/
theorem soon_missing (le : prev.ts ≤ bar.ts) : Soon (prev.ts + missing prev bar * microsPerMinute) bar.ts := by
  have distance : ∀ before after : ℤ, before ≤ after →
      before + ((after - before) / (60 * 1000000) - 1).toNat * (60 * 1000000) ≤ after ∧
        after < before + ((after - before) / (60 * 1000000) - 1).toNat * (60 * 1000000) + 2 * (60 * 1000000) := by
    intro before after le
    omega
  exact distance prev.ts bar.ts le

theorem chain_missingBars (prev bar : Bar) : (prev :: missingBars prev bar).IsChain fun a b => Soon a.ts b.ts := by
  rw [← List.isChain_map Bar.ts, ts_missingBars, List.isChain_map, List.isChain_range_succ]
  intro i _
  have next : ∀ ts minutes : ℤ, ts + minutes * (60 * 1000000) ≤ ts + (minutes + 1) * (60 * 1000000) ∧
      ts + (minutes + 1) * (60 * 1000000) < ts + minutes * (60 * 1000000) + 2 * (60 * 1000000) := by
    intro ts minutes
    omega
  simpa [Soon, microsPerMinute, microsPerSecond] using next prev.ts i

/-- The next bar comes soon after the flat bars before it. -/
theorem soon_last_missingBars (le : prev.ts ≤ bar.ts) {last : Bar}
    (final : (prev :: missingBars prev bar).getLast? = some last) : Soon last.ts bar.ts := by
  have times := congrArg List.getLast? (ts_missingBars prev bar)
  rw [List.getLast?_map, final, List.getLast?_map, List.getLast?_range] at times
  simp at times
  rw [times]
  exact soon_missing le

/-- **The filled stream never jumps two minutes.** -/
theorem chain_fillGaps (sorted : (prev :: bars).Pairwise fun a b => a.ts ≤ b.ts) :
    (prev :: fillGaps (some prev) bars).IsChain fun a b => Soon a.ts b.ts := by
  induction bars generalizing prev with
  | nil => exact List.isChain_singleton prev
  | cons bar rest ih =>
    obtain ⟨least, later⟩ := List.pairwise_cons.mp sorted
    show (prev :: missingBars prev bar ++ bar :: fillGaps (some bar) rest).IsChain _
    rw [List.isChain_append]
    refine ⟨chain_missingBars prev bar, ih later, ?_⟩
    intro last final next first
    cases first
    exact soon_last_missingBars (least bar List.mem_cons_self) final

/-- Filling keeps the last bar. -/
theorem getLast?_fillGaps (prev : Bar) (bars : List Bar) :
    (prev :: fillGaps (some prev) bars).getLast? = (prev :: bars).getLast? := by
  induction bars generalizing prev with
  | nil => rfl
  | cons bar rest ih =>
    show (prev :: missingBars prev bar ++ bar :: fillGaps (some bar) rest).getLast? = _
    rw [List.getLast?_append, ih, List.getLast?_cons_cons]
    cases last : (bar :: rest).getLast? with
    | none => simp at last
    | some b => rfl

end Stream

/-! ## No missing bucket -/

section Steps
variable {target : TargetTimeframe} {symbol : String} {bars : List Bar}

/-- A time stamp that comes soon is of the same bucket or of the next. -/
theorem start_soon {ts ts' : DateTime} (soon : Soon ts ts') :
    target.start ts' = target.start ts ∨ target.start ts' = target.start ts + target.width := by
  have steps : ∀ before after bucket : ℤ, bucket = 15 ∨ bucket = 60 → before ≤ after →
      after < before + 2 * (60 * 1000000) →
        bucket * (60 * 1000000) * (after / (bucket * (60 * 1000000))) =
            bucket * (60 * 1000000) * (before / (bucket * (60 * 1000000))) ∨
          bucket * (60 * 1000000) * (after / (bucket * (60 * 1000000))) =
            bucket * (60 * 1000000) * (before / (bucket * (60 * 1000000))) + bucket * (60 * 1000000) := by
    rintro before after bucket (rfl | rfl) <;> omega
  rw [target.start_eq, target.start_eq]
  apply steps ts ts' target.bucketMinutes _ soon.1 soon.2
  cases target <;> simp [TargetTimeframe.bucketMinutes]

variable (target) in
/-- The buckets of a stream that never jumps follow each other. -/
theorem chain_run {stream : List Bar} (near : stream.IsChain fun a b => Soon a.ts b.ts) :
    (((candles target.bucketMinutes target).run stream).IsChain fun a b => b.ts = a.ts + target.width) ∧
      ((candles target.bucketMinutes target).run stream).head?.map Bar.ts = (stream.head?.map fun b => target.start b.ts) ∧
      ((candles target.bucketMinutes target).run stream).getLast?.map Bar.ts =
        stream.getLast?.map fun b => target.start b.ts := by
  have steps : stream.IsChain ((candles target.bucketMinutes target).Steps fun k k' => k' = k + target.width) :=
    near.imp fun a b soon => start_soon soon
  obtain ⟨chain, head, last⟩ := (candles target.bucketMinutes target).buckets_chain steps
  rw [← ts_run] at chain head last
  refine ⟨?_, ?_, ?_⟩
  · rwa [List.isChain_map] at chain
  · rwa [List.head?_map] at head
  · rwa [List.getLast?_map] at last

/-- **Gap filling leaves no missing bucket.** For bars of one symbol at any time stamps the
returned bars follow each other at the length of a bucket, from the bucket of the
earliest input bar to that of the latest. -/
theorem aggregate_leaves_no_gap (target : TargetTimeframe) (some_ : bars ≠ [])
    (minutes : ∀ bar ∈ bars, bar.timeframe = "1m") (one : ∀ bar ∈ bars, bar.symbol = symbol) :
    ∃ out, BarAggregator.aggregate { gapFill := true } bars target = .ok out ∧
      (out.IsChain fun a b => b.ts = a.ts + target.bucketMinutes * microsPerMinute) ∧
      (∃ earliest ∈ bars, (∀ bar ∈ bars, earliest.ts ≤ bar.ts) ∧
        out.head?.map Bar.ts = some (floorToBucket earliest.ts target.bucketMinutes)) ∧
      ∃ latest ∈ bars, (∀ bar ∈ bars, bar.ts ≤ latest.ts) ∧
        out.getLast?.map Bar.ts = some (floorToBucket latest.ts target.bucketMinutes) := by
  refine ⟨_, BarAggregator.aggregate_ok _ minutes one target, ?_⟩
  rw [show BarAggregator.stream { gapFill := true } bars = fillGaps none (inTimeOrder bars) from rfl]
  have perm := perm_inTimeOrder bars
  have sorted := pairwise_inTimeOrder bars
  cases order : inTimeOrder bars with
  | nil =>
    rw [order] at perm
    exact absurd perm.nil_eq.symm some_
  | cons first rest =>
    rw [order] at perm sorted
    obtain ⟨chain, head, last⟩ := chain_run target (chain_fillGaps sorted)
    refine ⟨chain, ⟨first, perm.mem_iff.mp List.mem_cons_self, fun bar member => ?_, head⟩, ?_⟩
    · rcases List.mem_cons.mp (perm.mem_iff.mpr member) with rfl | later
      · exact le_rfl
      · exact (List.pairwise_cons.mp sorted).1 bar later
    · have final := List.getLast?_eq_some_getLast (List.cons_ne_nil first rest)
      refine ⟨_, perm.mem_iff.mp (List.getLast_mem (List.cons_ne_nil first rest)), fun bar member => ?_, ?_⟩
      · exact sorted.rel_getLast_of_rel_getLast_getLast (perm.mem_iff.mpr member) le_rfl
      · rw [getLast?_fillGaps, final] at last
        exact last

/-- Three minutes with odd seconds, two buckets between the last two. -/
def gappy : List Bar :=
  [(3000500000, 104), (899999999, 100), (1020000001, 102)].map fun (ts, price) =>
    { symbol := "BTCUSDT", timeframe := "1m", ts, «open» := price, high := price + 2, low := price - 3
      close := price + 1, volume := 1 }

theorem aggregate_leaves_no_gap_gappy :
    ∃ out, BarAggregator.aggregate { gapFill := true } gappy .m15 = .ok out ∧
      (out.IsChain fun a b => b.ts = a.ts + 15 * microsPerMinute) ∧
      (∃ earliest ∈ gappy, (∀ bar ∈ gappy, earliest.ts ≤ bar.ts) ∧
        out.head?.map Bar.ts = some (floorToBucket earliest.ts 15)) ∧
      ∃ latest ∈ gappy, (∀ bar ∈ gappy, bar.ts ≤ latest.ts) ∧
        out.getLast?.map Bar.ts = some (floorToBucket latest.ts 15) :=
  aggregate_leaves_no_gap .m15 (by decide) (by decide) (show ∀ bar ∈ gappy, bar.symbol = "BTCUSDT" by decide)

end Steps

/-! ## Real data -/

/-- A flat bar without volume. -/
structure Filler (px : ℚ) (bar : Bar) : Prop where
  «open» : bar.open = px
  high : bar.high = px
  low : bar.low = px
  close : bar.close = px
  volume : bar.volume = 0

/-- A candle of flat bars only. -/
structure Flat (px : ℚ) (candle : Candle) : Prop where
  o : candle.o = px
  h : candle.h = px
  low : candle.low = px
  c : candle.c = px
  v : candle.v = 0

/-- The second candle has the close and the volume of the first, and at least its range. -/
structure Covers (candle candle' : Candle) : Prop where
  c : candle'.c = candle.c
  v : candle'.v = candle.v
  h : candle.h ≤ candle'.h
  low : candle'.low ≤ candle.low

section RealData
variable {target : TargetTimeframe} {symbol : String} {bars : List Bar}

/-- What a flat bar does to a candle, and a bar to a flat one. -/
theorem candles_fills :
    Fills (candles target.bucketMinutes target) Bar.close Candle.c Filler ValidBar Covers Flat where
  level_first _ := rfl
  level_add _ _ := rfl
  leaves_filler _ _ filler := filler.close
  covers_first _ := ⟨rfl, rfl, le_rfl, le_rfl⟩
  covers_add candle candle' bar covers := by
    obtain ⟨-, v, h, low⟩ := covers
    refine ⟨rfl, ?_, max_le_max_right bar.high h, min_le_min_right bar.low low⟩
    show candle'.v + bar.volume = candle.v + bar.volume
    rw [v]
  covers_filler candle candle' bar covers filler := by
    obtain ⟨c, v, h, low⟩ := covers
    refine ⟨filler.close.trans c, ?_, h.trans (le_max_left _ _), (min_le_left _ _).trans low⟩
    show candle'.v + bar.volume = candle.v
    rw [filler.volume, add_zero, v]
  covers_flat px candle bar valid flat := by
    refine ⟨rfl, ?_, max_le ?_ (le_max_right _ _), le_min ?_ (min_le_right _ _)⟩
    · show candle.v + bar.volume = bar.volume
      rw [flat.v, zero_add]
    · exact valid.open_high.trans (le_max_right _ _)
    · exact (min_le_right _ _).trans valid.low_open
  flat_first px bar filler := by
    obtain ⟨o, h, low, c, v⟩ := filler
    constructor <;> simp [candles, Candle.first, o, h, low, c, v]
  flat_add px candle bar flat filler := by
    obtain ⟨o, h, low, c, v⟩ := flat
    constructor <;>
      simp [candles, Candle.add, o, h, low, v, filler.high, filler.low, filler.close, filler.volume]

/-- The filled stream is the bars with flat ones after them, which stay in the bucket when
the next bar does. -/
theorem stuffed_fillGaps {prev : Bar} (sorted : (prev :: bars).Pairwise fun a b => a.ts ≤ b.ts) :
    Stuffed (candles target.bucketMinutes target) Bar.close Filler prev bars (fillGaps (some prev) bars) := by
  induction bars generalizing prev with
  | nil => exact .nil prev
  | cons bar rest ih =>
    obtain ⟨least, later⟩ := List.pairwise_cons.mp sorted
    have le := least bar List.mem_cons_self
    refine .cons (fun f member => ?_) (fun same f member => ?_) (ih later)
    · rw [missingBars_eq] at member
      obtain ⟨i, -, rfl⟩ := List.mem_map.mp member
      exact ⟨rfl, rfl, rfl, rfl, rfl⟩
    · -- The flat bar lies between the two bars, so its bucket does.
      have chain := (chain_missingBars prev bar).imp fun a b soon => soon.1
      have after : prev.ts ≤ f.ts := (List.pairwise_cons.mp chain.pairwise).1 f member
      have final := List.getLast?_eq_some_getLast (List.cons_ne_nil prev (missingBars prev bar))
      have before : f.ts ≤ bar.ts :=
        (chain.pairwise.rel_getLast_of_rel_getLast_getLast (List.mem_cons_of_mem prev member) le_rfl).trans
          (soon_last_missingBars le final).1
      apply le_antisymm _ (target.start_mono after)
      exact (target.start_mono before).trans_eq same

/-- **Gap filling does not distort.** Every bar without gap filling comes back with it: the
same bucket, close and volume, and at least the range. Every other bar with gap filling
has no volume and repeats the close of the bar before it. -/
theorem gap_filling_keeps (target : TargetTimeframe) (minutes : ∀ bar ∈ bars, bar.timeframe = "1m")
    (one : ∀ bar ∈ bars, bar.symbol = symbol) (valid : ∀ bar ∈ bars, ValidBar bar) :
    ∃ filled plain, BarAggregator.aggregate { gapFill := true } bars target = .ok filled ∧
      BarAggregator.aggregate { gapFill := false } bars target = .ok plain ∧
      (filled.Pairwise fun a b => a.ts < b.ts) ∧
      (∀ bar ∈ plain, ∃ bar' ∈ filled, bar'.ts = bar.ts ∧ bar'.close = bar.close ∧ bar'.volume = bar.volume ∧
        bar.high ≤ bar'.high ∧ bar'.low ≤ bar.low) ∧
      ∀ before bar after, filled = before ++ bar :: after → (∀ b ∈ plain, b.ts ≠ bar.ts) →
        ∃ prev, before.getLast? = some prev ∧ bar.volume = 0 ∧ bar.open = prev.close ∧ bar.high = prev.close ∧
          bar.low = prev.close ∧ bar.close = prev.close := by
  refine ⟨_, _, BarAggregator.aggregate_ok _ minutes one target, BarAggregator.aggregate_ok _ minutes one target, ?_⟩
  rw [show BarAggregator.stream { gapFill := true } bars = fillGaps none (inTimeOrder bars) from rfl,
    show BarAggregator.stream { gapFill := false } bars = inTimeOrder bars from rfl]
  have sorted := pairwise_inTimeOrder bars
  have valid' : ∀ bar ∈ inTimeOrder bars, ValidBar bar :=
    fun bar member => valid bar ((perm_inTimeOrder bars).mem_iff.mp member)
  cases order : inTimeOrder bars with
  | nil => exact ⟨List.Pairwise.nil, by simp [Scheme.run, Scheme.finish], by simp [Scheme.run, Scheme.finish, fillGaps]⟩
  | cons first rest =>
    rw [order, List.forall_mem_cons] at valid'
    rw [order] at sorted
    have increasing : ((candles target.bucketMinutes target).run (first :: fillGaps (some first) rest)).Pairwise
        fun a b => a.ts < b.ts := by
      apply increasing_run
      exact ((chain_fillGaps sorted).imp fun a b soon => soon.1).pairwise
    have filled : ∀ px, Filled Candle.c Covers Flat px ((candles target.bucketMinutes target).buckets (first :: rest))
        ((candles target.bucketMinutes target).buckets (first :: fillGaps (some first) rest)) := fun px =>
      (stuffed_fillGaps sorted).after candles_fills valid'.2 _ _ px (candles_fills.covers_first first) rfl
    refine ⟨increasing, fun bar member => ?_, fun before bar after split other => ?_⟩
    · obtain ⟨start, candle, bucket, rfl⟩ := mem_run_iff.mp member
      obtain ⟨candle', bucket', covers⟩ := (filled 0).covers_of_mem bucket
      exact ⟨candle'.bar target start "", mem_run_iff.mpr ⟨start, candle', bucket', rfl⟩, rfl, covers.c, covers.v,
        covers.h, covers.low⟩
    · rw [show fillGaps none (first :: rest) = first :: fillGaps (some first) rest from rfl, Scheme.run_eq_buckets]
        at split
      obtain ⟨closed, later, pairs, rfl, tail⟩ := List.map_eq_append_iff.mp split
      obtain ⟨⟨start, candle⟩, later', rfl, rfl, rfl⟩ := List.map_eq_cons_iff.mp tail
      have alone : start ∉ ((candles target.bucketMinutes target).buckets (first :: rest)).map Prod.fst := by
        rw [← ts_run, List.mem_map]
        rintro ⟨b, member, own⟩
        exact other b member own
      have flat := (filled 0).flat_of_not_mem (fun _ _ flat => flat.c) pairs alone
      cases last : closed.getLast? with
      | none =>
        -- The first bucket is that of the first bar, with and without gap filling.
        rw [List.getLast?_eq_none_iff] at last
        rw [last] at pairs
        have head := Scheme.head?_bucketsFrom (candles target.bucketMinutes target) (target.start first.ts)
          (Candle.first first) (fillGaps (some first) rest)
        have same := congrArg (fun buckets => (buckets.map Prod.fst).head?) pairs
        cases same.symm.trans head
        exact absurd (Scheme.key_mem_bucketsFrom _ _ _ rest).1 alone
      | some bucket =>
        rw [last] at flat
        refine ⟨(candles target.bucketMinutes target).emit bucket.1 bucket.2, ?_, flat.v, flat.o, flat.h, flat.low, flat.c⟩
        rw [List.getLast?_map, last]
        rfl

theorem gap_filling_keeps_gappy :
    ∃ filled plain, BarAggregator.aggregate { gapFill := true } gappy .m15 = .ok filled ∧
      BarAggregator.aggregate { gapFill := false } gappy .m15 = .ok plain ∧
      (filled.Pairwise fun a b => a.ts < b.ts) ∧
      (∀ bar ∈ plain, ∃ bar' ∈ filled, bar'.ts = bar.ts ∧ bar'.close = bar.close ∧ bar'.volume = bar.volume ∧
        bar.high ≤ bar'.high ∧ bar'.low ≤ bar.low) ∧
      ∀ before bar after, filled = before ++ bar :: after → (∀ b ∈ plain, b.ts ≠ bar.ts) →
        ∃ prev, before.getLast? = some prev ∧ bar.volume = 0 ∧ bar.open = prev.close ∧ bar.high = prev.close ∧
          bar.low = prev.close ∧ bar.close = prev.close :=
  gap_filling_keeps .m15 (by decide) (show ∀ bar ∈ gappy, bar.symbol = "BTCUSDT" by decide) (by decide +kernel)

end RealData

end CryptoQuant.Aggregation
