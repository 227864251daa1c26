import CryptoQuant.Events.Benchmark
import CryptoQuant.Events.GovernanceReport
import CryptoQuant.Lib.Interpolation
import Mathlib.Data.List.GetD

/-!
# What a benchmark reports

The percentiles are those of linear interpolation between the sorted latencies. The thread
of the benchmark is the one publisher of its bus, as that of a replay is; what it
reports are the events of its second loop, while the latencies may be of events of the
warm-up as well, if that was not flushed in time.
-/

namespace CryptoQuant.Benchmark
set_option autoImplicit false

open LowLatency

/-! ## Percentiles -/

/-- The values, the last of them from then on. -/
def places (values : List ℚ) (i : ℕ) : ℚ := itemOf values (min i (values.length - 1))

section Percentile
variable {values : List ℚ}

/-- A percentile is a value between the places of the list. -/
theorem percentile_eq (some_ : values ≠ []) (q : ℚ) :
    percentile values q = Interpolation.between (places values) ((values.length - 1 : ℕ) * max 0 (min 1 q)) := by
  rw [percentile, if_neg some_]
  split
  · rename_i low
    have first : ((values.length - 1 : ℕ) : ℚ) * max 0 (min 1 q) = (0 : ℕ) := by
      rw [max_eq_left ((min_le_right 1 q).trans low), mul_zero, Nat.cast_zero]
    rw [first, Interpolation.between_natCast, places, Nat.zero_min]
  rename_i low
  split
  · rename_i high
    rw [min_eq_left high, max_eq_right zero_le_one, mul_one, Interpolation.between_natCast, places, min_self]
  rename_i high
  rw [min_eq_right (le_of_not_ge high), max_eq_right (le_of_not_ge low)]
  have nonneg : 0 ≤ ((values.length - 1 : ℕ) : ℚ) * q := mul_nonneg (Nat.cast_nonneg _) (le_of_not_ge low)
  have within : ((values.length - 1 : ℕ) : ℚ) * q ≤ (values.length - 1 : ℕ) :=
    mul_le_of_le_one_right (Nat.cast_nonneg _) (le_of_not_ge high)
  have place : ⌊((values.length - 1 : ℕ) : ℚ) * q⌋₊ ≤ values.length - 1 := by
    exact_mod_cast (Nat.floor_le nonneg).trans within
  dsimp only
  split
  · rename_i same
    rw [Interpolation.between_of_eq, places, min_eq_left place]
    rw [places, places, ← same, min_eq_left place]
  · rw [Interpolation.between, places, places, min_eq_left place]

theorem itemOf_eq {i : ℕ} (inside : i < values.length) : itemOf values i = values[i] := List.getD_eq_getElem _ _ inside

theorem places_mono (sorted : values.Pairwise (· ≤ ·)) : Monotone (places values) := by
  intro i j le
  by_cases none_ : values = []
  · rw [none_]
    rfl
  have size := List.length_pos_of_ne_nil none_
  have before : min i (values.length - 1) ≤ min j (values.length - 1) := min_le_min_right _ le
  rw [places, places, itemOf_eq (by omega), itemOf_eq (by omega)]
  rcases before.eq_or_lt with same | further
  · simp only [same, le_refl]
  · exact List.pairwise_iff_getElem.mp sorted _ _ _ _ further

/-- A higher percentile is not lower. -/
theorem percentile_mono (sorted : values.Pairwise (· ≤ ·)) {q q' : ℚ} (le : q ≤ q') :
    percentile values q ≤ percentile values q' := by
  by_cases none_ : values = []
  · rw [percentile, percentile, if_pos none_, if_pos none_]
  · rw [percentile_eq none_, percentile_eq none_]
    refine Interpolation.between_mono (places_mono sorted) (mul_nonneg (Nat.cast_nonneg _) (le_max_left _ _)) ?_
    exact mul_le_mul_of_nonneg_left (max_le_max_left 0 (min_le_min_left 1 le)) (Nat.cast_nonneg _)

/-- Every percentile is between the first and the last. -/
theorem percentile_within (some_ : values ≠ []) (sorted : values.Pairwise (· ≤ ·)) (q : ℚ) :
    percentile values 0 ≤ percentile values q ∧ percentile values q ≤ percentile values 1 := by
  have clamped : percentile values q = percentile values (max 0 (min 1 q)) := by
    have within : min 1 (max 0 (min 1 q)) = max 0 (min 1 q) := min_eq_right (max_le zero_le_one (min_le_left 1 q))
    rw [percentile_eq some_, percentile_eq some_, within, max_eq_right (le_max_left 0 (min 1 q))]
  rw [clamped]
  exact ⟨percentile_mono sorted (le_max_left _ _), percentile_mono sorted (max_le zero_le_one (min_le_left _ _))⟩

/-- At the rank of a value the percentile is the value. -/
theorem percentile_rank {i : ℕ} (inside : i < values.length) (many : 1 < values.length) :
    percentile values (i / (values.length - 1 : ℕ)) = values[i] := by
  have some_ : values ≠ [] := List.ne_nil_of_length_pos (by omega)
  have size : (0 : ℚ) < (values.length - 1 : ℕ) := by exact_mod_cast Nat.sub_pos_of_lt many
  have high : (i : ℚ) / (values.length - 1 : ℕ) ≤ 1 := by
    rw [div_le_one size]
    exact_mod_cast Nat.le_sub_one_of_lt inside
  rw [percentile_eq some_, min_eq_right high, max_eq_right (div_nonneg (Nat.cast_nonneg _) size.le), mul_div_cancel₀ _ size.ne',
    Interpolation.between_natCast, places, min_eq_left (by omega), itemOf_eq inside]

/-- Percentiles in another unit, from another origin. -/
theorem percentile_affine (some_ : values ≠ []) (a b q : ℚ) :
    percentile (values.map fun x => a * x + b) q = a * percentile values q + b := by
  have moved : places (values.map fun x => a * x + b) = fun i => a * places values i + b := by
    funext i
    have size := List.length_pos_of_ne_nil some_
    have inside : min i (values.length - 1) < values.length := by omega
    rw [places, places, List.length_map, itemOf_eq (by rwa [List.length_map]), itemOf_eq inside, List.getElem_map]
  rw [percentile_eq (by simpa using some_), percentile_eq some_, moved, Interpolation.between_affine, List.length_map]

/-- The first and the last of sorted values. -/
theorem percentile_ends (some_ : values ≠ []) (sorted : values.Pairwise (· ≤ ·)) :
    IsLeast {x | x ∈ values} (percentile values 0) ∧ IsGreatest {x | x ∈ values} (percentile values 1) := by
  have size := List.length_pos_of_ne_nil some_
  have first : percentile values 0 = places values 0 := by rw [percentile, if_neg some_, if_pos le_rfl, places, Nat.zero_min]
  have last : percentile values 1 = places values (values.length - 1) := by
    rw [percentile, if_neg some_, if_neg (by norm_num), if_pos le_rfl, places, min_self]
  have item {i : ℕ} (inside : i < values.length) : places values i = values[i] := by
    rw [places, min_eq_left (by omega), itemOf_eq inside]
  rw [first, last]
  constructor
  · constructor
    · rw [item size]
      exact List.getElem_mem size
    · intro x member
      obtain ⟨i, inside, rfl⟩ := List.mem_iff_getElem.mp member
      rw [← item inside]
      exact places_mono sorted (Nat.zero_le i)
  · constructor
    · rw [item (by omega)]
      exact List.getElem_mem _
    · intro x member
      obtain ⟨i, inside, rfl⟩ := List.mem_iff_getElem.mp member
      rw [← item inside]
      exact places_mono sorted (by omega)

end Percentile

/-- **The percentiles of a result** are in order, from the least to the greatest latency, each
latency at its rank; they depend on no order of the latencies, and in another unit,
from another origin, they are the same percentiles. -/
theorem latency_percentiles (measured : Measured) (latenciesUs : List ℚ) :
    let result := measured.result latenciesUs
    let samples := latenciesUs.insertionSort (· ≤ ·)
    (result.p50LatencyUs ≤ result.p95LatencyUs ∧ result.p95LatencyUs ≤ result.p99LatencyUs ∧
      result.p99LatencyUs ≤ result.maxLatencyUs) ∧
    (latenciesUs ≠ [] → IsGreatest {x | x ∈ latenciesUs} result.maxLatencyUs ∧
      ∀ q, (∀ least, IsLeast {x | x ∈ latenciesUs} least → least ≤ percentile samples q) ∧
        percentile samples q ≤ result.maxLatencyUs ∧
        ∀ a b, 0 < a → percentile ((latenciesUs.map fun x => a * x + b).insertionSort (· ≤ ·)) q = a * percentile samples q + b) ∧
    (∀ i, 1 < latenciesUs.length → (inside : i < samples.length) →
      percentile samples (i / (latenciesUs.length - 1 : ℕ)) = samples[i]) ∧
    ∀ latenciesUs', latenciesUs'.Perm latenciesUs → measured.result latenciesUs' = result := by
  intro result samples
  have sorted : samples.Pairwise (· ≤ ·) := List.pairwise_insertionSort _ _
  have perm : samples.Perm latenciesUs := List.perm_insertionSort _ _
  have among : {x | x ∈ samples} = {x | x ∈ latenciesUs} := Set.ext fun x => perm.mem_iff
  refine ⟨⟨?_, ?_, ?_⟩, fun some_ => ?_, fun i many inside => ?_, fun latenciesUs' perm' => ?_⟩
  · exact percentile_mono sorted (by norm_num)
  · exact percentile_mono sorted (by norm_num)
  · exact percentile_mono sorted (by norm_num)
  · have some' : samples ≠ [] := fun none_ => some_ (List.nil_perm.mp (none_ ▸ perm))
    obtain ⟨least, greatest⟩ := percentile_ends some' sorted
    rw [among] at least greatest
    refine ⟨greatest, fun q => ⟨fun first isLeast => ?_, (percentile_within some' sorted q).2, fun a b positive => ?_⟩⟩
    · rw [isLeast.unique least]
      exact (percentile_within some' sorted q).1
    · rw [← percentile_affine some' a b q]
      congr 1
      refine (List.map_insertionSort _ _ _ latenciesUs fun x _ y _ => ?_).symm
      rw [add_le_add_iff_right, mul_le_mul_iff_right₀ positive]
  · have same : samples.length = latenciesUs.length := perm.length_eq
    rw [← same] at many ⊢
    exact percentile_rank inside many
  · have same : latenciesUs'.insertionSort (· ≤ ·) = latenciesUs.insertionSort (· ≤ ·) := by
      refine List.Perm.eq_of_pairwise (fun a b _ _ => le_antisymm) (List.pairwise_insertionSort _ _) sorted ?_
      exact ((List.perm_insertionSort _ _).trans perm').trans perm.symm
    show measured.result latenciesUs' = measured.result latenciesUs
    rw [Measured.result, Measured.result, same]

/-! ## The run -/

/-- The thread is in a call of `publish`. -/
def Stage.publishes : Stage → Bool
  | .warming _ | .publishing .. => true
  | _ => false

/-- The events that no call of `publish` has taken up. -/
def Stage.rest (measured : List ℤ) : Stage → List ℤ
  | .warmup rest | .warming rest => rest ++ measured
  | .flushWarmup | .clear | .before => measured
  | .looping _ rest | .publishing _ rest => rest
  | _ => []

/-- All events of a benchmark. -/
def Setup.events (setup : Setup) : List ℤ := setup.warmup ++ setup.measured

variable {ω : Type}

/-- The thread of the benchmark, seen as the one of a replay of all events. -/
def Setup.replay (setup : Setup) (rest : List ℤ) (publishes : Bool) : Governance.Main ℤ :=
  if publishes then .publishing (setup.events.length - rest.length) rest
  else .looping (setup.events.length - rest.length) rest

/-- What the loops have given to the bus. -/
def Feeds (setup : Setup) (bus : Bus Unit (Fin setup.bus.workerCount) ℤ) (rest : List ℤ) (publishes : Bool) : Prop :=
  Governance.Fed setup.bus setup.events bus (setup.replay rest publishes)

section Feeds
variable {setup : Setup} {bus : Bus Unit (Fin setup.bus.workerCount) ℤ} {rest : List ℤ}

theorem Feeds.publish {event : ℤ} (feeds : Feeds setup bus (event :: rest) false) :
    Feeds setup (bus.step setup.bus (.publishMany () [event])) rest true := by
  have fed : Governance.Fed setup.bus setup.events bus (.looping _ (event :: rest)) := feeds
  have passed : setup.events.length - (event :: rest).length + (event :: rest).length = setup.events.length := fed.passed
  have next : setup.events.length - (event :: rest).length + 1 = setup.events.length - rest.length := by
    rw [List.length_cons] at passed ⊢
    omega
  have published := fed.publishes
  rw [next] at published
  exact published

theorem Feeds.goesOn (feeds : Feeds setup bus rest true) (now : ℤ) :
    Feeds setup (bus.step setup.bus (.publisher () now)) rest true :=
  Governance.Fed.published feeds now

theorem Feeds.returns (feeds : Feeds setup bus rest true) (idle : bus.publisher () = .idle) : Feeds setup bus rest false :=
  ⟨feeds.reached, fun _ => idle, feeds.begun, feeds.passed, feeds.order, feeds.all⟩

theorem Feeds.others {publishes : Bool} (feeds : Feeds setup bus rest publishes)
    (action : Action Unit (Fin setup.bus.workerCount) ℤ)
    (publisher : (bus.step setup.bus action).publisher = bus.publisher)
    (same : (bus.step setup.bus action).shared.accepted = bus.shared.accepted ∧
      (bus.step setup.bus action).shared.begun = bus.shared.begun) :
    Feeds setup (bus.step setup.bus action) rest publishes :=
  Governance.Fed.others feeds action publisher same

/-- Between two publications the events that the loops have passed are counted. -/
theorem Feeds.settled (feeds : Feeds setup bus rest false) :
    bus.shared.published + bus.shared.dropped = setup.events.length - rest.length ∧
      bus.shared.published = bus.shared.accepted.length ∧
      (bus.shared.stats setup.bus).Coherent setup.bus 0 ∧ Accounts setup.bus bus := by
  have fed : Governance.Fed setup.bus setup.events bus (.looping _ rest) := feeds
  have idle := fed.idle id
  obtain ⟨settled, published⟩ := fed.settled idle
  obtain ⟨actions, reached⟩ := fed.reached
  have accounts : Accounts setup.bus bus := reached ▸ accounts_after actions
  have gauged : Gauged setup.bus bus := reached ▸ gauged_after actions
  refine ⟨settled, published, coherent_of_accounts accounts gauged ?_, accounts⟩
  rw [Fintype.sum_unique]
  exact (congrArg Publisher.uncounted idle).le

end Feeds

/-- The first statistics, among those that may be `shown` to the thread, when the bus shows those given. -/
structure Kept (setup : Setup) (shown : DispatchStats → Prop) (baseline : Baseline) (stats : DispatchStats) : Prop where
  shown : shown baseline.before
  settled : baseline.before.published + baseline.before.dropped = setup.warmupEvents
  coherent : baseline.before.Coherent setup.bus 0
  capacity : baseline.before.queueCapacity = setup.bus.queueSize
  grown : baseline.before.Before stats

/-- What is measured, on a bus that has dispatched everything. `cleared` is how many events the
handler had seen before the latencies were cleared. -/
structure Closed (setup : Setup) (shown : DispatchStats → Prop) (cleared : ℕ) (s : Shared ω ℤ) (measured : Measured) : Prop where
  kept : Kept setup shown measured.toBaseline measured.after
  cleared_le : cleared ≤ measured.before.published
  settled : measured.after.published + measured.after.dropped = setup.warmupEvents + setup.totalEvents
  coherent : measured.after.Coherent setup.bus 0
  capacity : measured.after.queueCapacity = setup.bus.queueSize
  queue : measured.after.queueSize = 0
  accepted : s.accepted.length = measured.after.published
  unfinished : s.unfinished = 0

/-- What a result says, made of the first statistics and of some latencies. -/
structure Sound (setup : Setup) (before : DispatchStats) (result : EventBusBenchmarkResult) (samples : List ℚ) : Prop where
  settled : result.published + result.dropped = setup.totalEvents
  counts : 0 ≤ result.published ∧ 0 ≤ result.dropped ∧ 0 ≤ result.dispatched
  pressure : if setup.bus.dropOnFull then result.backpressureCount = result.dropped else result.dropped = 0
  watermark : 0 ≤ result.queueHighWatermark ∧ result.queueHighWatermark ≤ setup.bus.queueSize
  missing : result.published ≤ result.dispatched + setup.bus.workerCount * setup.bus.batchSize
  warmedUp : before.published + before.dropped = setup.warmupEvents
  leftOver : result.dispatched ≤ result.published + (before.published - before.dispatched)
  onTheirWay : before.published ≤ before.dispatched + (setup.bus.queueSize + setup.bus.workerCount * setup.bus.batchSize)
  throughput : 0 < result.durationSec ∧ result.throughputEps * result.durationSec = result.dispatched
  sampled : result.published ≤ samples.length ∧ samples.length ≤ result.published + setup.warmupEvents
  percentiles : ∃ measured : Measured, measured.before = before ∧ result = measured.result samples

/-- Without a warm-up no event is dispatched but the published ones. -/
theorem Sound.cold {setup : Setup} {before : DispatchStats} {result : EventBusBenchmarkResult} {samples : List ℚ}
    (sound : Sound setup before result samples) (cold : setup.warmupEvents = 0) : result.dispatched ≤ result.published := by
  have leftOver := sound.leftOver
  have warmedUp := sound.warmedUp
  omega

/-- What the thread has behind it. -/
def Stage.Past (setup : Setup) (shown : DispatchStats → Prop) (cleared : ℕ) (s : Shared ω ℤ) (latenciesUs : List ℚ) : Stage → Prop
  | .warmup _ | .warming _ | .flushWarmup | .clear | .before => True
  | .looping baseline _ | .publishing baseline _ | .flushing baseline =>
    Kept setup shown baseline (s.stats setup.bus) ∧ cleared ≤ baseline.before.published
  | .flushed baseline drained =>
    Kept setup shown baseline (s.stats setup.bus) ∧ cleared ≤ baseline.before.published ∧ (drained = true → s.unfinished = 0)
  | .after baseline _ =>
    Kept setup shown baseline (s.stats setup.bus) ∧ cleared ≤ baseline.before.published ∧ s.unfinished = 0
  | .stopping measured | .joining measured => ∀ m ∈ measured, Closed setup shown cleared s m
  | .ended (.result result) => ∃ samples before, samples <+: latenciesUs ∧ shown before ∧ Sound setup before result samples
  | .ended (.timeoutError _) => True

/-- The state of the call between two steps. -/
structure Runs (setup : Setup) (shown : DispatchStats → Prop) (bench : Bench (Fin setup.bus.workerCount)) : Prop where
  feeds : Feeds setup bench.bus (bench.stage.rest setup.measured) bench.stage.publishes
  seen : ∃ cleared, cleared + bench.latenciesUs.length = bench.bus.shared.handed.length ∧
    bench.stage.Past setup shown cleared bench.bus.shared bench.latenciesUs

section Growth
variable {setup : Setup} {shown : DispatchStats → Prop} {cleared : ℕ} {s s' : Shared ω ℤ} {latenciesUs latenciesUs' : List ℚ}

theorem Kept.grows {baseline : Baseline} {stats stats' : DispatchStats} (kept : Kept setup shown baseline stats)
    (before : stats.Before stats') : Kept setup shown baseline stats' :=
  { kept with grown := kept.grown.trans before }

theorem Closed.grows {measured : Measured} (closed : Closed setup shown cleared s measured)
    (unfinished : s.unfinished = 0 → s'.unfinished = 0) (accepted : s'.accepted = s.accepted) :
    Closed setup shown cleared s' measured :=
  { closed with unfinished := unfinished closed.unfinished, accepted := accepted ▸ closed.accepted }

/-- What the thread has behind it stays there, whoever moves. -/
theorem Stage.Past.grows {stage : Stage} (past : stage.Past setup shown cleared s latenciesUs)
    (before : (s.stats setup.bus).Before (s'.stats setup.bus))
    (unfinished : stage.publishes = false → s.unfinished = 0 → s'.unfinished = 0)
    (accepted : stage.publishes = false → s'.accepted = s.accepted) (longer : latenciesUs <+: latenciesUs') :
    stage.Past setup shown cleared s' latenciesUs' := by
  cases stage with
  | warmup | warming | flushWarmup | clear | before => trivial
  | looping | publishing | flushing => exact ⟨past.1.grows before, past.2⟩
  | flushed => exact ⟨past.1.grows before, past.2.1, fun drained => unfinished rfl (past.2.2 drained)⟩
  | after => exact ⟨past.1.grows before, past.2.1, unfinished rfl past.2.2⟩
  | stopping | joining => exact fun m member => (past m member).grows (unfinished rfl) (accepted rfl)
  | ended outcome =>
    cases outcome with
    | result result =>
      obtain ⟨samples, before, part, sound⟩ := past
      exact ⟨samples, before, part.trans longer, sound⟩
    | timeoutError => trivial

/-- The result of what was measured, once everything is dispatched. -/
theorem Closed.sound {measured : Measured} (closed : Closed setup shown cleared s measured)
    (seen : cleared + latenciesUs.length = s.handed.length) (all : s.handed.length = s.accepted.length) :
    Sound setup measured.before (measured.result latenciesUs) latenciesUs := by
  obtain ⟨kept, cleared_le, settled, coherent, capacity, queue, accepted, -⟩ := closed
  obtain ⟨-, settled', coherent', capacity', grown⟩ := kept
  have published := grown.published
  have dropped := grown.dropped
  have dispatched := grown.dispatched
  have watermark := coherent.watermark
  have ahead := coherent.ahead
  have ahead' := coherent'.ahead
  have inFlight := coherent.inFlight
  have inFlight' := coherent'.inFlight
  have queue' := coherent'.capacity
  have wide : ((setup.bus.workerCount : ℤ) * setup.bus.batchSize) = ((setup.bus.workerCount * setup.bus.batchSize : ℕ) : ℤ) :=
    (Nat.cast_mul _ _).symm
  have duration : 0 < max (measured.stop - measured.start) (1 / 1000000000) := lt_max_of_lt_right (by norm_num)
  have onTheirWay : measured.before.published ≤
      measured.before.dispatched + (setup.bus.queueSize + setup.bus.workerCount * setup.bus.batchSize) := by omega
  refine ⟨?_, ⟨?_, ?_, ?_⟩, ?_, ⟨le_max_left _ _, ?_⟩, ?_, settled', ?_, onTheirWay,
    ⟨duration, div_mul_cancel₀ _ duration.ne'⟩, ⟨?_, ?_⟩, measured, rfl, rfl⟩
  all_goals simp only [Measured.result, wide]
  · omega
  · omega
  · omega
  · omega
  · have pressure := coherent.pressure
    have pressure' := coherent'.pressure
    split
    · rename_i drops
      rw [if_pos drops] at pressure pressure'
      omega
    · rename_i waits
      rw [if_neg waits] at pressure pressure'
      omega
  · omega
  · omega
  · omega
  · omega
  · omega

end Growth

section Steps
variable {setup : Setup} {shown : DispatchStats → Prop} {bench : Bench (Fin setup.bus.workerCount)}

theorem runs_start (setup : Setup) (shown : DispatchStats → Prop) : Runs setup shown (Bench.start setup) := by
  have started : Governance.Fed setup.bus setup.events Bus.start (.looping 0 setup.events) := Governance.fed_start _
  unfold Bench.start
  split
  · rename_i cold
    have all : setup.events = setup.measured := by
      rw [Setup.events, Setup.warmup, cold]
      rfl
    refine ⟨?_, 0, rfl, trivial⟩
    show Governance.Fed setup.bus setup.events Bus.start (.looping (setup.events.length - setup.measured.length) setup.measured)
    rw [← all, Nat.sub_self]
    exact started
  · refine ⟨?_, 0, rfl, trivial⟩
    show Governance.Fed setup.bus setup.events Bus.start (.looping (setup.events.length - setup.events.length) setup.events)
    rw [Nat.sub_self]
    exact started

theorem workerStep_handed {config : LowLatency.Config} {ε : Type} (w : ω) (now : ℤ) (raised : Bool) (s : Shared ω ε) (p : Worker ε) :
    s.handed.length ≤ (workerStep config w now raised s p).1.handed.length := by
  have acted := workerStep_acted config w now raised s p
  generalize workerStep config w now raised s p = result at acted ⊢
  obtain ⟨s', p'⟩ := result
  dsimp only at acted ⊢
  cases acted with
  | moves | takes | commits => exact le_refl _
  | hands => exact (List.prefix_append _ _).length_le

theorem publisherStep_handed {config : LowLatency.Config} {ε : Type} (now : ℤ) (s : Shared ω ε) (p : Publisher ε) :
    (publisherStep config now s p).1.handed = s.handed := by
  have acted := publisherStep_acted config now s p
  generalize publisherStep config now s p = result at acted ⊢
  obtain ⟨s', p'⟩ := result
  dsimp only at acted ⊢
  cases acted <;> rfl

/-- **Step lemma** of the workers. -/
theorem Runs.worker (runs : Runs setup shown bench) (w : Fin setup.bus.workerCount) (now : ℤ) (latencyUs : ℚ) :
    Runs setup shown (bench.step setup (.worker w now latencyUs)) := by
  obtain ⟨feeds, cleared, seen, past⟩ := runs
  obtain ⟨accepted, begun⟩ : (bench.bus.step setup.bus (.worker w now false)).shared.accepted = bench.bus.shared.accepted ∧
      (bench.bus.step setup.bus (.worker w now false)).shared.begun = bench.bus.shared.begun :=
    Governance.workerStep_fed w now false (bench.bus.worker w)
  have handed : bench.bus.shared.handed.length ≤ (bench.bus.step setup.bus (.worker w now false)).shared.handed.length :=
    workerStep_handed w now false bench.bus.shared (bench.bus.worker w)
  refine ⟨feeds.others (.worker w now false) rfl ⟨accepted, begun⟩, cleared, ?_, ?_⟩
  · show cleared + (bench.latenciesUs ++ List.replicate _ latencyUs).length =
      (bench.bus.step setup.bus (.worker w now false)).shared.handed.length
    rw [List.length_append, List.length_replicate]
    omega
  · refine past.grows (before_step _ _) (fun quiet drained => ?_) (fun _ => accepted) (List.prefix_append _ _)
    have fed : Governance.Fed setup.bus setup.events bench.bus (setup.replay _ _) := feeds
    rw [quiet] at fed
    have still : Drained bench.bus := ⟨fun _ => fed.idle id, drained⟩
    exact (still.step (a := .worker w now false) nofun).unfinished

/-- The thread goes on where nothing is published. -/
theorem Runs.moves (runs : Runs setup shown bench) {stage : Stage} (publishes : stage.publishes = bench.stage.publishes)
    (rest : stage.rest setup.measured = bench.stage.rest setup.measured)
    (past : ∀ cleared, cleared + bench.latenciesUs.length = bench.bus.shared.handed.length →
      bench.stage.Past setup shown cleared bench.bus.shared bench.latenciesUs →
      stage.Past setup shown cleared bench.bus.shared bench.latenciesUs) :
    Runs setup shown { bench with stage } := by
  obtain ⟨feeds, cleared, seen, behind⟩ := runs
  refine ⟨?_, cleared, seen, past cleared seen behind⟩
  show Feeds setup bench.bus (stage.rest setup.measured) stage.publishes
  rw [publishes, rest]
  exact feeds

/-- The thread is in a call of `publish`, which goes on or returns. -/
theorem Runs.publishing (runs : Runs setup shown bench) (publishes : bench.stage.publishes = true) (now : ℤ) {next : Stage}
    (between : next.publishes = false) (rest : next.rest setup.measured = bench.stage.rest setup.measured)
    (past : ∀ cleared, bench.stage.Past setup shown cleared bench.bus.shared bench.latenciesUs →
      next.Past setup shown cleared bench.bus.shared bench.latenciesUs) :
    Runs setup shown (bench.publishing setup now next) := by
  obtain ⟨feeds, cleared, seen, behind⟩ := runs
  rw [publishes] at feeds
  unfold Bench.publishing
  split
  · rename_i idle
    refine ⟨?_, cleared, seen, past cleared behind⟩
    show Feeds setup bench.bus (next.rest setup.measured) next.publishes
    rw [between, rest]
    exact feeds.returns idle
  · refine ⟨?_, cleared, ?_, behind.grows (before_step _ _) (fun quiet => ?_) (fun quiet => ?_) (List.prefix_refl _)⟩
    · show Feeds setup _ (bench.stage.rest setup.measured) bench.stage.publishes
      rw [publishes]
      exact feeds.goesOn now
    · exact seen.trans (congrArg List.length (publisherStep_handed now bench.bus.shared (bench.bus.publisher ()))).symm
    · rw [publishes] at quiet
      cases quiet
    · rw [publishes] at quiet
      cases quiet

/-- `publish` is called with the next event. -/
theorem Runs.publish (runs : Runs setup shown bench) (between : bench.stage.publishes = false) {event : ℤ} {next : Stage}
    (publishes : next.publishes = true) (rest : bench.stage.rest setup.measured = event :: next.rest setup.measured)
    (past : ∀ cleared, bench.stage.Past setup shown cleared bench.bus.shared bench.latenciesUs →
      next.Past setup shown cleared bench.bus.shared bench.latenciesUs) :
    Runs setup shown (bench.publish setup event next) := by
  obtain ⟨feeds, cleared, seen, behind⟩ := runs
  rw [between, rest] at feeds
  have shared : (bench.bus.step setup.bus (.publishMany () [event])).shared = bench.bus.shared := by
    simp only [Bus.step]
    split <;> rfl
  refine ⟨?_, cleared, ?_, ?_⟩
  · show Feeds setup _ (next.rest setup.measured) next.publishes
    rw [publishes]
    exact feeds.publish
  · show cleared + bench.latenciesUs.length = (bench.bus.step setup.bus (.publishMany () [event])).shared.handed.length
    rw [shared]
    exact seen
  · show next.Past setup shown cleared (bench.bus.step setup.bus (.publishMany () [event])).shared bench.latenciesUs
    rw [shared]
    exact past cleared behind

/-- **Step lemma** of the thread. -/
theorem Runs.mainStep (runs : Runs setup shown bench) (here : bench.stage = .before → shown (bench.bus.shared.stats setup.bus))
    (now : ℤ) (expired : Bool) : Runs setup shown (bench.mainStep setup now expired) := by
  unfold Bench.mainStep
  cases stage : bench.stage with
  | warmup rest =>
    cases rest with
    | nil => exact runs.moves (by rw [stage]; rfl) (by rw [stage]; rfl) fun _ _ _ => trivial
    | cons event rest => exact runs.publish (by rw [stage]; rfl) rfl (by rw [stage]; rfl) fun _ _ => trivial
  | warming rest => exact runs.publishing (by rw [stage]; rfl) now rfl (by rw [stage]; rfl) fun _ _ => trivial
  | flushWarmup =>
    dsimp only
    split
    · exact runs
    · exact runs.moves (by rw [stage]; rfl) (by rw [stage]; rfl) fun _ _ _ => trivial
  | clear =>
    obtain ⟨feeds, cleared, seen, -⟩ := runs
    rw [stage] at feeds
    exact ⟨feeds, bench.bus.shared.handed.length, rfl, trivial⟩
  | before =>
    have feeds := runs.feeds
    rw [stage] at feeds
    obtain ⟨settled, published, coherent, accounts⟩ := Feeds.settled feeds
    have first : setup.events.length - setup.measured.length = setup.warmupEvents := by
      simp [Setup.events, Setup.warmup]
    refine runs.moves (by rw [stage]; rfl) (by rw [stage]; rfl) fun cleared seen _ => ⟨⟨here stage, ?_, coherent, rfl, .refl _⟩, ?_⟩
    · exact settled.trans first
    · have all := accounts.all
      show cleared ≤ bench.bus.shared.published
      omega
  | looping baseline rest =>
    cases rest with
    | nil => exact runs.moves (by rw [stage]; rfl) (by rw [stage]; rfl) fun _ _ past => by rwa [stage] at past
    | cons event rest => exact runs.publish (by rw [stage]; rfl) rfl (by rw [stage]; rfl) fun _ past => by rwa [stage] at past
  | publishing baseline rest =>
    exact runs.publishing (by rw [stage]; rfl) now rfl (by rw [stage]; rfl) fun _ past => by rwa [stage] at past
  | flushing baseline =>
    dsimp only
    split
    · exact runs
    · rename_i drained flushed
      refine runs.moves (by rw [stage]; rfl) (by rw [stage]; rfl) fun _ _ past => ?_
      rw [stage] at past
      refine ⟨past.1, past.2, fun all => Governance.unfinished_of_flushRound (all ▸ flushed)⟩
  | flushed baseline drained =>
    cases drained with
    | false =>
      exact runs.moves (by rw [stage]; rfl) (by rw [stage]; rfl) fun _ _ _ m none_ => nomatch none_
    | true =>
      refine runs.moves (by rw [stage]; rfl) (by rw [stage]; rfl) fun _ _ past => ?_
      rw [stage] at past
      exact ⟨past.1, past.2.1, past.2.2 rfl⟩
  | after baseline stop =>
    have feeds := runs.feeds
    rw [stage] at feeds
    obtain ⟨settled, published, coherent, accounts⟩ := Feeds.settled feeds
    refine runs.moves (by rw [stage]; rfl) (by rw [stage]; rfl) fun cleared _ past => ?_
    rw [stage] at past
    obtain ⟨kept, cleared_le, drained⟩ := past
    rintro m ⟨⟩
    refine ⟨kept, cleared_le, ?_, coherent, rfl, ?_, published.symm, drained⟩
    · refine settled.trans ?_
      simp [Setup.events, Setup.warmup, Setup.measured, Stage.rest]
    · have tasks := accounts.unfinished
      show bench.bus.shared.queue.length = 0
      omega
  | stopping measured =>
    dsimp only
    split
    · exact runs
    · obtain ⟨feeds, cleared, seen, past⟩ := runs
      rw [stage] at feeds past
      exact ⟨Feeds.others feeds .stop rfl ⟨rfl, rfl⟩, cleared, seen, fun m member => (past m member).grows id rfl⟩
  | joining measured =>
    have feeds := runs.feeds
    rw [stage] at feeds
    obtain ⟨-, -, -, accounts⟩ := Feeds.settled feeds
    dsimp only
    split
    · refine runs.moves (by rw [stage]; rfl) (by rw [stage]; rfl) fun cleared seen past => ?_
      rw [stage] at past
      cases measured with
      | none => trivial
      | some m =>
        have closed := past m rfl
        refine ⟨bench.latenciesUs, m.before, List.prefix_refl _, closed.kept.shown, closed.sound seen ?_⟩
        have tasks := accounts.unfinished
        have all := accounts.all
        have drained := closed.unfinished
        omega
    · exact runs
  | ended outcome => exact runs

/-- The statistics that the run shows to the thread before its second loop. -/
def Setup.ShownBefore (setup : Setup) (turns : List (Turn (Fin setup.bus.workerCount))) (stats : DispatchStats) : Prop :=
  ∃ earlier later, turns = earlier ++ later ∧ ((Bench.start setup).after setup earlier).stage = .before ∧
    stats = ((Bench.start setup).after setup earlier).bus.shared.stats setup.bus

/-- **Run lemma**: the call keeps its accounts, whoever moves. -/
theorem runs_after (setup : Setup) (turns : List (Turn (Fin setup.bus.workerCount))) :
    Runs setup (setup.ShownBefore turns) ((Bench.start setup).after setup turns) := by
  refine Run.prefixes (P := fun done => Runs setup (setup.ShownBefore turns) ((Bench.start setup).after setup done))
    (runs_start setup _) (fun done turn rest split runs => ?_) (List.append_nil turns).symm
  have next : (Bench.start setup).after setup (done ++ [turn]) = ((Bench.start setup).after setup done).step setup turn :=
    List.foldl_concat ..
  show Runs setup _ ((Bench.start setup).after setup (done ++ [turn]))
  rw [next]
  cases turn with
  | main now expired => exact runs.mainStep (fun stage => ⟨done, _, split, stage, rfl⟩) now expired
  | worker w now latencyUs => exact runs.worker w now latencyUs

end Steps

/-- **The result of a benchmark**, whatever the workers do in between and whether the warm-up is
flushed in time or not. The published and the dropped events are the events measured, and
no count is negative; the back-pressure counts the drops, and nothing is dropped when
the bus waits for room; at most one batch for each worker is missing in `dispatched`,
which may count as many events of the warm-up as were still on their way when the second
loop began. There is a latency for every published event, and at most one more for each
event of the warm-up. -/
theorem benchmark_report (setup : Setup) (turns : List (Turn (Fin setup.bus.workerCount))) {result : EventBusBenchmarkResult}
    (ended : ((Bench.start setup).after setup turns).stage = .ended (.result result)) :
    (∃ samples before, samples <+: ((Bench.start setup).after setup turns).latenciesUs ∧ setup.ShownBefore turns before ∧
      Sound setup before result samples) ∧
    (setup.warmupEvents = 0 → result.dispatched ≤ result.published) := by
  obtain ⟨-, cleared, -, past⟩ := runs_after setup turns
  rw [ended] at past
  obtain ⟨samples, before, part, shown, sound⟩ := past
  exact ⟨⟨samples, before, part, shown, sound⟩, sound.cold⟩

/-- One event of the warm-up and one that is measured, on a bus with one worker. -/
def oneAndOne : Setup := ⟨single, 1, 1, Nat.one_pos⟩

/-- Both events are published and handed on, one after the other. -/
def bothTurns : List (Turn (Fin oneAndOne.bus.workerCount)) :=
  List.replicate 7 (.main 0 true) ++ List.replicate 4 (.worker onlyWorker 0 3) ++ List.replicate 10 (.main 0 true) ++
    List.replicate 5 (.worker onlyWorker 0 4) ++ List.replicate 5 (.main 0 true)

theorem benchmark_report_one : ∃ result, ((Bench.start oneAndOne).after oneAndOne bothTurns).stage = .ended (.result result) ∧
    result.published + result.dropped = 1 := by
  obtain ⟨result, ended⟩ : ∃ result, ((Bench.start oneAndOne).after oneAndOne bothTurns).stage = .ended (.result result) :=
    ⟨_, rfl⟩
  obtain ⟨⟨samples, before, -, -, sound⟩, -⟩ := benchmark_report oneAndOne bothTurns ended
  exact ⟨result, ended, sound.settled⟩

end CryptoQuant.Benchmark
