import CryptoQuant.Events.LowLatency
import Mathlib.Algebra.Order.Ring.Rat
import Mathlib.Data.List.Sort
import Mathlib.Data.Rat.Floor

/-!
# The benchmark of the low-latency bus

`run_event_bus_benchmark` of `backtest/event_bus_benchmark.py`: one thread publishes events
to warm up, flushes the bus, publishes the events that are measured, flushes again and
reports. The workers of the bus, whose handler measures latencies, are at work all the
while.
-/

namespace CryptoQuant.Benchmark
set_option autoImplicit false

open LowLatency

/-- `EventBusBenchmarkConfig`. -/
structure EventBusBenchmarkConfig where
  totalEvents : ℤ := 100000
  warmupEvents : ℤ := 10000
  queueSize : ℤ := 100000
  workerCount : ℤ := 2
  batchSize : ℤ := 256
  dropOnFull : Bool := true

/-- `EventBusBenchmarkResult`. -/
structure EventBusBenchmarkResult where
  published : ℤ
  dispatched : ℤ
  dropped : ℤ
  backpressureCount : ℤ
  queueHighWatermark : ℤ
  durationSec : ℚ
  throughputEps : ℚ
  p50LatencyUs : ℚ
  p95LatencyUs : ℚ
  p99LatencyUs : ℚ
  maxLatencyUs : ℚ

/-- A configuration that passed the checks, with the bus that is built. -/
structure Setup where
  bus : LowLatency.Config
  totalEvents : ℕ
  warmupEvents : ℕ
  total_pos : 0 < totalEvents

/-- The checks of `run_event_bus_benchmark` and of the bus that it builds. -/
def EventBusBenchmarkConfig.check (config : EventBusBenchmarkConfig) : Except PyError Setup :=
  if total : config.totalEvents ≤ 0 then .error (.valueError "total_events must be > 0")
  else if config.warmupEvents < 0 then .error (.valueError "warmup_events must be >= 0")
  else do
    let bus ← LowLatency.Config.new config.queueSize config.workerCount config.batchSize config.dropOnFull
    .ok { bus, totalEvents := config.totalEvents.toNat, warmupEvents := config.warmupEvents.toNat, total_pos := by omega }

/-- `values[i]`. -/
def itemOf (values : List ℚ) (i : ℕ) : ℚ := values.getD i 0

/-- `_percentile`. -/
def percentile (values : List ℚ) (q : ℚ) : ℚ :=
  if values = [] then 0
  else if q ≤ 0 then itemOf values 0
  else if 1 ≤ q then itemOf values (values.length - 1)
  else
    let pos := (values.length - 1 : ℕ) * q
    let lower := ⌊pos⌋₊
    let upper := min (lower + 1) (values.length - 1)
    if lower = upper then itemOf values lower
    else
      let weight := pos - lower
      itemOf values lower * (1 - weight) + itemOf values upper * weight

/-- `before` and `start`. -/
structure Baseline where
  before : DispatchStats
  start : ℚ

/-- What is measured when the events are dispatched: `after` and `end`, besides. -/
structure Measured extends Baseline where
  after : DispatchStats
  stop : ℚ

/-- The result of what was measured. -/
def Measured.result (measured : Measured) (latenciesUs : List ℚ) : EventBusBenchmarkResult :=
  let samples := latenciesUs.insertionSort (· ≤ ·)
  let published : ℤ := measured.after.published - measured.before.published
  let dispatched : ℤ := measured.after.dispatched - measured.before.dispatched
  let dropped : ℤ := measured.after.dropped - measured.before.dropped
  let durationSec := max (measured.stop - measured.start) (1 / 1000000000)
  let throughputEps := dispatched / durationSec
  { published, dispatched, dropped
    backpressureCount := measured.after.backpressureCount - measured.before.backpressureCount
    queueHighWatermark := max 0 (measured.after.queueHighWatermark - measured.before.queueHighWatermark)
    durationSec, throughputEps
    p50LatencyUs := percentile samples (50 / 100)
    p95LatencyUs := percentile samples (95 / 100)
    p99LatencyUs := percentile samples (99 / 100)
    maxLatencyUs := percentile samples 1 }

/-- How the call ends: with a result, or with the `TimeoutError`. -/
inductive Outcome
  | result (result : EventBusBenchmarkResult)
  | timeoutError (message : String)

/-- Where the thread of the benchmark is: in the loop of the warm-up and in its flush, at
`latencies_us.clear()`, at the first statistics, in the loop of the measured events, in their
flush and behind it, at the last statistics, and in the `stop` of the bus. Events are
their numbers `seq`. -/
inductive Stage
  | warmup (rest : List ℤ)
  | warming (rest : List ℤ)
  | flushWarmup
  | clear
  | before
  | looping (baseline : Baseline) (rest : List ℤ)
  | publishing (baseline : Baseline) (rest : List ℤ)
  | flushing (baseline : Baseline)
  | flushed (baseline : Baseline) (drained : Bool)
  | after (baseline : Baseline) (stop : ℚ)
  | stopping (measured : Option Measured)
  | joining (measured : Option Measured)
  | ended (outcome : Outcome)

/-- The call, with its bus, on which it is the one publisher, and `latencies_us`. -/
structure Bench (ω : Type) where
  bus : Bus Unit ω ℤ
  stage : Stage
  latenciesUs : List ℚ

/-- Who moves: the thread of the benchmark, with its reading of the clock in nanoseconds and
whether a deadline of it has passed, or a worker, with the latency that the handler
measures if it is called. -/
inductive Turn (ω : Type)
  | main (now : ℤ) (expired : Bool)
  | worker (w : ω) (now : ℤ) (latencyUs : ℚ)

/-- `seq` of the events of the warm-up. -/
def Setup.warmup (setup : Setup) : List ℤ := (List.range setup.warmupEvents).map fun idx => -(idx : ℤ) - 1

/-- `seq` of the events measured. -/
def Setup.measured (setup : Setup) : List ℤ := (List.range setup.totalEvents).map fun idx => (idx : ℤ)

variable {ω : Type} [DecidableEq ω]

namespace Bench

/-- The call once the bus is started. -/
def start (setup : Setup) : Bench ω :=
  ⟨.start, if setup.warmupEvents = 0 then .before else .warmup setup.warmup, []⟩

/-- A call of `publish`, on to the stage `next`. -/
def publish (setup : Setup) (bench : Bench ω) (event : ℤ) (next : Stage) : Bench ω :=
  { bench with bus := bench.bus.step setup.bus (.publishMany () [event]), stage := next }

/-- The next step in a call of `publish`, which returns to the stage `next`. -/
def publishing (setup : Setup) (now : ℤ) (bench : Bench ω) (next : Stage) : Bench ω :=
  match bench.bus.publisher () with
  | .idle => { bench with stage := next }
  | _ => { bench with bus := bench.bus.step setup.bus (.publisher () now) }

/-- The next step of the thread of the benchmark. -/
def mainStep (setup : Setup) (now : ℤ) (expired : Bool) (bench : Bench ω) : Bench ω :=
  let seconds : ℚ := now / 1000000000
  match bench.stage with
  | .warmup [] => { bench with stage := .flushWarmup }
  | .warmup (event :: rest) => bench.publish setup event (.warming rest)
  | .warming rest => bench.publishing setup now (.warmup rest)
  | .flushWarmup =>
    match bench.bus.shared.flushRound expired with
    | none => bench
    | some _ => { bench with stage := .clear }
  | .clear => { bench with stage := .before, latenciesUs := [] }
  | .before => { bench with stage := .looping ⟨bench.bus.shared.stats setup.bus, seconds⟩ setup.measured }
  | .looping baseline [] => { bench with stage := .flushing baseline }
  | .looping baseline (event :: rest) => bench.publish setup event (.publishing baseline rest)
  | .publishing baseline rest => bench.publishing setup now (.looping baseline rest)
  | .flushing baseline =>
    match bench.bus.shared.flushRound expired with
    | none => bench
    | some drained => { bench with stage := .flushed baseline drained }
  | .flushed baseline drained => { bench with stage := if drained then .after baseline seconds else .stopping none }
  | .after baseline stop =>
    { bench with stage := .stopping (some ⟨baseline, bench.bus.shared.stats setup.bus, stop⟩) }
  | .stopping measured =>
    match bench.bus.shared.flushRound expired with
    | none => bench
    | some _ => { bench with bus := bench.bus.step setup.bus .stop, stage := .joining measured }
  | .joining measured =>
    if expired then
      { bench with stage := .ended (match measured with
          | none => .timeoutError "event bus flush timed out during benchmark"
          | some measured => .result (measured.result bench.latenciesUs)) }
    else bench
  | .ended _ => bench

/-- One step of the thread or of a worker. The handler `on_event` appends one latency for an
event that is handed on. -/
def step (setup : Setup) (bench : Bench ω) : Turn ω → Bench ω
  | .main now expired => bench.mainStep setup now expired
  | .worker w now latencyUs =>
    let bus := bench.bus.step setup.bus (.worker w now false)
    let handed := bus.shared.handed.length - bench.bus.shared.handed.length
    { bench with bus, latenciesUs := bench.latenciesUs ++ List.replicate handed latencyUs }

/-- The call after some steps, in whatever order. -/
def after (setup : Setup) (bench : Bench ω) (turns : List (Turn ω)) : Bench ω :=
  turns.foldl (step setup) bench

end Bench

end CryptoQuant.Benchmark
