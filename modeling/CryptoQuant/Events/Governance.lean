import CryptoQuant.Events.Gauges

/-!
# Replay resource governance

`run_large_sample_replay_governance` of `backtest/replay_resource_governance.py`: one
thread publishes the events of a replay on a low-latency bus, takes snapshots of its
statistics on the way, flushes the bus and reports. The workers of the bus are at work
all the while.
-/

namespace CryptoQuant.Governance
set_option autoImplicit false

open LowLatency

/-- `ReplayGovernanceConfig`. -/
structure ReplayGovernanceConfig where
  queueSize : ℤ := 50000
  workerCount : ℤ := 2
  batchSize : ℤ := 512
  dropOnFull : Bool := true
  snapshotInterval : ℤ := 5000

/-- `ResourceSnapshot`. -/
structure ResourceSnapshot where
  published : ℕ
  dropped : ℕ
  dispatched : ℕ
  queueSize : ℕ
  queueUtilization : ℚ
  backpressureCount : ℕ
  currentMemoryKb : ℚ
  peakMemoryKb : ℚ

/-- `ReplayGovernanceReport`. -/
structure ReplayGovernanceReport where
  totalInput : ℕ
  published : ℕ
  dropped : ℕ
  dispatched : ℕ
  backpressureCount : ℕ
  queueHighWatermark : ℕ
  maxQueueUtilization : ℚ
  peakMemoryKb : ℚ
  snapshots : List ResourceSnapshot

/-- What `tracemalloc.get_traced_memory()` returns. -/
structure TracedMemory where
  currentBytes : ℕ
  peakBytes : ℕ

/-- A configuration that passed the checks: the bus is built, the interval positive. -/
structure Governed where
  bus : LowLatency.Config
  snapshotInterval : ℕ
  interval_pos : 0 < snapshotInterval

/-- The checks of `run_large_sample_replay_governance` and of the bus that it builds. -/
def ReplayGovernanceConfig.check (config : ReplayGovernanceConfig) : Except PyError Governed :=
  if interval : config.snapshotInterval ≤ 0 then .error (.valueError "snapshot_interval must be > 0")
  else do
    let bus ← LowLatency.Config.new config.queueSize config.workerCount config.batchSize config.dropOnFull
    .ok { bus, snapshotInterval := config.snapshotInterval.toNat, interval_pos := by omega }

/-- `_capture_snapshot`. -/
def captureSnapshot (stats : DispatchStats) (traced : TracedMemory) : ResourceSnapshot where
  published := stats.published
  dropped := stats.dropped
  dispatched := stats.dispatched
  queueSize := stats.queueSize
  queueUtilization := stats.queueSize / (max stats.queueCapacity 1 : ℕ)
  backpressureCount := stats.backpressureCount
  currentMemoryKb := traced.currentBytes / 1024
  peakMemoryKb := traced.peakBytes / 1024

/-- `max((s.queue_utilization for s in snapshots), default=0.0)`. -/
def maxQueueUtilization (snapshots : List ResourceSnapshot) : ℚ :=
  match snapshots.map ResourceSnapshot.queueUtilization with
  | [] => 0
  | first :: rest => rest.foldl max first

/-- How the call ends: with a report, or with the `TimeoutError`. -/
inductive Outcome
  | report (report : ReplayGovernanceReport)
  | timeoutError (message : String)

/-- Where the thread of the replay is: with the events published so far and those left
in the loop, at the flush, at the snapshot after it, at the last statistics, and in the
`stop` of the bus. -/
inductive Main (ε : Type)
  | looping (idx : ℕ) (rest : List ε)
  | publishing (idx : ℕ) (rest : List ε)
  | flushing
  | drained
  | finishing
  | stopping (outcome : Outcome)
  | joining (outcome : Outcome)
  | ended (outcome : Outcome)

/-- The call, with its bus, on which it is the one publisher. -/
structure Replay (ω ε : Type) where
  totalInput : ℕ
  bus : Bus Unit ω ε
  main : Main ε
  snapshots : List ResourceSnapshot

/-- Who moves: the thread of the replay, with its reading of the clock and of the
memory and whether a deadline of it has passed, or a worker. The handler does not
raise. -/
inductive Turn (ω : Type)
  | main (now : ℤ) (expired : Bool) (traced : TracedMemory)
  | worker (w : ω) (now : ℤ)

variable {ω ε : Type} [DecidableEq ω]

namespace Replay

/-- The call once the bus is started. -/
def start (events : List ε) : Replay ω ε := ⟨events.length, .start, .looping 0 events, []⟩

/-- `_capture_snapshot()`. -/
def capture (config : Governed) (traced : TracedMemory) (replay : Replay ω ε) : Replay ω ε :=
  { replay with snapshots := replay.snapshots ++ [captureSnapshot (replay.bus.shared.stats config.bus) traced] }

/-- The report that is returned, from the final statistics. -/
def report (config : Governed) (traced : TracedMemory) (replay : Replay ω ε) : ReplayGovernanceReport :=
  let final := replay.bus.shared.stats config.bus
  { totalInput := replay.totalInput
    published := final.published
    dropped := final.dropped
    dispatched := final.dispatched
    backpressureCount := final.backpressureCount
    queueHighWatermark := final.queueHighWatermark
    maxQueueUtilization := Governance.maxQueueUtilization replay.snapshots
    peakMemoryKb := traced.peakBytes / 1024
    snapshots := replay.snapshots }

/-- The next step of the thread of the replay. -/
def mainStep (config : Governed) (now : ℤ) (expired : Bool) (traced : TracedMemory) (replay : Replay ω ε) : Replay ω ε :=
  match replay.main with
  | .looping _ [] => { replay with main := .flushing }
  | .looping idx (event :: rest) =>
    { replay with bus := replay.bus.step config.bus (.publishMany () [event]), main := .publishing (idx + 1) rest }
  | .publishing idx rest =>
    match replay.bus.publisher () with
    | .idle =>
      let replay := if idx % config.snapshotInterval = 0 then replay.capture config traced else replay
      { replay with main := .looping idx rest }
    | _ => { replay with bus := replay.bus.step config.bus (.publisher () now) }
  | .flushing =>
    match replay.bus.shared.flushRound expired with
    | none => replay
    | some false => { replay with main := .stopping (.timeoutError "replay queue did not drain before timeout") }
    | some true => { replay with main := .drained }
  | .drained => { replay.capture config traced with main := .finishing }
  | .finishing => { replay with main := .stopping (.report (replay.report config traced)) }
  | .stopping outcome =>
    match replay.bus.shared.flushRound expired with
    | none => replay
    | some _ => { replay with bus := replay.bus.step config.bus .stop, main := .joining outcome }
  | .joining outcome => if expired then { replay with main := .ended outcome } else replay
  | .ended _ => replay

/-- One step of the replay or of a worker. -/
def step (config : Governed) (replay : Replay ω ε) : Turn ω → Replay ω ε
  | .main now expired traced => replay.mainStep config now expired traced
  | .worker w now => { replay with bus := replay.bus.step config.bus (.worker w now false) }

/-- The replay after some steps, in whatever order. -/
def after (config : Governed) (replay : Replay ω ε) (turns : List (Turn ω)) : Replay ω ε :=
  turns.foldl (step config) replay

end Replay

end CryptoQuant.Governance
