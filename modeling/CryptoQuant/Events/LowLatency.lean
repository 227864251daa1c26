import CryptoQuant.Basic
import CryptoQuant.Lib.Run
import Mathlib.Logic.Function.Basic

/-!
# The low-latency event bus

`LowLatencyEventBus` of `events/bus.py`, as publishers and workers that share a
bounded FIFO queue, counters and a stop flag. A step of a party is what it does under
one lock: an operation of the queue, a block of the metrics lock, or a test. The clock
readings and whether the handlers of an event raise (an `Exception`) come with the step.
The number of an entry and the fields `accepted`, `handed` and `begun` are history that
no step reads.
-/

namespace CryptoQuant.LowLatency
set_option autoImplicit false

/-- The arguments of `LowLatencyEventBus`. -/
structure Config where
  queueSize : ℕ
  workerCount : ℕ
  batchSize : ℕ
  dropOnFull : Bool
  queue_pos : 0 < queueSize
  worker_pos : 0 < workerCount
  batch_pos : 0 < batchSize

/-- The checks of `LowLatencyEventBus.__init__`. -/
def Config.new (queueSize : ℤ := 100000) (workerCount : ℤ := 2) (batchSize : ℤ := 256) (dropOnFull : Bool := true) :
    Except PyError Config :=
  if queue : queueSize ≤ 0 then .error (.valueError "queue_size must be > 0")
  else if worker : workerCount ≤ 0 then .error (.valueError "worker_count must be > 0")
  else if batch : batchSize ≤ 0 then .error (.valueError "batch_size must be > 0")
  else .ok { queueSize := queueSize.toNat, workerCount := workerCount.toNat, batchSize := batchSize.toNat, dropOnFull
             queue_pos := by omega, worker_pos := by omega, batch_pos := by omega }

/-- `(enqueue_ts, event)`, with its number in the order of acceptance. -/
structure Entry (ε : Type) where
  number : ℕ
  enqueueTs : ℤ
  event : ε
deriving DecidableEq

/-- Where a publisher is in `publish_many`, with the events that are left. -/
inductive Publisher (ε : Type)
  | idle
  | looping (rest : List ε)
  | putting (enqueueTs : ℤ) (event : ε) (rest : List ε)
  | pressed (enqueueTs : ℤ) (event : ε) (rest : List ε)
  | blocked (enqueueTs : ℤ) (event : ε) (rest : List ε)
  | counting (rest : List ε)
  | refused (rest : List ε)

/-- Where a worker is in `_worker_loop`, with its batch. -/
inductive Worker (ε : Type)
  | top
  | stopping
  | getting
  | filling (batch : List (Entry ε)) (rounds : ℕ)
  | dispatching (batch : List (Entry ε)) (dispatched errors : ℕ) (latencyNs : ℤ)
  | exited

/-- What the parties share: the queue with its `unfinished_tasks`, the stop flag and the
counters. `ω` names the workers. -/
structure Shared (ω ε : Type) where
  queue : List (Entry ε) := []
  unfinished : ℕ := 0
  stop : Bool := false
  published : ℕ := 0
  dropped : ℕ := 0
  dispatched : ℕ := 0
  latencyNsSum : ℤ := 0
  batches : ℕ := 0
  handlerErrors : ℕ := 0
  queueHighWatermark : ℕ := 0
  backpressureCount : ℕ := 0
  accepted : List ε := []
  handed : List (ω × Entry ε) := []
  begun : ℕ := 0

/-- `DispatchStats`. -/
structure DispatchStats where
  published : ℕ
  dropped : ℕ
  dispatched : ℕ
  queueSize : ℕ
  queueCapacity : ℕ
  queueHighWatermark : ℕ
  backpressureCount : ℕ
  avgDispatchLatencyUs : ℚ
  batches : ℕ
  handlerErrors : ℕ
deriving DecidableEq, Repr

variable {π ω ε : Type}

namespace Shared

/-- `self._queue.full()`. -/
def full (config : Config) (s : Shared ω ε) : Bool := config.queueSize ≤ s.queue.length

/-- The queue takes an event. -/
def put (s : Shared ω ε) (enqueueTs : ℤ) (event : ε) : Shared ω ε :=
  { s with queue := s.queue ++ [⟨s.accepted.length, enqueueTs, event⟩], unfinished := s.unfinished + 1
           accepted := s.accepted ++ [event] }

/-- `stats`. -/
def stats (config : Config) (s : Shared ω ε) : DispatchStats where
  published := s.published
  dropped := s.dropped
  dispatched := s.dispatched
  queueSize := s.queue.length
  queueCapacity := config.queueSize
  queueHighWatermark := s.queueHighWatermark
  backpressureCount := s.backpressureCount
  avgDispatchLatencyUs := if s.dispatched ≠ 0 then (s.latencyNsSum / s.dispatched : ℚ) / 1000 else 0
  batches := s.batches
  handlerErrors := s.handlerErrors

/-- One round of the loop of `flush`: what it returns, or `none` when it sleeps. -/
def flushRound (s : Shared ω ε) (expired : Bool) : Option Bool :=
  if 0 < s.unfinished then (if expired then some false else none) else some true

end Shared

/-- The next step of a publisher. -/
def publisherStep (config : Config) (now : ℤ) (s : Shared ω ε) : Publisher ε → Shared ω ε × Publisher ε
  | .idle => (s, .idle)
  | .looping [] => (s, .idle)
  | .looping (event :: rest) => ({ s with begun := s.begun + 1 }, .putting now event rest)
  | .putting ts event rest =>
    if config.dropOnFull then
      if s.full config then (s, .refused rest) else (s.put ts event, .counting rest)
    else if s.full config then (s, .pressed ts event rest) else (s, .blocked ts event rest)
  | .pressed ts event rest => ({ s with backpressureCount := s.backpressureCount + 1 }, .blocked ts event rest)
  | .blocked ts event rest => if s.full config then (s, .blocked ts event rest) else (s.put ts event, .counting rest)
  | .counting rest =>
    ({ s with published := s.published + 1, queueHighWatermark := max s.queueHighWatermark s.queue.length },
      .looping rest)
  | .refused rest =>
    ({ s with dropped := s.dropped + 1, backpressureCount := s.backpressureCount + 1 }, .looping rest)

/-- The next step of the worker named `w`. The call of the handlers and `task_done` are
one step, the commit of the batch's metrics is another. -/
def workerStep (config : Config) (w : ω) (now : ℤ) (raised : Bool) (s : Shared ω ε) :
    Worker ε → Shared ω ε × Worker ε
  | .top => (s, if s.stop then .stopping else .getting)
  | .stopping => (s, if s.queue = [] then .exited else .getting)
  | .getting =>
    match s.queue with
    | [] => (s, .top)
    | first :: queue => ({ s with queue }, .filling [first] (config.batchSize - 1))
  | .filling batch 0 => (s, .dispatching batch 0 0 0)
  | .filling batch (rounds + 1) =>
    match s.queue with
    | [] => (s, .dispatching batch 0 0 0)
    | entry :: queue => ({ s with queue }, .filling (batch ++ [entry]) rounds)
  | .dispatching (entry :: batch) dispatched errors latencyNs =>
    ({ s with handed := s.handed ++ [(w, entry)], unfinished := s.unfinished - 1 },
      .dispatching batch (dispatched + 1) (if raised then errors + 1 else errors) (latencyNs + (now - entry.enqueueTs)))
  | .dispatching [] dispatched errors latencyNs =>
    ({ s with batches := s.batches + 1, dispatched := s.dispatched + dispatched
              handlerErrors := s.handlerErrors + errors, latencyNsSum := s.latencyNsSum + latencyNs }, .top)
  | .exited => (s, .exited)

/-- The bus with its publishers and workers. -/
structure Bus (π ω ε : Type) where
  shared : Shared ω ε
  publisher : π → Publisher ε
  worker : ω → Worker ε

/-- The bus after `start`. -/
def Bus.start : Bus π ω ε := ⟨{}, fun _ => .idle, fun _ => .top⟩

/-- Who moves: a publisher is called or goes on, a worker goes on, or the bus is stopped. -/
inductive Action (π ω ε : Type)
  | publishMany (i : π) (events : List ε)
  | publisher (i : π) (now : ℤ)
  | worker (w : ω) (now : ℤ) (raised : Bool)
  | stop

variable [DecidableEq π] [DecidableEq ω]

/-- One step of one party. A publisher that is busy cannot be called, and one that is
blocked stays. -/
def Bus.step (config : Config) (bus : Bus π ω ε) : Action π ω ε → Bus π ω ε
  | .publishMany i events =>
    match bus.publisher i with
    | .idle => { bus with publisher := Function.update bus.publisher i (.looping events) }
    | _ => bus
  | .publisher i now =>
    let (shared, publisher) := publisherStep config now bus.shared (bus.publisher i)
    { bus with shared, publisher := Function.update bus.publisher i publisher }
  | .worker w now raised =>
    let (shared, worker) := workerStep config w now raised bus.shared (bus.worker w)
    { bus with shared, worker := Function.update bus.worker w worker }
  | .stop => { bus with shared := { bus.shared with stop := true } }

/-- The bus after some steps, in whatever order. -/
def Bus.after (config : Config) (bus : Bus π ω ε) (actions : List (Action π ω ε)) : Bus π ω ε :=
  actions.foldl (Bus.step config) bus

end CryptoQuant.LowLatency
