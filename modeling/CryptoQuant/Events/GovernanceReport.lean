import CryptoQuant.Events.Governance
import CryptoQuant.Lib.Best

/-!
# What a governance report says

The thread of the replay is the one publisher of its bus and reads the statistics only
between two publications. Every event that the loop has passed is then counted, as
published or as dropped, and the snapshots are of one growing history.
-/

namespace CryptoQuant.Governance
set_option autoImplicit false

open LowLatency

variable {ω ε : Type}

section Publisher
variable {config : LowLatency.Config} {s : Shared ω ε}

/-- The events that a publisher may still put. -/
def toPut : Publisher ε → List ε
  | .idle => []
  | .looping rest | .counting rest | .refused rest => rest
  | .putting _ event rest | .pressed _ event rest | .blocked _ event rest => event :: rest

/-- How many events a publisher has still to begin with. -/
def toBegin : Publisher ε → ℕ
  | .idle => 0
  | .looping rest | .counting rest | .refused rest | .putting _ _ rest | .pressed _ _ rest | .blocked _ _ rest => rest.length

theorem publisherStep_begun (now : ℤ) (p : Publisher ε) :
    (publisherStep config now s p).1.begun + toBegin (publisherStep config now s p).2 = s.begun + toBegin p := by
  cases p with
  | idle => rfl
  | looping rest =>
    cases rest with
    | nil => rfl
    | cons event rest =>
      simp only [publisherStep, toBegin, List.length_cons]
      omega
  | putting ts event rest =>
    simp only [publisherStep]
    split <;> split <;> rfl
  | blocked ts event rest =>
    simp only [publisherStep]
    split <;> rfl
  | pressed | counting | refused => rfl

/-- A publisher puts its events in order, or gives one up. -/
theorem publisherStep_puts (now : ℤ) (p : Publisher ε) :
    ((publisherStep config now s p).1.accepted ++ toPut (publisherStep config now s p).2).Sublist (s.accepted ++ toPut p) := by
  have same : (s.accepted ++ toPut p).Sublist (s.accepted ++ toPut p) := List.Sublist.refl _
  have puts (event : ε) (rest : List ε) : (s.accepted ++ [event] ++ rest).Sublist (s.accepted ++ event :: rest) := by
    rw [List.append_assoc]
    exact List.Sublist.refl _
  cases p with
  | looping rest => cases rest <;> exact same
  | putting ts event rest =>
    simp only [publisherStep]
    split
    · split
      · exact (List.sublist_cons_self event rest).append_left s.accepted
      · exact puts event rest
    · split <;> exact same
  | blocked ts event rest =>
    simp only [publisherStep]
    split
    · exact same
    · exact puts event rest
  | idle | pressed | counting | refused => exact same

/-- A publisher that waits for room gives none up. -/
theorem publisherStep_puts_all (waits : config.dropOnFull = false) (now : ℤ) (p : Publisher ε) :
    (publisherStep config now s p).1.accepted ++ toPut (publisherStep config now s p).2 = s.accepted ++ toPut p := by
  have puts (event : ε) (rest : List ε) : s.accepted ++ [event] ++ rest = s.accepted ++ event :: rest :=
    List.append_assoc _ _ _
  cases p with
  | looping rest => cases rest <;> rfl
  | putting ts event rest =>
    simp only [publisherStep, waits, Bool.false_eq_true, if_false]
    split <;> rfl
  | blocked ts event rest =>
    simp only [publisherStep]
    split
    · rfl
    · exact puts event rest
  | idle | pressed | counting | refused => rfl

theorem workerStep_fed (w : ω) (now : ℤ) (raised : Bool) (p : Worker ε) :
    (workerStep config w now raised s p).1.accepted = s.accepted ∧ (workerStep config w now raised s p).1.begun = s.begun := by
  have acted := workerStep_acted config w now raised s p
  generalize workerStep config w now raised s p = result at acted ⊢
  obtain ⟨s', p'⟩ := result
  dsimp only at acted ⊢
  cases acted <;> exact ⟨rfl, rfl⟩

end Publisher

section Loop

/-- The events that the loop has passed, of `n`. -/
def Main.idx (n : ℕ) : Main ε → ℕ
  | .looping idx _ | .publishing idx _ => idx
  | _ => n

/-- The events left in the loop. -/
def Main.rest : Main ε → List ε
  | .looping _ rest | .publishing _ rest => rest
  | _ => []

/-- The thread is in a call of `publish`. -/
def Main.Publishes : Main ε → Prop
  | .publishing .. => True
  | _ => False

variable [DecidableEq ω]

/-- What the loop has given to the bus. -/
structure Fed (config : LowLatency.Config) (events : List ε) (bus : Bus Unit (Fin config.workerCount) ε) (main : Main ε) :
    Prop where
  reached : ∃ actions, bus = Bus.start.after config actions
  idle : ¬ main.Publishes → bus.publisher () = .idle
  begun : bus.shared.begun + toBegin (bus.publisher ()) = main.idx events.length
  passed : main.idx events.length + main.rest.length = events.length
  order : (bus.shared.accepted ++ toPut (bus.publisher ()) ++ main.rest).Sublist events
  all : config.dropOnFull = false → bus.shared.accepted ++ toPut (bus.publisher ()) ++ main.rest = events

variable {config : LowLatency.Config} {events : List ε} {bus : Bus Unit (Fin config.workerCount) ε} {main main' : Main ε}

theorem fed_start (events : List ε) : Fed config events Bus.start (.looping 0 events) where
  reached := ⟨[], rfl⟩
  idle _ := rfl
  begun := rfl
  passed := Nat.zero_add _
  order := List.Sublist.refl _
  all _ := rfl

/-- The thread goes on where nothing is published. -/
theorem Fed.moves (fed : Fed config events bus main) (quiet : ¬ main.Publishes)
    (idx : main'.idx events.length = main.idx events.length) (rest : main'.rest = main.rest) :
    Fed config events bus main' where
  reached := fed.reached
  idle _ := fed.idle quiet
  begun := fed.begun.trans idx.symm
  passed := by rw [idx, rest]; exact fed.passed
  order := by rw [rest]; exact fed.order
  all := by rw [rest]; exact fed.all

/-- The others go on. -/
theorem Fed.others (fed : Fed config events bus main) (action : Action Unit (Fin config.workerCount) ε)
    (publisher : (bus.step config action).publisher = bus.publisher)
    (same : (bus.step config action).shared.accepted = bus.shared.accepted ∧
      (bus.step config action).shared.begun = bus.shared.begun) :
    Fed config events (bus.step config action) main := by
  obtain ⟨actions, reached⟩ := fed.reached
  refine ⟨⟨actions ++ [action], ?_⟩, ?_, ?_, fed.passed, ?_, ?_⟩
  · rw [Bus.after, List.foldl_append, reached]
    rfl
  all_goals simp only [publisher, same]
  · exact fed.idle
  · exact fed.begun
  · exact fed.order
  · exact fed.all

/-- `publish` is called with the next event. -/
theorem Fed.publishes {idx : ℕ} {event : ε} {rest : List ε} (fed : Fed config events bus (.looping idx (event :: rest))) :
    Fed config events (bus.step config (.publishMany () [event])) (.publishing (idx + 1) rest) := by
  obtain ⟨actions, reached⟩ := fed.reached
  have idle := fed.idle id
  obtain ⟨-, -, begun, passed, order, all⟩ := fed
  have stepped : bus.step config (.publishMany () [event]) =
      { bus with publisher := Function.update bus.publisher () (.looping [event]) } := by
    simp only [Bus.step, idle]
  simp only [idle, toBegin, toPut, Main.idx, Main.rest, List.append_nil, List.length_cons] at begun passed order all
  rw [stepped]
  refine ⟨⟨actions ++ [.publishMany () [event]], ?_⟩, fun quiet => absurd trivial quiet, ?_, ?_, ?_, ?_⟩
  · rw [Bus.after, List.foldl_append, ← stepped, reached]
    rfl
  all_goals simp only [Function.update_self, toBegin, toPut, Main.idx, Main.rest, List.length_singleton, List.append_assoc,
    List.singleton_append]
  · omega
  · omega
  · exact order
  · exact all

/-- The publication goes on. -/
theorem Fed.published {idx : ℕ} {rest : List ε} (fed : Fed config events bus (.publishing idx rest)) (now : ℤ) :
    Fed config events (bus.step config (.publisher () now)) (.publishing idx rest) := by
  obtain ⟨⟨actions, reached⟩, -, begun, passed, order, all⟩ := fed
  refine ⟨⟨actions ++ [.publisher () now], ?_⟩, fun quiet => absurd trivial quiet, ?_, passed, ?_, ?_⟩
  · rw [Bus.after, List.foldl_append, reached]
    rfl
  all_goals simp only [Bus.step, Function.update_self]
  · exact (publisherStep_begun now _).trans begun
  · exact ((publisherStep_puts now _).append_right _).trans order
  · intro waits
    rw [publisherStep_puts_all waits]
    exact all waits

/-- Between two publications every event that the loop has passed is counted, and what
was accepted is what is published. -/
theorem Fed.settled (fed : Fed config events bus main) (idle : bus.publisher () = .idle) :
    bus.shared.published + bus.shared.dropped = main.idx events.length ∧ bus.shared.published = bus.shared.accepted.length := by
  obtain ⟨actions, reached⟩ := fed.reached
  have accounts : Accounts config bus := reached ▸ accounts_after actions
  have begun := fed.begun
  have published := accounts.published
  have counted := accounts.begun
  simp only [Fintype.sum_unique, idle, Publisher.attempts, Publisher.uncounted, toBegin] at begun published counted
  omega

end Loop

section Snapshots
variable [DecidableEq ω]

/-- No counter of the snapshot is ahead of that of the other one. -/
structure ResourceSnapshot.Precedes (s s' : ResourceSnapshot) : Prop where
  published : s.published ≤ s'.published
  dropped : s.dropped ≤ s'.dropped
  dispatched : s.dispatched ≤ s'.dispatched
  backpressure : s.backpressureCount ≤ s'.backpressureCount

/-- A snapshot of a bus whose counters have come as far as given. -/
structure ResourceSnapshot.Within (config : LowLatency.Config) (published dropped dispatched backpressure watermark : ℕ)
    (s : ResourceSnapshot) : Prop where
  published : s.published ≤ published
  dropped : s.dropped ≤ dropped
  dispatched : s.dispatched ≤ dispatched
  backpressure : s.backpressureCount ≤ backpressure
  queue : s.queueSize ≤ watermark
  utilization : s.queueUtilization = s.queueSize / config.queueSize
  behind : s.dispatched ≤ s.published
  pressure : if config.dropOnFull then s.backpressureCount = s.dropped else s.dropped = 0

/-- The snapshot is within the statistics. -/
def ResourceSnapshot.TakenBy (config : LowLatency.Config) (stats : DispatchStats) (s : ResourceSnapshot) : Prop :=
  s.Within config stats.published stats.dropped stats.dispatched stats.backpressureCount stats.queueHighWatermark

theorem ResourceSnapshot.TakenBy.grows {config : LowLatency.Config} {stats stats' : DispatchStats} {s : ResourceSnapshot}
    (taken : s.TakenBy config stats) (before : stats.Before stats') : s.TakenBy config stats' where
  published := taken.published.trans before.published
  dropped := taken.dropped.trans before.dropped
  dispatched := taken.dispatched.trans before.dispatched
  backpressure := taken.backpressure.trans before.backpressure
  queue := taken.queue.trans before.watermark
  utilization := taken.utilization
  behind := taken.behind
  pressure := taken.pressure

/-- The snapshots of a replay of `n` events, when the statistics are those given. -/
structure Recorded (config : Governed) (n : ℕ) (stats : DispatchStats) (snapshots : List ResourceSnapshot) : Prop where
  times : ∀ (k : ℕ) s, snapshots[k]? = some s → s.published + s.dropped = min ((k + 1) * config.snapshotInterval) n
  ordered : snapshots.Pairwise ResourceSnapshot.Precedes
  within : ∀ s ∈ snapshots, s.TakenBy config.bus stats

variable {config : Governed} {n : ℕ} {stats stats' : DispatchStats} {snapshots : List ResourceSnapshot}

theorem Recorded.grows (recorded : Recorded config n stats snapshots) (before : stats.Before stats') :
    Recorded config n stats' snapshots :=
  ⟨recorded.times, recorded.ordered, fun s member => (recorded.within s member).grows before⟩

/-- A further snapshot is taken. -/
theorem Recorded.capture (recorded : Recorded config n stats snapshots)
    (time : stats.published + stats.dropped = min ((snapshots.length + 1) * config.snapshotInterval) n)
    (coherent : stats.Coherent config.bus 0) (capacity : stats.queueCapacity = config.bus.queueSize) (traced : TracedMemory) :
    Recorded config n stats (snapshots ++ [captureSnapshot stats traced]) where
  times k s found := by
    rcases Nat.lt_trichotomy k snapshots.length with earlier | rfl | beyond
    · rw [List.getElem?_append_left earlier] at found
      exact recorded.times k s found
    · rw [List.getElem?_concat_length] at found
      cases found
      exact time
    · rw [List.getElem?_eq_none (by rw [List.length_append]; exact beyond)] at found
      cases found
  ordered := by
    refine List.pairwise_append.mpr ⟨recorded.ordered, List.pairwise_singleton _ _, fun s member t last => ?_⟩
    obtain rfl := List.mem_singleton.mp last
    have within := recorded.within s member
    exact ⟨within.published, within.dropped, within.dispatched, within.backpressure⟩
  within s member := by
    rcases List.mem_append.mp member with earlier | last
    · exact recorded.within s earlier
    · obtain rfl := List.mem_singleton.mp last
      refine ⟨le_refl _, le_refl _, le_refl _, le_refl _, coherent.lag, ?_, coherent.ahead, coherent.pressure⟩
      have positive := config.bus.queue_pos
      simp only [captureSnapshot, capacity, max_eq_left (Nat.succ_le_of_lt positive)]

end Snapshots

section Report
/-- What a report says of a replay of `n` events. -/
structure Sound (config : Governed) (n : ℕ) (report : ReplayGovernanceReport) : Prop where
  total : report.totalInput = n
  settled : report.published + report.dropped = n
  behind : report.dispatched ≤ report.published
  missing : report.published ≤ report.dispatched + config.bus.workerCount * config.bus.batchSize
  pressure : if config.bus.dropOnFull then report.backpressureCount = report.dropped else report.dropped = 0
  watermark : report.queueHighWatermark ≤ config.bus.queueSize
  count : report.snapshots.length = n / config.snapshotInterval + 1
  times : ∀ (k : ℕ) s, report.snapshots[k]? = some s →
    s.published + s.dropped = min ((k + 1) * config.snapshotInterval) n
  ordered : report.snapshots.Pairwise ResourceSnapshot.Precedes
  within : ∀ s ∈ report.snapshots, s.Within config.bus report.published report.dropped report.dispatched
    report.backpressureCount report.queueHighWatermark
  empty : ∀ s ∈ report.snapshots.getLast?, s.queueSize = 0
  utilization : IsGreatest {x | ∃ s ∈ report.snapshots, s.queueUtilization = x} report.maxQueueUtilization

/-- How the call ends, when the statistics are those given. -/
def Outcome.Closed (config : Governed) (n : ℕ) (s : Shared ω ε) : Outcome → Prop
  | .report made => s.unfinished = 0 ∧ Sound config n made ∧ made.published ≤ s.published ∧ made.dropped ≤ s.dropped
  | .timeoutError _ => True

/-- What the thread has behind it: the snapshots that are due, and the flush. -/
def Main.Past (config : Governed) (n : ℕ) (s : Shared ω ε) (snapshots : List ResourceSnapshot) : Main ε → Prop
  | .looping idx _ => snapshots.length = idx / config.snapshotInterval
  | .publishing idx _ => 0 < idx ∧ snapshots.length = (idx - 1) / config.snapshotInterval
  | .flushing => snapshots.length = n / config.snapshotInterval
  | .drained => snapshots.length = n / config.snapshotInterval ∧ s.unfinished = 0
  | .finishing =>
    snapshots.length = n / config.snapshotInterval + 1 ∧ s.unfinished = 0 ∧ ∀ s ∈ snapshots.getLast?, s.queueSize = 0
  | .stopping outcome | .joining outcome | .ended outcome => outcome.Closed config n s

/-- The state of the call between two steps. -/
structure Governs (config : Governed) (events : List ε) (replay : Replay (Fin config.bus.workerCount) ε) : Prop where
  total : replay.totalInput = events.length
  fed : Fed config.bus events replay.bus replay.main
  recorded : Recorded config events.length (replay.bus.shared.stats config.bus) replay.snapshots
  past : replay.main.Past config events.length replay.bus.shared replay.snapshots

variable {config : Governed} {n : ℕ} {events : List ε} {replay : Replay (Fin config.bus.workerCount) ε}

theorem governs_start (events : List ε) : Governs config events (Replay.start events) where
  total := rfl
  fed := fed_start events
  recorded := ⟨by simp [Replay.start], List.Pairwise.nil, by simp [Replay.start]⟩
  past := (Nat.zero_div _).symm

/-- The statistics between two publications. -/
theorem Governs.coherent (governs : Governs config events replay) (idle : replay.bus.publisher () = .idle) :
    (replay.bus.shared.stats config.bus).Coherent config.bus 0 := by
  obtain ⟨actions, reached⟩ := governs.fed.reached
  have accounts : Accounts config.bus replay.bus := reached ▸ accounts_after actions
  have gauged : Gauged config.bus replay.bus := reached ▸ gauged_after actions
  refine coherent_of_accounts accounts gauged ?_
  rw [Fintype.sum_unique]
  exact (congrArg Publisher.uncounted idle).le

theorem Outcome.Closed.grows {s s' : Shared ω ε} {outcome : Outcome} (closed : outcome.Closed config n s)
    (unfinished : s.unfinished = 0 → s'.unfinished = 0)
    (before : (s.stats config.bus).Before (s'.stats config.bus)) : outcome.Closed config n s' := by
  cases outcome with
  | report made =>
    obtain ⟨drained, sound, published, dropped⟩ := closed
    exact ⟨unfinished drained, sound, published.trans before.published, dropped.trans before.dropped⟩
  | timeoutError => trivial

theorem Main.Past.grows {s s' : Shared ω ε} {snapshots : List ResourceSnapshot} {main : Main ε}
    (past : main.Past config n s snapshots) (unfinished : ¬ main.Publishes → s.unfinished = 0 → s'.unfinished = 0)
    (before : (s.stats config.bus).Before (s'.stats config.bus)) : main.Past config n s' snapshots := by
  cases main with
  | looping | publishing | flushing => exact past
  | drained => exact ⟨past.1, unfinished id past.2⟩
  | finishing => exact ⟨past.1, unfinished id past.2.1, past.2.2⟩
  | stopping outcome | joining outcome | ended outcome => exact Outcome.Closed.grows past (unfinished id) before

/-- The others go on. -/
theorem Governs.others (governs : Governs config events replay)
    (action : Action Unit (Fin config.bus.workerCount) ε) (quiet : ∀ i events, action ≠ .publishMany i events)
    (publisher : (replay.bus.step config.bus action).publisher = replay.bus.publisher)
    (same : (replay.bus.step config.bus action).shared.accepted = replay.bus.shared.accepted ∧
      (replay.bus.step config.bus action).shared.begun = replay.bus.shared.begun) :
    Governs config events { replay with bus := replay.bus.step config.bus action } where
  total := governs.total
  fed := governs.fed.others action publisher same
  recorded := governs.recorded.grows (before_step _ _)
  past := by
    refine governs.past.grows (fun between drained => ?_) (before_step _ _)
    have idle := governs.fed.idle between
    have still : Drained replay.bus := ⟨fun _ => idle, drained⟩
    exact (still.step quiet).unfinished

/-- The thread takes a snapshot. -/
theorem Governs.captured (governs : Governs config events replay) (idle : replay.bus.publisher () = .idle)
    (time : replay.main.idx events.length = min ((replay.snapshots.length + 1) * config.snapshotInterval) events.length)
    (traced : TracedMemory) :
    Recorded config events.length (replay.bus.shared.stats config.bus) (replay.capture config traced).snapshots :=
  governs.recorded.capture ((governs.fed.settled idle).1.trans time) (governs.coherent idle) rfl traced

/-- The report from the statistics after the flush and the last snapshot. -/
theorem Governs.report (governs : Governs config events replay) (main : replay.main = .finishing) (traced : TracedMemory) :
    Sound config events.length (replay.report config traced) := by
  have past := governs.past
  rw [main] at past
  obtain ⟨count, drained, empty⟩ := past
  have idle := governs.fed.idle (by rw [main]; exact id)
  have coherent := governs.coherent idle
  obtain ⟨settled, -⟩ := governs.fed.settled idle
  obtain ⟨actions, reached⟩ := governs.fed.reached
  have accounts : Accounts config.bus replay.bus := reached ▸ accounts_after actions
  have queue : replay.bus.shared.queue.length = 0 := by
    have tasks := accounts.unfinished
    omega
  refine ⟨governs.total, ?_, coherent.ahead, ?_, coherent.pressure, coherent.watermark, count, governs.recorded.times,
    governs.recorded.ordered, governs.recorded.within, empty, ?_⟩
  · rw [main] at settled
    exact settled
  · have inFlight := coherent.inFlight
    simp only [Shared.stats, queue, Nat.add_zero] at inFlight
    exact inFlight
  · have some_ : 0 < replay.snapshots.length := by
      rw [count]
      exact Nat.succ_pos _
    obtain ⟨first, rest, found⟩ := List.exists_cons_of_length_pos some_
    have greatest := Best.isGreatest_foldl_max first.queueUtilization (rest.map ResourceSnapshot.queueUtilization)
    have values : {x | ∃ s ∈ replay.snapshots, s.queueUtilization = x} =
        {x | x ∈ first.queueUtilization :: rest.map ResourceSnapshot.queueUtilization} := by
      ext x
      simp [found, eq_comm]
    have value : Governance.maxQueueUtilization replay.snapshots =
        (rest.map ResourceSnapshot.queueUtilization).foldl max first.queueUtilization := by
      rw [found]
      rfl
    show IsGreatest {x | ∃ s ∈ replay.snapshots, s.queueUtilization = x} (Governance.maxQueueUtilization replay.snapshots)
    rw [values, value]
    exact greatest

/-- The next snapshot is due at the next multiple of the interval. -/
theorem due_of_mod_eq_zero {k interval : ℕ} (positive : 0 < k) (multiple : k % interval = 0) :
    (k - 1) / interval + 1 = k / interval := by
  obtain ⟨k, rfl⟩ : ∃ l, k = l + 1 := ⟨k - 1, by omega⟩
  rw [Nat.succ_div_of_mod_eq_zero multiple, Nat.add_sub_cancel]

theorem not_due_of_mod_ne_zero {k interval : ℕ} (positive : 0 < k) (between : k % interval ≠ 0) :
    (k - 1) / interval = k / interval := by
  obtain ⟨k, rfl⟩ : ∃ l, k = l + 1 := ⟨k - 1, by omega⟩
  rw [Nat.succ_div_of_mod_ne_zero between, Nat.add_sub_cancel]

/-- The thread goes on where nothing is published. -/
theorem Governs.moves (governs : Governs config events replay) (quiet : ¬ replay.main.Publishes) {main : Main ε}
    (idx : main.idx events.length = replay.main.idx events.length) (rest : main.rest = replay.main.rest)
    (past : main.Past config events.length replay.bus.shared replay.snapshots) :
    Governs config events { replay with main } :=
  ⟨governs.total, governs.fed.moves quiet idx rest, governs.recorded, past⟩

theorem unfinished_of_flushRound {s : Shared ω ε} {expired : Bool} (flushed : s.flushRound expired = some true) :
    s.unfinished = 0 := by
  unfold Shared.flushRound at flushed
  split at flushed
  · split at flushed <;> simp at flushed
  · omega

/-- **Step lemma** of the thread. -/
theorem Governs.mainStep (governs : Governs config events replay) (now : ℤ) (expired : Bool) (traced : TracedMemory) :
    Governs config events (replay.mainStep config now expired traced) := by
  have fed := governs.fed
  have past := governs.past
  unfold Replay.mainStep
  cases main : replay.main with
  | looping idx rest =>
    rw [main] at fed past
    have passed := fed.passed
    cases rest with
    | nil =>
      simp only [Main.idx, Main.rest, List.length_nil, Nat.add_zero] at passed
      exact ⟨governs.total, fed.moves id passed.symm rfl, governs.recorded, passed ▸ past⟩
    | cons event rest =>
      exact ⟨governs.total, fed.publishes, governs.recorded.grows (before_step _ _), Nat.succ_pos idx, past⟩
  | publishing idx rest =>
    rw [main] at fed past
    obtain ⟨positive, count⟩ := past
    have passed : idx + rest.length = events.length := fed.passed
    dsimp only
    split
    · rename_i idle
      have looped : Fed config.bus events replay.bus (.looping idx rest) :=
        ⟨fed.reached, fun _ => idle, fed.begun, fed.passed, fed.order, fed.all⟩
      by_cases multiple : idx % config.snapshotInterval = 0
      · have due := due_of_mod_eq_zero positive multiple
        have time : idx = min ((replay.snapshots.length + 1) * config.snapshotInterval) events.length := by
          rw [count, due, Nat.div_mul_cancel (Nat.dvd_of_mod_eq_zero multiple)]
          omega
        simp only [multiple, if_true]
        refine ⟨governs.total, looped, governs.captured idle (by rw [main]; exact time) traced, ?_⟩
        show (replay.snapshots ++ [_]).length = idx / config.snapshotInterval
        rw [List.length_append, count]
        exact due
      · simp only [multiple, if_false]
        exact ⟨governs.total, looped, governs.recorded, count.trans (not_due_of_mod_ne_zero positive multiple)⟩
    · refine ⟨governs.total, ?_, governs.recorded.grows (before_step _ _), ?_⟩
      · exact fed.published now
      · exact ⟨positive, count⟩
  | flushing =>
    rw [main] at past
    have quiet : ¬ replay.main.Publishes := by rw [main]; exact id
    dsimp only
    split
    · exact governs
    · exact governs.moves quiet (by rw [main]; rfl) (by rw [main]; rfl) trivial
    · rename_i flushed
      exact governs.moves quiet (by rw [main]; rfl) (by rw [main]; rfl) ⟨past, unfinished_of_flushRound flushed⟩
  | drained =>
    rw [main] at past
    obtain ⟨count, drained⟩ := past
    have quiet : ¬ replay.main.Publishes := by rw [main]; exact id
    have idle := governs.fed.idle quiet
    obtain ⟨actions, reached⟩ := governs.fed.reached
    have accounts : Accounts config.bus replay.bus := reached ▸ accounts_after actions
    have queue : replay.bus.shared.queue.length = 0 := by
      have tasks := accounts.unfinished
      omega
    have time : events.length = min ((replay.snapshots.length + 1) * config.snapshotInterval) events.length := by
      rw [count, Nat.add_mul, Nat.one_mul]
      exact (min_eq_right (Nat.lt_div_mul_add config.interval_pos).le).symm
    have taken := governs.captured idle (by rw [main]; exact time) traced
    refine ⟨governs.total, governs.fed.moves quiet (by rw [main]; rfl) (by rw [main]; rfl), taken, ?_, drained, ?_⟩
    · show (replay.snapshots ++ [_]).length = events.length / config.snapshotInterval + 1
      rw [List.length_append, count]
      rfl
    · intro s last
      have last : s ∈ (replay.snapshots ++ [captureSnapshot (replay.bus.shared.stats config.bus) traced]).getLast? := last
      rw [List.getLast?_concat] at last
      cases last
      exact queue
  | finishing =>
    have quiet : ¬ replay.main.Publishes := by rw [main]; exact id
    have sound := governs.report main traced
    rw [main] at past
    exact governs.moves quiet (by rw [main]; rfl) (by rw [main]; rfl) ⟨past.2.1, sound, le_refl _, le_refl _⟩
  | stopping outcome =>
    have quiet : ¬ replay.main.Publishes := by rw [main]; exact id
    dsimp only
    split
    · exact governs
    · have stopped := governs.others .stop nofun rfl ⟨rfl, rfl⟩
      have closed := stopped.past
      simp only [main] at closed
      exact stopped.moves quiet (by simp only [main]; rfl) (by simp only [main]; rfl) closed
  | joining outcome =>
    have quiet : ¬ replay.main.Publishes := by rw [main]; exact id
    rw [main] at past
    dsimp only
    split
    · exact governs.moves quiet (by rw [main]; rfl) (by rw [main]; rfl) past
    · exact governs
  | ended outcome => exact governs

/-- **Run lemma**: the call keeps its accounts, whoever moves. -/
theorem governs_after (config : Governed) (events : List ε) (turns : List (Turn (Fin config.bus.workerCount))) :
    Governs config events ((Replay.start events).after config turns) := by
  refine Run.foldl_invariant (fun replay turn _ governs => ?_) (governs_start events)
  cases turn with
  | main now expired traced => exact governs.mainStep now expired traced
  | worker w now => exact governs.others (.worker w now false) nofun rfl (workerStep_fed w now false _)

/-- What holds when the call returns its report. -/
theorem Governs.ended (governs : Governs config events replay) {report : ReplayGovernanceReport}
    (ended : replay.main = .ended (.report report)) :
    Sound config events.length report ∧ report.published = replay.bus.shared.accepted.length ∧
      replay.bus.shared.accepted.Sublist events ∧ (config.bus.dropOnFull = false → replay.bus.shared.accepted = events) ∧
      (∀ number < report.published, replay.bus.shared.handedNumbers.count number = 1) ∧
      ∀ handing ∈ replay.bus.shared.handed, handing.2.Genuine replay.bus.shared.accepted := by
  have fed := governs.fed
  have past := governs.past
  rw [ended] at past fed
  obtain ⟨drained, sound, published, dropped⟩ := past
  have idle := fed.idle id
  obtain ⟨settled, counted⟩ := fed.settled idle
  have settled : replay.bus.shared.published + replay.bus.shared.dropped = events.length := settled
  have total := sound.settled
  have same : report.published = replay.bus.shared.accepted.length := by omega
  have order := fed.order
  have all := fed.all
  simp only [idle, toPut, Main.rest, List.append_nil] at order all
  obtain ⟨actions, reached⟩ := fed.reached
  have accounts : Accounts config.bus replay.bus := reached ▸ accounts_after actions
  have placed : Placed replay.bus := reached ▸ placed_after actions
  have genuine : Genuine replay.bus := reached ▸ genuine_after actions
  refine ⟨sound, same, order, all, fun number within => ?_, genuine.handed⟩
  -- nothing is left in the queue or with a worker
  have tasks := accounts.unfinished
  have place := placed number
  have queue : replay.bus.shared.queue = [] := List.eq_nil_of_length_eq_zero (by omega)
  have held : ∑ w, (numbers (replay.bus.worker w).held).count number = 0 := by
    refine Finset.sum_eq_zero fun w _ => ?_
    have least := Parties.le_sum (fun p : Worker ε => p.held.length) replay.bus.worker w
    have none_ : (replay.bus.worker w).held = [] := List.eq_nil_of_length_eq_zero (by omega)
    rw [none_]
    rfl
  rw [if_pos (same ▸ within), Bus.places, queue, held] at place
  simpa [numbers] using place

end Report

/-- **The governance report**, whatever the workers do in between. The published and the
dropped events are all events of the input, also at every snapshot for the events up
to it, one snapshot for each `snapshot_interval` events and one at the end; the
snapshots are of one growing history, with no more in the queue than the watermark;
the back-pressure counts the drops, and nothing is dropped when the bus waits for
room. The published events are a sub-list of the input, each has reached the
handlers once, and at most one batch for each worker is missing in `dispatched`. -/
theorem replay_governance (config : Governed) (events : List ε) (turns : List (Turn (Fin config.bus.workerCount)))
    {report : ReplayGovernanceReport} (ended : ((Replay.start events).after config turns).main = .ended (.report report)) :
    let bus := ((Replay.start events).after config turns).bus
    Sound config events.length report ∧ report.published = bus.shared.accepted.length ∧
      bus.shared.accepted.Sublist events ∧ (config.bus.dropOnFull = false → bus.shared.accepted = events) ∧
      (∀ number < report.published, bus.shared.handedNumbers.count number = 1) ∧
      ∀ handing ∈ bus.shared.handed, handing.2.Genuine bus.shared.accepted :=
  (governs_after config events turns).ended ended

/-- A replay on a bus with one worker, with a snapshot after every event. -/
def everyEvent : Governed := ⟨single, 1, Nat.one_pos⟩

/-- The thread publishes one event, the worker hands it on, and the thread finishes. -/
def oneEvent : List (Turn (Fin everyEvent.bus.workerCount)) :=
  List.replicate 7 (.main 0 true ⟨1024, 2048⟩) ++ List.replicate 4 (.worker onlyWorker 0) ++
    List.replicate 6 (.main 0 true ⟨1024, 2048⟩)

theorem replay_governance_one :
    ∃ report, ((Replay.start [()]).after everyEvent oneEvent).main = .ended (.report report) ∧
      report.published = 1 ∧ report.snapshots.length = 2 := by
  obtain ⟨report, ended⟩ : ∃ report, ((Replay.start [()]).after everyEvent oneEvent).main = .ended (.report report) :=
    ⟨_, rfl⟩
  obtain ⟨sound, published, -⟩ := replay_governance everyEvent [()] oneEvent ended
  exact ⟨report, ended, published, sound.count⟩

section Progress
variable {config : Governed} {replay : Replay (Fin config.bus.workerCount) ε}

/-- Steps of the thread up to the end of its call of `publish`, on a bus that drops. -/
def publishing : Publisher ε → ℕ
  | .idle => 0
  | .looping [] => 1
  | .counting _ | .refused _ => 2
  | .putting .. => 3
  | .looping (_ :: _) => 4
  | .pressed .. | .blocked .. => 5

/-- Steps of the thread up to the flush. -/
def remaining (publisher : Publisher ε) : Main ε → ℕ
  | .looping _ rest => 6 * rest.length + 1
  | .publishing _ rest => 6 * rest.length + 2 + publishing publisher
  | _ => 0

/-- A turn of the thread of the replay. -/
def Turn.isMain : Turn ω → Bool
  | .main .. => true
  | .worker .. => false

/-- A call of `publish` has one event. -/
def Single : Publisher ε → Prop
  | .idle | .looping [] | .looping [_] => True
  | .looping _ => False
  | .counting rest | .refused rest | .putting _ _ rest | .pressed _ _ rest | .blocked _ _ rest => rest = []

theorem publisherStep_single (now : ℤ) (s : Shared ω ε) {p : Publisher ε} (single : Single p) :
    Single (publisherStep config.bus now s p).2 := by
  cases p with
  | idle => trivial
  | looping rest =>
    match rest, single with
    | [], _ => trivial
    | [event], _ => rfl
  | putting ts event rest =>
    simp only [publisherStep]
    split <;> split <;> exact single
  | pressed ts event rest => exact single
  | blocked ts event rest =>
    simp only [publisherStep]
    split <;> exact single
  | counting rest | refused rest =>
    obtain rfl : rest = [] := single
    trivial

/-- On a bus that drops, a call of `publish` waits for nobody. -/
theorem publisherStep_nearer (drops : config.bus.dropOnFull = true) (now : ℤ) (s : Shared ω ε) {p : Publisher ε}
    (single : Single p) (follows : p.Follows config.bus) (busy : p ≠ .idle) :
    publishing (publisherStep config.bus now s p).2 < publishing p := by
  cases p with
  | idle => exact absurd rfl busy
  | looping rest =>
    match rest, single with
    | [], _ => exact Nat.one_pos
    | [event], _ => exact Nat.lt_succ_self _
  | putting ts event rest =>
    simp only [publisherStep, drops, if_true]
    split <;> exact Nat.lt_succ_self _
  | pressed ts event rest | blocked ts event rest => exact absurd (drops.symm.trans follows) (by simp)
  | counting rest | refused rest =>
    obtain rfl : rest = [] := single
    exact Nat.lt_succ_self _

/-- **Step lemma**: a turn of the thread brings the flush nearer. -/
theorem Governs.nearer {events : List ε} (governs : Governs config events replay) (drops : config.bus.dropOnFull = true)
    (single : Single (replay.bus.publisher ())) (turn : Turn (Fin config.bus.workerCount)) :
    Single ((replay.step config turn).bus.publisher ()) ∧
      remaining ((replay.step config turn).bus.publisher ()) (replay.step config turn).main ≤
        remaining (replay.bus.publisher ()) replay.main - if turn.isMain then 1 else 0 := by
  cases turn with
  | worker w now => exact ⟨single, le_refl _⟩
  | main now expired traced =>
    simp only [Replay.step, Turn.isMain, if_true]
    unfold Replay.mainStep
    cases main : replay.main with
    | looping idx rest =>
      cases rest with
      | nil => exact ⟨single, Nat.zero_le _⟩
      | cons event rest =>
        have idle := governs.fed.idle (by rw [main]; exact id)
        simp only [Bus.step, idle, Function.update_self, Single, remaining, publishing, List.length_cons, true_and]
        omega
    | publishing idx rest =>
      dsimp only
      split
      · rename_i idle
        refine ⟨?_, ?_⟩
        · split <;> exact single
        · simp only [remaining, idle, publishing]
          omega
      · rename_i busy
        obtain ⟨actions, reached⟩ := governs.fed.reached
        have gauged : Gauged config.bus replay.bus := reached ▸ gauged_after actions
        have nearer := publisherStep_nearer drops now replay.bus.shared single (gauged.publishers ()) busy
        simp only [Bus.step, Function.update_self, remaining]
        exact ⟨publisherStep_single now _ single, by omega⟩
    | flushing =>
      dsimp only
      split <;> exact ⟨single, by simp [main, remaining]⟩
    | drained | finishing | ended outcome => exact ⟨single, by simp [main, remaining]⟩
    | stopping outcome =>
      dsimp only
      split <;> exact ⟨single, by simp [main, remaining]⟩
    | joining outcome =>
      dsimp only
      split <;> exact ⟨single, by simp [main, remaining]⟩

/-- **The loop does not wait**: on a bus that drops, the thread has published its `n` events
after `6 * n + 1` turns of its own, whatever the workers do and even if they do
nothing. -/
theorem replay_reaches_flush (config : Governed) (drops : config.bus.dropOnFull = true) (events : List ε)
    (turns : List (Turn (Fin config.bus.workerCount))) (enough : 6 * events.length + 1 ≤ turns.countP Turn.isMain) :
    let replay := (Replay.start events).after config turns
    replay.bus.shared.published + replay.bus.shared.dropped = events.length ∧
      ∀ idx rest, replay.main ≠ .looping idx rest ∧ replay.main ≠ .publishing idx rest := by
  intro replay
  have near : ∀ turns : List (Turn (Fin config.bus.workerCount)),
      Single (((Replay.start events).after config turns).bus.publisher ()) ∧
      remaining (((Replay.start events).after config turns).bus.publisher ()) ((Replay.start events).after config turns).main ≤
        6 * events.length + 1 - turns.countP Turn.isMain := by
    intro turns
    induction turns using List.reverseRecOn with
    | nil => exact ⟨trivial, le_refl _⟩
    | append_singleton turns turn ih =>
      obtain ⟨single, near⟩ := ih
      obtain ⟨single', nearer⟩ := (governs_after config events turns).nearer drops single turn
      have stepped : (Replay.start events).after config (turns ++ [turn]) =
          ((Replay.start events).after config turns).step config turn := List.foldl_append
      rw [stepped, List.countP_append, List.countP_singleton]
      exact ⟨single', by omega⟩
  have done : remaining (replay.bus.publisher ()) replay.main = 0 := by
    have last := (near turns).2
    show remaining (((Replay.start events).after config turns).bus.publisher ()) ((Replay.start events).after config turns).main = 0
    omega
  have past : ∀ idx rest, replay.main ≠ .looping idx rest ∧ replay.main ≠ .publishing idx rest := by
    intro idx rest
    constructor
    · intro looping
      simp [looping, remaining] at done
    · intro publishing
      simp [publishing, remaining] at done
  have fed : Fed config.bus events replay.bus replay.main := (governs_after config events turns).fed
  have quiet : ¬ replay.main.Publishes := by
    intro publishes
    cases main : replay.main with
    | publishing idx rest => exact (past idx rest).2 main
    | _ => simp [main, Main.Publishes] at publishes
  have idx : replay.main.idx events.length = events.length := by
    cases main : replay.main with
    | looping idx rest => exact absurd main (past idx rest).1
    | publishing idx rest => exact absurd main (past idx rest).2
    | _ => rfl
  exact ⟨(fed.settled (fed.idle quiet)).1.trans idx, past⟩

/-- The worker does nothing at all. -/
def alone : List (Turn (Fin everyEvent.bus.workerCount)) := List.replicate 7 (.main 0 false ⟨0, 0⟩)

theorem replay_reaches_flush_alone :
    let replay := (Replay.start [()]).after everyEvent alone
    replay.bus.shared.published + replay.bus.shared.dropped = 1 :=
  (replay_reaches_flush everyEvent rfl [()] alone (by decide)).1

end Progress

end CryptoQuant.Governance
