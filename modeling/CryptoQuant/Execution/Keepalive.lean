import CryptoQuant.Basic
import CryptoQuant.Lib.Run

/-!
# The keepalive loop

`KeepaliveRunner` of `execution/user_stream_runtime.py`: a loop that keeps a
listen key alive, counts and backs off on a failure, and rebuilds the key after
several of them. The rebuild calls the provider from inside the handler, where
nothing catches what it raises.
-/

namespace CryptoQuant
set_option autoImplicit false

/-- `ListenKeyResettableProvider`, over the provider's own state. A call answers
or raises an exception, here its text. -/
structure ListenKeyResettableProvider (π : Type) where
  clearCachedListenKey : π → Except String Unit × π
  getListenKey : π → Except String String × π

/-- `KeepaliveProvider`, and the calls it has when it is also resettable. -/
structure KeepaliveProvider (π : Type) where
  keepalive : π → Except String String × π
  resettable : Option (ListenKeyResettableProvider π) := none

/-- `KeepaliveStats`. -/
structure KeepaliveStats where
  successCount : ℕ
  failureCount : ℕ
  lastError : Option String

/-- The settings of `KeepaliveRunner`. -/
structure KeepaliveSettings where
  intervalSec : ℚ := 30 * 60
  failureBackoffInitialSec : ℚ := 1
  failureBackoffMaxSec : ℚ := 30
  maxConsecutiveFailuresBeforeRebuild : ℤ := 2

/-- `KeepaliveRunner`, with the state of its provider. The callbacks and
`sleep_fn` are the lists of what they have received. -/
structure KeepaliveRunner (π : Type) where
  provider : π
  settings : KeepaliveSettings := {}
  successCount : ℕ := 0
  failureCount : ℕ := 0
  lastError : Option String := none
  consecutiveFailures : ℕ := 0
  onFailure : Option (List KeepaliveStats) := none
  onRebuild : Option (List (String × KeepaliveStats)) := none
  sleeps : List ℚ := []

namespace KeepaliveRunner
variable {π : Type}

/-- `stats`. -/
def stats (r : KeepaliveRunner π) : KeepaliveStats := ⟨r.successCount, r.failureCount, r.lastError⟩

/-- `sleep_fn(seconds)`. -/
def sleep (r : KeepaliveRunner π) (seconds : ℚ) : KeepaliveRunner π := { r with sleeps := r.sleeps ++ [seconds] }

/-- What the loop writes after a successful `keepalive`. -/
def kept (r : KeepaliveRunner π) (provider : π) : KeepaliveRunner π :=
  { r with provider, successCount := r.successCount + 1, consecutiveFailures := 0, lastError := none }

/-- What the handler writes and reports before it considers a rebuild. -/
def failed (r : KeepaliveRunner π) (provider : π) (error : String) : KeepaliveRunner π :=
  let r := { r with provider, failureCount := r.failureCount + 1, consecutiveFailures := r.consecutiveFailures + 1,
                    lastError := some error }
  { r with onFailure := r.onFailure.map (· ++ [r.stats]) }

/-- `_maybe_rebuild_after_failure`. -/
def maybeRebuildAfterFailure (provider : KeepaliveProvider π) (r : KeepaliveRunner π) (stats : KeepaliveStats) :
    Except String Unit × KeepaliveRunner π :=
  if (r.consecutiveFailures : ℤ) < r.settings.maxConsecutiveFailuresBeforeRebuild then (.ok (), r)
  else
    match provider.resettable with
    | none => (.ok (), { r with consecutiveFailures := 0 })
    | some resettable =>
      match resettable.clearCachedListenKey r.provider with
      | (.error e, p) => (.error e, { r with provider := p })
      | (.ok (), p) =>
        match resettable.getListenKey p with
        | (.error e, p) => (.error e, { r with provider := p })
        | (.ok newListenKey, p) =>
          (.ok (), { r with provider := p, consecutiveFailures := 0,
                            onRebuild := r.onRebuild.map (· ++ [(newListenKey, stats)]) })

end KeepaliveRunner

/-! ## The loop -/

/-- How far `run_forever` has come. -/
inductive LoopPhase
  | running
  | stopped
  | raised (error : String)
deriving DecidableEq

/-- What `stop_event.is_set()` answers at the head of a turn and after a failure. -/
structure StopReadings where
  atHead : Bool := false
  afterFailure : Bool := false

/-- The locals of `run_forever`. -/
structure KeepaliveLoop (π : Type) where
  runner : KeepaliveRunner π
  backoff : ℚ
  phase : LoopPhase := .running

namespace KeepaliveLoop
variable {π : Type}

/-- One turn of the loop of `run_forever`. -/
def turn (provider : KeepaliveProvider π) (loop : KeepaliveLoop π) (stop : StopReadings) : KeepaliveLoop π :=
  match loop.phase with
  | .running =>
    if stop.atHead then { loop with phase := .stopped }
    else
      match provider.keepalive loop.runner.provider with
      | (.ok _, p) =>
        { loop with runner := (loop.runner.kept p).sleep loop.runner.settings.intervalSec,
                    backoff := loop.runner.settings.failureBackoffInitialSec }
      | (.error e, p) =>
        let runner := loop.runner.failed p e
        match runner.maybeRebuildAfterFailure provider runner.stats with
        | (.error e, runner) => { loop with runner, phase := .raised e }
        | (.ok (), runner) =>
          if stop.afterFailure then { loop with runner, phase := .stopped }
          else { loop with runner := runner.sleep loop.backoff,
                           backoff := min (loop.backoff * 2) loop.runner.settings.failureBackoffMaxSec }
  | _ => loop

/-- `run_forever`, as far as these readings of the stop event take it. -/
def runForever (provider : KeepaliveProvider π) (runner : KeepaliveRunner π) (stops : List StopReadings) :
    KeepaliveLoop π :=
  stops.foldl (turn provider) { runner, backoff := runner.settings.failureBackoffInitialSec }

/-! ## What one turn can do -/

/-- The keepalive of this turn fails, calls for a rebuild, and the rebuild fails
as well: the key cannot be cleared, or no new one can be had. -/
def RebuildFails (provider : KeepaliveProvider π) (loop : KeepaliveLoop π) : Prop :=
  ∃ e p resettable, provider.keepalive loop.runner.provider = (.error e, p) ∧
    loop.runner.settings.maxConsecutiveFailuresBeforeRebuild ≤ loop.runner.consecutiveFailures + 1 ∧
    provider.resettable = some resettable ∧
    ((∃ e' p', resettable.clearCachedListenKey p = (.error e', p')) ∨
      ∃ p' e' p'', resettable.clearCachedListenKey p = (.ok (), p') ∧ resettable.getListenKey p' = (.error e', p''))

/-- What a failure has made of the runner: it is counted, and nothing has been
slept yet. -/
structure Counted (before after : KeepaliveRunner π) : Prop where
  settings : after.settings = before.settings
  failureCount : after.failureCount = before.failureCount + 1
  sleeps : after.sleeps = before.sleeps

/-- **What a turn can do**, by the stop event and the provider's answers. -/
inductive Turned (provider : KeepaliveProvider π) (loop : KeepaliveLoop π) (stop : StopReadings) :
    KeepaliveLoop π → Prop
  | idle (ended : loop.phase ≠ .running) : Turned provider loop stop loop
  | halted (running : loop.phase = .running) (set : stop.atHead = true) :
      Turned provider loop stop { loop with phase := .stopped }
  | kept (key : String) (p : π) (running : loop.phase = .running) (clear : stop.atHead = false)
      (alive : provider.keepalive loop.runner.provider = (.ok key, p)) :
      Turned provider loop stop
        { loop with runner := (loop.runner.kept p).sleep loop.runner.settings.intervalSec,
                    backoff := loop.runner.settings.failureBackoffInitialSec }
  | raised (runner : KeepaliveRunner π) (error : String) (running : loop.phase = .running)
      (clear : stop.atHead = false) (counted : Counted loop.runner runner) (fails : RebuildFails provider loop) :
      Turned provider loop stop { loop with runner, phase := .raised error }
  | haltedAfter (runner : KeepaliveRunner π) (e : String) (p : π) (running : loop.phase = .running)
      (clear : stop.atHead = false) (failed : provider.keepalive loop.runner.provider = (.error e, p))
      (counted : Counted loop.runner runner) (rebuilt : ¬ RebuildFails provider loop) (set : stop.afterFailure = true) :
      Turned provider loop stop { loop with runner, phase := .stopped }
  | backedOff (runner : KeepaliveRunner π) (e : String) (p : π) (running : loop.phase = .running)
      (clear : stop.atHead = false) (failed : provider.keepalive loop.runner.provider = (.error e, p))
      (counted : Counted loop.runner runner) (rebuilt : ¬ RebuildFails provider loop)
      (clearAfter : stop.afterFailure = false) :
      Turned provider loop stop
        { loop with runner := runner.sleep loop.backoff,
                    backoff := min (loop.backoff * 2) loop.runner.settings.failureBackoffMaxSec }

section Turn
variable {provider : KeepaliveProvider π} {loop : KeepaliveLoop π} {stop : StopReadings}

/-- The handler of a failed keepalive returns unless the rebuild fails. -/
theorem handler_cases {e : String} {p : π} (failed : provider.keepalive loop.runner.provider = (.error e, p)) :
    ∃ runner, Counted loop.runner runner ∧
      let runner' := loop.runner.failed p e
      ((runner'.maybeRebuildAfterFailure provider runner'.stats = (.ok (), runner) ∧ ¬ RebuildFails provider loop) ∨
        ∃ error, runner'.maybeRebuildAfterFailure provider runner'.stats = (.error error, runner) ∧
          RebuildFails provider loop) := by
  have counted (q : π) (failures : ℕ) (onRebuild : Option (List (String × KeepaliveStats))) : Counted loop.runner
      { loop.runner.failed p e with provider := q, consecutiveFailures := failures, onRebuild := onRebuild } :=
    ⟨rfl, rfl, rfl⟩
  simp only
  unfold KeepaliveRunner.maybeRebuildAfterFailure
  by_cases few : ((loop.runner.failed p e).consecutiveFailures : ℤ) <
      (loop.runner.failed p e).settings.maxConsecutiveFailuresBeforeRebuild
  · rw [if_pos few]
    refine ⟨_, counted p _ _, .inl ⟨rfl, ?_⟩⟩
    rintro ⟨_, _, _, -, enough, -⟩
    exact absurd few (not_lt.mpr enough)
  rw [if_neg few]
  cases reset : provider.resettable with
  | none =>
    refine ⟨_, counted p 0 _, .inl ⟨rfl, ?_⟩⟩
    rintro ⟨_, _, _, -, -, resettable, -⟩
    rw [reset] at resettable
    cases resettable
  | some resettable =>
    simp only
    have provider_ : (loop.runner.failed p e).provider = p := rfl
    rw [provider_]
    -- A rebuild that fails does so for these answers: those of this very turn.
    have fails (answers : (∃ e' p', resettable.clearCachedListenKey p = (.error e', p')) ∨
        ∃ p' e' p'', resettable.clearCachedListenKey p = (.ok (), p') ∧ resettable.getListenKey p' = (.error e', p'')) :
        RebuildFails provider loop := ⟨e, p, resettable, failed, not_lt.mp few, reset, answers⟩
    rcases cleared : resettable.clearCachedListenKey p with ⟨e' | ⟨⟩, p'⟩
    · exact ⟨_, counted p' _ _, .inr ⟨e', rfl, fails (.inl ⟨e', p', cleared⟩)⟩⟩
    · simp only
      rcases fetched : resettable.getListenKey p' with ⟨e' | key, p''⟩
      · exact ⟨_, counted p'' _ _, .inr ⟨e', rfl, fails (.inr ⟨p', e', p'', cleared, fetched⟩)⟩⟩
      · refine ⟨_, counted p'' 0 _, .inl ⟨rfl, ?_⟩⟩
        rintro ⟨_, q, other, again, -, reset', answers⟩
        rw [failed] at again
        cases again
        rw [reset] at reset'
        cases reset'
        rcases answers with ⟨_, _, refused⟩ | ⟨_, _, _, cleared', refused⟩
        · rw [cleared] at refused
          cases refused
        · rw [cleared] at cleared'
          cases cleared'
          rw [fetched] at refused
          cases refused

theorem turn_turned (provider : KeepaliveProvider π) (loop : KeepaliveLoop π) (stop : StopReadings) :
    Turned provider loop stop (turn provider loop stop) := by
  obtain ⟨runner, backoff, phase⟩ := loop
  unfold turn
  cases phase with
  | stopped => exact .idle (by simp)
  | raised e => exact .idle (by simp)
  | running =>
    simp only
    cases set : stop.atHead with
    | true => exact .halted rfl set
    | false =>
      simp only [Bool.false_eq_true, if_false]
      rcases answer : provider.keepalive runner.provider with ⟨e | key, p⟩
      · obtain ⟨runner', counted, ⟨returned, rebuilt⟩ | ⟨error, raised, fails⟩⟩ :=
          @handler_cases π provider ⟨runner, backoff, .running⟩ e p answer
        · simp only [returned]
          cases setAfter : stop.afterFailure with
          | true => exact .haltedAfter runner' e p rfl set answer counted rebuilt setAfter
          | false => exact .backedOff runner' e p rfl set answer counted rebuilt setAfter
        · simp only [raised]
          exact .raised runner' error rfl set counted fails
      · exact .kept key p rfl set answer

/-- A running turn whose keepalive fails either raises from its rebuild or, with
no rebuild failing, stops or backs off. -/
theorem Turned.failed_cases {result : KeepaliveLoop π} (turned : Turned provider loop stop result)
    (running : loop.phase = .running) (clear : stop.atHead = false) {e : String} {p : π}
    (failed : provider.keepalive loop.runner.provider = (.error e, p)) :
    ∃ runner, Counted loop.runner runner ∧
      ((RebuildFails provider loop ∧ ∃ error, result = { loop with runner, phase := .raised error }) ∨
        ¬ RebuildFails provider loop ∧
          ((stop.afterFailure = true ∧ result = { loop with runner, phase := .stopped }) ∨
            stop.afterFailure = false ∧
              result = { loop with runner := runner.sleep loop.backoff,
                                   backoff := min (loop.backoff * 2) loop.runner.settings.failureBackoffMaxSec })) := by
  cases turned with
  | idle ended => exact absurd running ended
  | halted _ set =>
    rw [clear] at set
    cases set
  | kept key q _ _ alive =>
    rw [alive] at failed
    cases failed
  | raised runner error _ _ counted fails => exact ⟨runner, counted, .inl ⟨fails, error, rfl⟩⟩
  | haltedAfter runner _ _ _ _ _ counted rebuilt set => exact ⟨runner, counted, .inr ⟨rebuilt, .inl ⟨set, rfl⟩⟩⟩
  | backedOff runner _ _ _ _ _ counted rebuilt clearAfter =>
    exact ⟨runner, counted, .inr ⟨rebuilt, .inr ⟨clearAfter, rfl⟩⟩⟩

/-- The back-off never exceeds the larger of its two settings. -/
structure Bounded (settings : KeepaliveSettings) (loop : KeepaliveLoop π) : Prop where
  same : loop.runner.settings = settings
  backoff : loop.backoff ≤ max settings.failureBackoffInitialSec settings.failureBackoffMaxSec

theorem Bounded.turn {settings : KeepaliveSettings} (bounded : Bounded settings loop) :
    Bounded settings (turn provider loop stop) := by
  obtain ⟨same, backoff⟩ := bounded
  have outcome := turn_turned provider loop stop
  generalize KeepaliveLoop.turn provider loop stop = result at outcome
  cases outcome with
  | idle => exact ⟨same, backoff⟩
  | halted => exact ⟨same, backoff⟩
  | kept => exact ⟨same, by rw [same]; exact le_max_left _ _⟩
  | raised runner error running clear counted => exact ⟨counted.settings.trans same, backoff⟩
  | haltedAfter runner e p running clear failed counted => exact ⟨counted.settings.trans same, backoff⟩
  | backedOff runner e p running clear failed counted =>
    exact ⟨counted.settings.trans same, by rw [same]; exact (min_le_right _ _).trans (le_max_right _ _)⟩

/-- The turn survives what the provider does: the loop ends only where the stop
event is set, and a failure is counted and slept over for a bounded time. -/
structure Survives (provider : KeepaliveProvider π) (loop : KeepaliveLoop π) (stop : StopReadings) : Prop where
  ends : (KeepaliveLoop.turn provider loop stop).phase ≠ .running →
    (KeepaliveLoop.turn provider loop stop).phase = .stopped ∧ (stop.atHead = true ∨ stop.afterFailure = true)
  counted : ∀ e p, stop.atHead = false → provider.keepalive loop.runner.provider = (.error e, p) →
    (KeepaliveLoop.turn provider loop stop).runner.failureCount = loop.runner.failureCount + 1
  slept : ∀ e p, stop.atHead = false → provider.keepalive loop.runner.provider = (.error e, p) →
    stop.afterFailure = false → ∃ seconds,
      (KeepaliveLoop.turn provider loop stop).runner.sleeps = loop.runner.sleeps ++ [seconds] ∧
        seconds ≤ max loop.runner.settings.failureBackoffInitialSec loop.runner.settings.failureBackoffMaxSec

/-- A turn survives exactly when no rebuild fails in it. -/
theorem survives_iff {settings : KeepaliveSettings} (bounded : Bounded settings loop) (running : loop.phase = .running) :
    Survives provider loop stop ↔ (stop.atHead = false → ¬ RebuildFails provider loop) := by
  have outcome := turn_turned provider loop stop
  constructor
  · intro survives clear fails
    have ⟨e, p, _, failed, _⟩ := fails
    obtain ⟨runner, -, ⟨-, error, raised⟩ | ⟨rebuilt, -⟩⟩ := outcome.failed_cases running clear failed
    · have ends := survives.ends
      rw [raised] at ends
      cases (ends (by simp)).1
    · exact rebuilt fails
  · intro rebuilds
    have bound : loop.backoff ≤ max loop.runner.settings.failureBackoffInitialSec
        loop.runner.settings.failureBackoffMaxSec := bounded.same ▸ bounded.backoff
    generalize result_ : KeepaliveLoop.turn provider loop stop = result at outcome
    refine ⟨?_, ?_, ?_⟩ <;> rw [result_]
    · intro ended
      cases outcome with
      | idle idle => exact absurd running idle
      | halted _ set => exact ⟨rfl, .inl set⟩
      | kept => exact absurd running ended
      | raised _ _ _ clear _ fails => exact absurd fails (rebuilds clear)
      | haltedAfter _ _ _ _ _ _ _ _ set => exact ⟨rfl, .inr set⟩
      | backedOff => exact absurd running ended
    · intro e p clear failed
      obtain ⟨runner, counted, ⟨-, error, rfl⟩ | ⟨-, ⟨-, rfl⟩ | ⟨-, rfl⟩⟩⟩ := outcome.failed_cases running clear failed
      · exact counted.failureCount
      · exact counted.failureCount
      · exact counted.failureCount
    · intro e p clear failed clearAfter
      obtain ⟨runner, counted, ⟨fails, -⟩ | ⟨-, ⟨set, -⟩ | ⟨-, rfl⟩⟩⟩ := outcome.failed_cases running clear failed
      · exact absurd fails (rebuilds clear)
      · rw [clearAfter] at set
        cases set
      · refine ⟨loop.backoff, ?_, bound⟩
        show runner.sleeps ++ [loop.backoff] = _
        rw [counted.sleeps]

end Turn

/-! ## Runs -/

section Run
variable (provider : KeepaliveProvider π) (runner : KeepaliveRunner π) (stops : List StopReadings)

/-- Every turn of the run survives. -/
def RunSurvives : Prop :=
  ∀ done stop rest, stops = done ++ stop :: rest → (runForever provider runner done).phase = .running →
    Survives provider (runForever provider runner done) stop

/-- No rebuild of the run fails. -/
def RebuildsSucceed : Prop :=
  ∀ done stop rest, stops = done ++ stop :: rest → (runForever provider runner done).phase = .running →
    stop.atHead = false → ¬ RebuildFails provider (runForever provider runner done)

theorem bounded_after : Bounded runner.settings (runForever provider runner stops) :=
  Run.foldl_invariant (P := Bounded runner.settings) (fun _ _ _ bounded => bounded.turn) ⟨rfl, le_max_left _ _⟩

/-- **The keepalive loop survives its provider** exactly when no rebuild fails. -/
theorem run_survives_iff : RunSurvives provider runner stops ↔ RebuildsSucceed provider runner stops := by
  have turnwise (done : List StopReadings) (stop : StopReadings)
      (running : (runForever provider runner done).phase = .running) :=
    @survives_iff π provider _ stop _ (bounded_after provider runner done) running
  constructor
  · intro survives done stop rest split running
    exact (turnwise done stop running).mp (survives done stop rest split running)
  · intro rebuilds done stop rest split running
    exact (turnwise done stop running).mpr (rebuilds done stop rest split running)

end Run

/-- A provider whose exchange is out of reach: only clearing the cached key works. -/
def unreachable : KeepaliveProvider Unit where
  keepalive _ := (.error "timed out", ())
  resettable := some ⟨fun _ => (.ok (), ()), fun _ => (.error "timed out", ())⟩

/-- The second failure calls for a rebuild, and its exception ends the loop. -/
theorem run_raises_unreachable : ¬ RunSurvives unreachable { provider := () } [{}, {}] := by
  intro survives
  have running : (runForever unreachable { provider := () } [{}]).phase = .running := by decide +kernel
  have raised : (turn unreachable (runForever unreachable { provider := () } [{}]) {}).phase = .raised "timed out" := by
    decide +kernel
  have ends := (survives [{}] {} [] rfl running).ends
  rw [raised] at ends
  cases (ends (by simp)).1

end KeepaliveLoop

end CryptoQuant
