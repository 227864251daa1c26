import CryptoQuant.Execution.UserStreamBinance
import Mathlib.Logic.Function.Iterate

/-!
# Reconnect requests

`BinanceUserStreamService` of `execution/user_stream_runtime.py`: the client's
thread and the keepalive thread take turns in any order, over one provider. A
rebuilt listen key is announced to the client by `reconnect()`, a flag that the
client lowers when it has a new socket.
-/

namespace CryptoQuant.UserStream
set_option autoImplicit false

/-! ## The keepalive thread -/

/-- What the thread of `KeepaliveRunner.run_forever` does next. -/
inductive KeepalivePc (π : Type)
  | head                                  -- `while not stop_event.is_set()`
  | keepalive                             -- `provider.keepalive()`
  | clearing (provider : ListenKeyResettableProvider π) (stats : KeepaliveStats)
  | fetching (provider : ListenKeyResettableProvider π) (stats : KeepaliveStats)
  | rebuilt (newListenKey : String) (stats : KeepaliveStats)  -- `on_rebuild(...)`
  | afterFailure                          -- `if stop_event.is_set()`

/-- The loop of the runner, cut at the points where another thread can come in. -/
structure KeepaliveThread (π : Type) where
  loop : KeepaliveLoop π
  pc : KeepalivePc π := .head

namespace KeepaliveThread
variable {π : Type}

/-- The thread goes on from here with this runner. -/
def goto (t : KeepaliveThread π) (runner : KeepaliveRunner π) (pc : KeepalivePc π) : KeepaliveThread π :=
  { loop := { t.loop with runner }, pc }

/-- The loop is left. -/
def leave (t : KeepaliveThread π) (phase : LoopPhase) : KeepaliveThread π :=
  { t with loop := { t.loop with phase } }

/-- The next action of `run_forever` and `_maybe_rebuild_after_failure`. -/
def step (provider : KeepaliveProvider π) (stopEvent : Bool) (t : KeepaliveThread π) : KeepaliveThread π :=
  let runner := t.loop.runner
  match t.loop.phase with
  | .running =>
    match t.pc with
    | .head => if stopEvent then t.leave .stopped else { t with pc := .keepalive }
    | .keepalive =>
      match provider.keepalive runner.provider with
      | (.ok _, p) =>
        { loop := { t.loop with runner := (runner.kept p).sleep runner.settings.intervalSec,
                                backoff := runner.settings.failureBackoffInitialSec }
          pc := .head }
      | (.error e, p) =>
        let runner := runner.failed p e
        if (runner.consecutiveFailures : ℤ) < runner.settings.maxConsecutiveFailuresBeforeRebuild then
          t.goto runner .afterFailure
        else
          match provider.resettable with
          | none => t.goto { runner with consecutiveFailures := 0 } .afterFailure
          | some resettable => t.goto runner (.clearing resettable runner.stats)
    | .clearing resettable stats =>
      match resettable.clearCachedListenKey runner.provider with
      | (.error e, p) => (t.goto { runner with provider := p } t.pc).leave (.raised e)
      | (.ok (), p) => t.goto { runner with provider := p } (.fetching resettable stats)
    | .fetching resettable stats =>
      match resettable.getListenKey runner.provider with
      | (.error e, p) => (t.goto { runner with provider := p } t.pc).leave (.raised e)
      | (.ok newListenKey, p) =>
        t.goto { runner with provider := p, consecutiveFailures := 0 } (.rebuilt newListenKey stats)
    | .rebuilt newListenKey stats =>
      t.goto { runner with onRebuild := runner.onRebuild.map (· ++ [(newListenKey, stats)]) } .afterFailure
    | .afterFailure =>
      if stopEvent then t.leave .stopped
      else
        { loop := { t.loop with runner := runner.sleep t.loop.backoff,
                                backoff := min (t.loop.backoff * 2) runner.settings.failureBackoffMaxSec }
          pc := .head }
  | _ => t

/-- **The threads' loop is the loop of the runner**: left alone, it takes one
turn of it and is back at its head if it still runs. -/
theorem turn_of_steps (provider : KeepaliveProvider π) (stopEvent : Bool) (loop : KeepaliveLoop π) :
    ∃ k pc, (step provider stopEvent)^[k] { loop } = { loop := loop.turn provider ⟨stopEvent, stopEvent⟩, pc } ∧
      ((loop.turn provider ⟨stopEvent, stopEvent⟩).phase = .running → pc = .head) := by
  obtain ⟨runner, backoff, phase⟩ := loop
  cases phase with
  | stopped => exact ⟨0, .head, rfl, fun _ => rfl⟩
  | raised e => exact ⟨0, .head, rfl, fun _ => rfl⟩
  | running =>
    cases stopEvent with
    | true => exact ⟨1, .head, rfl, fun _ => rfl⟩
    | false =>
      unfold KeepaliveLoop.turn
      simp only
      rcases kept : provider.keepalive runner.provider with ⟨e | key, p⟩
      · simp only
        unfold KeepaliveRunner.maybeRebuildAfterFailure
        by_cases few : ((runner.failed p e).consecutiveFailures : ℤ) <
            (runner.failed p e).settings.maxConsecutiveFailuresBeforeRebuild
        · rw [if_pos few]
          refine ⟨3, .head, ?_, fun _ => rfl⟩
          simp [step, kept, few, goto]
          rfl
        · rw [if_neg few]
          cases reset : provider.resettable with
          | none =>
            refine ⟨3, .head, ?_, fun _ => rfl⟩
            simp [step, kept, few, reset, goto]
            rfl
          | some resettable =>
            simp only
            rcases cleared : resettable.clearCachedListenKey (runner.failed p e).provider with ⟨e' | ⟨⟩, p'⟩
            · refine ⟨3, .clearing resettable (runner.failed p e).stats, ?_, fun h => by cases h⟩
              simp [step, kept, few, reset, goto, leave, cleared]
            · simp only
              rcases fetched : resettable.getListenKey p' with ⟨e' | newListenKey, p''⟩
              · refine ⟨4, .fetching resettable (runner.failed p e).stats, ?_, fun h => by cases h⟩
                simp [step, kept, few, reset, goto, leave, cleared, fetched]
              · refine ⟨6, .head, ?_, fun _ => rfl⟩
                simp [step, kept, few, reset, goto, cleared, fetched]
                rfl
      · refine ⟨2, .head, ?_, fun _ => rfl⟩
        simp [step, kept]

end KeepaliveThread

/-! ## The service -/

/-- The listen-key providers of the client and of the keepalive runner, over one state. -/
structure Providers (π : Type) where
  client : ListenKeyResettableProvider π
  keepalive : KeepaliveProvider π

/-- `BinanceUserStreamService`. The state of the providers is the runner's. -/
structure StreamService (π : Type) where
  client : StreamClient
  keepalive : KeepaliveThread π
  stopEvent : Bool := false

/-- One action of one of the threads. -/
inductive Event
  | client (outcome : Outcome)
  | keepalive
  | reconnect     -- `reconnect()` of the client, called by anyone else
  | stopClient    -- `stop()` of the client
  | setStopEvent
  | interrupt

namespace StreamService
variable {π : Type}

/-- The runner is about to announce a rebuilt key to the client. A runner
without a callback of its own is wired to `_on_listen_key_rebuilt`. -/
def announces (s : StreamService π) : Bool :=
  match s.keepalive.loop.phase, s.keepalive.pc, s.keepalive.loop.runner.onRebuild with
  | .running, .rebuilt _ _, none => true
  | _, _, _ => false

def step (providers : Providers π) (s : StreamService π) : Event → StreamService π
  | .client outcome =>
    let (client, p) := s.client.step providers.client s.keepalive.loop.runner.provider outcome
    -- `finally` of the service, when `run_forever` of the client is over
    let ended : Bool := s.client.pc = .returned ∨ s.client.pc = .raised
    { client, keepalive := s.keepalive.goto { s.keepalive.loop.runner with provider := p } s.keepalive.pc,
      stopEvent := s.stopEvent || ended }
  | .keepalive =>
    { s with client := if s.announces then s.client.reconnect else s.client,
             keepalive := s.keepalive.step providers.keepalive s.stopEvent }
  | .reconnect => { s with client := s.client.reconnect }
  | .stopClient => { s with client := s.client.stop }
  | .setStopEvent => { s with stopEvent := true }
  | .interrupt => { s with client := s.client.interrupt }

/-- The service when `run_forever` starts the keepalive thread. -/
def start (settings : ClientSettings) (runner : KeepaliveRunner π) : StreamService π where
  client := { settings }
  keepalive := { loop := { runner, backoff := runner.settings.failureBackoffInitialSec } }

/-- The service as a component. -/
def machine (providers : Providers π) : Run.Machine (StreamService π) Event Unit :=
  ⟨fun s event => ((), s.step providers event)⟩

/-- The action calls `reconnect()` of the client. -/
def Reconnects (s : StreamService π) : Event → Prop
  | .reconnect => True
  | .keepalive => s.announces = true
  | _ => False

end StreamService

/-! ## What a request asks for -/

/-- After a request made `before`, at most one further receive is on a socket
whose key had been fetched, and all others are on sockets with newer keys. -/
def Honoured (before after : StreamClient) : Prop :=
  ∃ stale fresh, after.receives = before.receives ++ stale ++ fresh ∧ stale.length ≤ 1 ∧
    (∀ ws ∈ stale, ws.fetch ≤ before.fetched.length) ∧ ∀ ws ∈ fresh, before.fetched.length < ws.fetch

/-- The client has fetched a key and will still lower the flag on the socket it
opens with it. -/
def StreamClient.Deaf (c : StreamClient) : Prop :=
  c.stopped = false ∧ ((∃ listenKey, c.pc = .opening listenKey) ∨ ∃ ws, c.pc = .clearing ws)

section Runs
variable {π : Type} (providers : Providers π) (start : StreamService π) (events : List Event)

/-- Whatever order the threads go on in, each request of the run is honoured. -/
def NoneLost : Prop :=
  ∀ before call rest, events = before ++ call :: rest →
    ((StreamService.machine providers).after start before).Reconnects call →
    ∀ later, Honoured ((StreamService.machine providers).after start before).client
      ((StreamService.machine providers).after start (before ++ call :: later)).client

/-- No request of the run is made while the client is deaf to it. -/
def AllHeard : Prop :=
  ∀ before call rest, events = before ++ call :: rest →
    ((StreamService.machine providers).after start before).Reconnects call →
    ¬ ((StreamService.machine providers).after start before).client.Deaf

end Runs

/-! ## A request that is heard -/

/-- The request will be seen before another receive, but for one under way. -/
def StreamClient.Answers (c : StreamClient) : Prop :=
  match c.pc with
  | .opening _ | .clearing _ => c.stopped = true
  | .inner _ => c.reconnectRequested = true ∨ c.stopped = true
  | .testing _ | .receiving _ | .delivering _ => c.reconnectRequested = true
  | _ => True

/-- The receives the client is certain to make next. -/
def StreamClient.ahead (c : StreamClient) : ℕ :=
  match c.pc with
  | .receiving _ => 1
  | _ => 0

/-- Since the request, with `n` keys fetched and the receives in `base`, the
client has fetched nothing. -/
structure Pending (n : ℕ) (base : List WebSocket) (c : StreamClient) : Prop where
  fetched : c.fetched.length = n
  answers : c.Answers
  stale : ∃ stale, c.receives = base ++ stale ∧ (∀ ws ∈ stale, ws.fetch ≤ n) ∧ stale.length + c.ahead ≤ 1

/-- Since then it has. -/
structure Renewed (n : ℕ) (base : List WebSocket) (c : StreamClient) : Prop where
  fetched : n < c.fetched.length
  receives : ∃ stale fresh, c.receives = base ++ stale ++ fresh ∧ stale.length ≤ 1 ∧ (∀ ws ∈ stale, ws.fetch ≤ n) ∧
    ∀ ws ∈ fresh, n < ws.fetch

section Heard
variable {n : ℕ} {base : List WebSocket} {c c' : StreamClient}

theorem ClientPc.Between.answers (between : c.pc.Between) : c.Answers := by
  unfold StreamClient.Answers
  cases pc : c.pc <;> rw [pc] at between <;> trivial

theorem ClientPc.Between.ahead_eq_zero (between : c.pc.Between) : c.ahead = 0 := by
  unfold StreamClient.ahead
  split
  · rename_i ws pc
    rw [pc] at between
    cases between
  · rfl

/-- Neither `stop` nor a further request takes an answer back. -/
theorem StreamClient.Answers.stop (answers : c.Answers) : c.stop.Answers := by
  unfold StreamClient.Answers at answers ⊢
  cases pc : c.pc <;> simp_all [StreamClient.stop]

theorem StreamClient.Answers.reconnect (answers : c.Answers) : c.reconnect.Answers := by
  unfold StreamClient.Answers at answers ⊢
  cases pc : c.pc <;> simp_all [StreamClient.reconnect]

/-- A request that is made while the client is not deaf will be answered. -/
theorem answers_of_not_deaf (heard : ¬ c.Deaf) : c.reconnect.Answers := by
  have stopped : (∃ listenKey, c.pc = .opening listenKey) ∨ (∃ ws, c.pc = .clearing ws) → c.stopped = true := by
    intro exposed
    by_contra running
    exact heard ⟨by simpa using running, exposed⟩
  unfold StreamClient.Answers
  cases pc : c.pc <;> simp_all [StreamClient.reconnect]

/-- **Step lemma.** A pending request stays pending until the next fetch. -/
theorem Pending.acted (h : Pending n base c) (keyed : Keyed c) (acted : Acted c c') :
    Pending n base c' ∨ Renewed n base c' := by
  obtain ⟨fetched, answers, stale, split, old, few⟩ := h
  cases acted with
  | between c' pc settings stopped fetched' receives =>
    refine .inl ⟨fetched' ▸ fetched, pc.answers, stale, receives ▸ split, old, ?_⟩
    rw [pc.ahead_eq_zero]
    omega
  | fetched listenKey pc =>
    refine .inr ⟨?_, stale, [], by simpa using split, by omega, old, by simp⟩
    rw [List.length_append, List.length_singleton]
    omega
  | opened listenKey pc =>
    have stopped : c.stopped = true := by simpa [StreamClient.Answers, pc] using answers
    exact .inl ⟨fetched, stopped, stale, split, old, by simp [StreamClient.ahead]; omega⟩
  | cleared ws pc =>
    have stopped : c.stopped = true := by simpa [StreamClient.Answers, pc] using answers
    exact .inl ⟨fetched, .inr stopped, stale, split, old, by simp [StreamClient.ahead]; omega⟩
  | turned ws pc running =>
    have asked : c.reconnectRequested = true := by simpa [StreamClient.Answers, pc, running] using answers
    exact .inl ⟨fetched, asked, stale, split, old, by simp [StreamClient.ahead]; omega⟩
  | passed ws pc unasked =>
    -- The flag is up, so the test does not pass.
    have asked : c.reconnectRequested = true := by simpa [StreamClient.Answers, pc] using answers
    rw [unasked] at asked
    cases asked
  | received ws after pc next =>
    have asked : c.reconnectRequested = true := by simpa [StreamClient.Answers, pc] using answers
    obtain ⟨number, -⟩ := keyed.socket ws (by rw [pc]; rfl)
    have ahead : c.ahead = 1 := by simp [StreamClient.ahead, pc]
    have first : stale = [] := List.length_eq_zero_iff.mp (by omega)
    have answers' : ({ c with receives := c.receives ++ [ws], pc := after } : StreamClient).Answers := by
      rcases next with rfl | between
      · exact asked
      · exact between.answers
    have ahead' : ({ c with receives := c.receives ++ [ws], pc := after } : StreamClient).ahead = 0 := by
      rcases next with rfl | between
      · rfl
      · exact between.ahead_eq_zero
    refine .inl ⟨fetched, answers', [ws], ?_, ?_, ?_⟩
    · show c.receives ++ [ws] = base ++ [ws]
      rw [split, first, List.append_nil]
    · intro w member
      rw [List.mem_singleton.mp member, number, fetched]
    · rw [ahead', List.length_singleton]
  | delivered ws pc =>
    have asked : c.reconnectRequested = true := by simpa [StreamClient.Answers, pc] using answers
    exact .inl ⟨fetched, .inl asked, stale, split, old, by simp [StreamClient.ahead]; omega⟩
  | stopped => exact .inl ⟨fetched, answers.stop, stale, split, old, few⟩
  | requested => exact .inl ⟨fetched, answers.reconnect, stale, split, old, few⟩
  | untouched => exact .inl ⟨fetched, answers, stale, split, old, few⟩

/-- **Step lemma.** After the next fetch every receive is on a newer socket. -/
theorem Renewed.acted (h : Renewed n base c) (keyed : Keyed c) (acted : Acted c c') : Renewed n base c' := by
  have newer := h.fetched
  obtain ⟨stale, fresh, split, few, old, new⟩ := h.receives
  refine ⟨?_, ?_⟩
  · have := acted.fetched_le
    omega
  · rcases acted.receives_cases with same | ⟨ws, socket, received⟩
    · exact ⟨stale, fresh, same.trans split, few, old, new⟩
    · refine ⟨stale, fresh ++ [ws], ?_, few, old, ?_⟩
      · rw [received, split, List.append_assoc]
      · intro w member
        rcases List.mem_append.mp member with before | now
        · exact new w before
        · rw [List.mem_singleton.mp now, (keyed.socket ws socket).1]
          exact newer

theorem Pending.receives (h : Pending n base c) : ∃ stale fresh, c.receives = base ++ stale ++ fresh ∧ stale.length ≤ 1 ∧
    (∀ ws ∈ stale, ws.fetch ≤ n) ∧ ∀ ws ∈ fresh, n < ws.fetch := by
  obtain ⟨stale, split, old, few⟩ := h.stale
  exact ⟨stale, [], by simpa using split, by omega, old, by simp⟩

end Heard

/-! ## Runs -/

section Runs
variable {π : Type} (providers : Providers π) {s : StreamService π}

theorem acted_next (event : Event) : Acted s.client ((StreamService.machine providers).next s event).client := by
  cases event with
  | client outcome => exact acted_step providers.client s.client _ outcome
  | keepalive =>
    show Acted s.client (if s.announces then s.client.reconnect else s.client)
    split
    · exact .requested
    · exact .untouched
  | reconnect => exact .requested
  | stopClient => exact .stopped
  | setStopEvent => exact .untouched
  | interrupt => exact acted_interrupt s.client

/-- A request raises the flag and does nothing else to the client. -/
theorem client_of_reconnects {call : Event} (made : s.Reconnects call) :
    ((StreamService.machine providers).next s call).client = s.client.reconnect := by
  cases call with
  | keepalive =>
    show (if s.announces then s.client.reconnect else s.client) = _
    exact if_pos made
  | reconnect => rfl
  | client outcome => cases made
  | stopClient => cases made
  | setStopEvent => cases made
  | interrupt => cases made

/-- **Run lemma.** -/
theorem keyed_after (settings : ClientSettings) (runner : KeepaliveRunner π) (events : List Event) :
    Keyed ((StreamService.machine providers).after (.start settings runner) events).client :=
  (StreamService.machine providers).always (P := fun s => Keyed s.client) (keyed_initial settings)
    (fun _ event h => h.acted (acted_next providers event)) events

/-- A request that is heard is honoured, in whatever order the threads go on. -/
theorem honoured_of_heard {call : Event} (keyed : Keyed s.client) (made : s.Reconnects call) (heard : ¬ s.client.Deaf)
    (later : List Event) :
    Honoured s.client ((StreamService.machine providers).after s (call :: later)).client := by
  have asked := client_of_reconnects providers made
  have base : Pending s.client.fetched.length s.client.receives ((StreamService.machine providers).next s call).client := by
    rw [asked]
    exact ⟨rfl, answers_of_not_deaf heard, [], by simp [StreamClient.reconnect], by simp, by
      unfold StreamClient.ahead; split <;> simp⟩
  have all := (StreamService.machine providers).always
    (P := fun t => Keyed t.client ∧ (Pending s.client.fetched.length s.client.receives t.client ∨
      Renewed s.client.fetched.length s.client.receives t.client))
    ⟨keyed.acted (acted_next providers call), .inl base⟩
    (fun t event h => ⟨h.1.acted (acted_next providers event), h.2.elim (fun p => p.acted h.1 (acted_next providers event))
      fun r => .inr (r.acted h.1 (acted_next providers event))⟩) later
  rcases all.2 with pending | renewed
  · exact pending.receives
  · exact renewed.receives

/-! ## A request that is lost -/

/-- The inner loop on a socket, with no request to see. -/
structure Looping (ws : WebSocket) (c : StreamClient) : Prop where
  pc : c.pc = .inner ws
  running : c.stopped = false
  unasked : c.reconnectRequested = false

/-- One turn of the inner loop: the client alone, and nothing raises. -/
def innerTurn : List Event := List.replicate 4 (.client .returns)

theorem Looping.innerTurn {ws : WebSocket} (looping : Looping ws s.client) :
    Looping ws ((StreamService.machine providers).after s innerTurn).client ∧
      ((StreamService.machine providers).after s innerTurn).client.receives = s.client.receives ++ [ws] := by
  obtain ⟨⟨settings, stopped, requested, backoff, pc, fetched, receives, closed, sleeps⟩, keepalive, stopEvent⟩ := s
  obtain ⟨at_, running, unasked⟩ := looping
  cases at_
  cases running
  cases unasked
  exact ⟨⟨rfl, rfl, rfl⟩, rfl⟩

/-- A deaf client that goes on alone comes to the inner loop without a request,
on a socket whose key it has fetched. -/
theorem looping_of_deaf (keyed : Keyed s.client) (deaf : s.client.Deaf) :
    ∃ later ws, Looping ws ((StreamService.machine providers).after s later).client ∧
      ((StreamService.machine providers).after s later).client.receives = s.client.receives ∧
      ws.fetch = s.client.fetched.length := by
  obtain ⟨running, ⟨listenKey, pc⟩ | ⟨ws, pc⟩⟩ := deaf
  · refine ⟨List.replicate 2 (.client .returns), ⟨s.client.settings.baseUrl ++ listenKey, s.client.fetched.length⟩, ?_⟩
    obtain ⟨⟨settings, stopped, requested, backoff, pc', fetched, receives, closed, sleeps⟩, keepalive, stopEvent⟩ := s
    cases pc
    cases running
    exact ⟨⟨rfl, rfl, rfl⟩, rfl, rfl⟩
  · have number := (keyed.socket ws (by rw [pc]; rfl)).1
    refine ⟨[.client .returns], ws, ?_⟩
    obtain ⟨⟨settings, stopped, requested, backoff, pc', fetched, receives, closed, sleeps⟩, keepalive, stopEvent⟩ := s
    cases pc
    cases running
    exact ⟨⟨rfl, rfl, rfl⟩, rfl, number⟩

/-- A request the client is deaf to can be lost: two receives follow on a socket
whose key had been fetched. -/
theorem lost_of_deaf {call : Event} (keyed : Keyed s.client) (made : s.Reconnects call) (deaf : s.client.Deaf) :
    ∃ later, ¬ Honoured s.client ((StreamService.machine providers).after s (call :: later)).client := by
  have asked := client_of_reconnects providers made
  have keyed' : Keyed ((StreamService.machine providers).next s call).client := keyed.acted (acted_next providers call)
  have deaf' : ((StreamService.machine providers).next s call).client.Deaf := by
    rw [asked]
    exact deaf
  obtain ⟨opening, ws, looping, quiet, number⟩ := looping_of_deaf providers keyed' deaf'
  obtain ⟨looping', first⟩ := looping.innerTurn providers
  obtain ⟨-, second⟩ := looping'.innerTurn providers
  refine ⟨opening ++ innerTurn ++ innerTurn, ?_⟩
  rw [Run.Machine.after_cons, Run.Machine.after_append, Run.Machine.after_append]
  rintro ⟨stale, fresh, split, few, -, new⟩
  rw [second, first, quiet, asked] at split
  have both : stale ++ fresh = [ws] ++ [ws] := by
    have whole : s.client.receives ++ (stale ++ fresh) = s.client.receives ++ ([ws] ++ [ws]) := by
      rw [← List.append_assoc, ← split, List.append_assoc]
      rfl
    exact List.append_cancel_left whole
  have one : fresh ≠ [] := by
    rintro rfl
    have := congrArg List.length both
    simp at this
    omega
  obtain ⟨w, member⟩ := List.exists_mem_of_ne_nil fresh one
  have same : w = ws := by
    have : w ∈ [ws] ++ [ws] := both ▸ List.mem_append_right stale member
    simpa using this
  have newer := new w member
  rw [same, number, asked] at newer
  exact absurd newer (lt_irrefl _)

/-- **No reconnect request is lost**, in a run and in whatever order its threads
go on after a request, exactly when no request of the run is made between the
client's fetch of a listen key and its lowering of the flag, unless the client
has been stopped. -/
theorem none_lost_iff (settings : ClientSettings) (runner : KeepaliveRunner π) (events : List Event) :
    NoneLost providers (.start settings runner) events ↔ AllHeard providers (.start settings runner) events := by
  constructor
  · intro none before call rest split made deaf
    obtain ⟨later, lost⟩ := lost_of_deaf providers (keyed_after providers settings runner before) made deaf
    apply lost
    have honoured := none before call rest split made later
    rw [Run.Machine.after_append] at honoured
    exact honoured
  · intro heard before call rest split made later
    rw [Run.Machine.after_append]
    exact honoured_of_heard providers (keyed_after providers settings runner before) made (heard before call rest split made) later

end Runs

/-- Listen keys of an exchange that no longer answers a keepalive: the key that
is cached, and how many have been issued. -/
structure KeyStore where
  cached : Option String := none
  issued : ℕ := 0

namespace KeyStore

/-- `get_listen_key`: the cached key, or a new one. -/
def getListenKey (store : KeyStore) : Except String String × KeyStore :=
  match store.cached with
  | some listenKey => (.ok listenKey, store)
  | none =>
    let listenKey := if store.issued = 0 then "lk-1" else "lk-2"
    (.ok listenKey, { cached := some listenKey, issued := store.issued + 1 })

def resettable : ListenKeyResettableProvider KeyStore where
  clearCachedListenKey store := (.ok (), { store with cached := none })
  getListenKey := getListenKey

def providers : Providers KeyStore where
  client := resettable
  keepalive := { keepalive := fun store => (.error "timed out", store.getListenKey.2), resettable := some resettable }

end KeyStore

/-- A request during a receive: one receive on each socket, and no back-off. -/
example :
    let c := ((StreamService.machine KeyStore.providers).after (.start {} { provider := {} })
      (List.replicate 6 (.client .returns) ++ .reconnect :: List.replicate 14 (.client .returns))).client
    c.receives.map WebSocket.fetch = [1, 2] ∧ c.sleeps = [] := ⟨rfl, rfl⟩

/-- The client fetches a key and is about to open a socket with it. Meanwhile the
keepalive fails twice, and the second failure rebuilds the key. -/
def rebuildBeforeOpen : List Event :=
  List.replicate 2 (.client .returns) ++ List.replicate 7 .keepalive

theorem request_lost_rebuild :
    ¬ NoneLost KeyStore.providers (.start {} { provider := {} }) (rebuildBeforeOpen ++ [.keepalive]) := by
  intro none
  have deaf : ((StreamService.machine KeyStore.providers).after (.start {} { provider := {} }) rebuildBeforeOpen).client.Deaf :=
    ⟨rfl, .inl ⟨"lk-1", rfl⟩⟩
  have made : ((StreamService.machine KeyStore.providers).after (.start {} { provider := {} }) rebuildBeforeOpen).Reconnects
      .keepalive := rfl
  obtain ⟨later, lost⟩ := lost_of_deaf KeyStore.providers (keyed_after KeyStore.providers {} { provider := {} } rebuildBeforeOpen)
    made deaf
  apply lost
  have honoured := none rebuildBeforeOpen .keepalive [] rfl made later
  rw [Run.Machine.after_append] at honoured
  exact honoured

end CryptoQuant.UserStream
