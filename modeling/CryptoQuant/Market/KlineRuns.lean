import CryptoQuant.Market.KlineClient

/-!
# Runs of the kline client

Whatever the sockets, the messages and the other threads do: one socket is open at
a time and each is closed, the callback gets the closed klines in the order they
came, the waits back off from the last connection, and a stopped client ends.
-/

namespace CryptoQuant.Kline
set_option autoImplicit false

/-! ## What is seen in a trace -/

/-- The socket an effect opens or closes. -/
def Effect.socketOp : Effect → Option (ℕ × Bool)
  | .opened ws _ => some (ws, true)
  | .closed ws => some (ws, false)
  | _ => none

/-- The message an effect receives. -/
def Effect.message : Effect → Option Message
  | .received raw => some raw
  | _ => none

/-- The event an effect delivers. -/
def Effect.event : Effect → Option MarketEvent
  | .delivered event => some event
  | _ => none

/-- The effect is a new connection. -/
def Effect.connects : Effect → Bool
  | .opened _ _ => true
  | _ => false

/-- The effect is a wait. -/
def Effect.waits : Effect → Bool
  | .slept _ => true
  | _ => false

/-- The waits since the last connection. -/
def failures (trace : List Effect) : ℕ := (trace.reverse.takeWhile fun e => !e.connects).countP Effect.waits

/-- The event of a message, if it is a closed 1m kline that can be read. -/
def readable (py : JsonBuiltins) (raw : Message) : Option MarketEvent :=
  match parseMarketEvent py raw with
  | .ok event => event
  | .error _ => none

/-- The socket that is open. -/
def ClientPc.socket : ClientPc → Option ℕ
  | .inner ws | .receiving ws | .parsing ws _ => some ws
  | .handling ws | .sleeping ws => ws
  | .outer | .opening | .returned | .raised => none

/-- The message that has been received and not been looked at. -/
def ClientPc.pending : ClientPc → List Message
  | .parsing _ raw => [raw]
  | _ => []

/-- The wait after a number of failures: doubled each time, up to the limit. -/
def Settings.wait (settings : Settings) : ℕ → ℚ
  | 0 => settings.reconnectInitialSec
  | n + 1 => min (settings.wait n * 2) settings.reconnectMaxSec

@[simp] theorem failures_nil : failures [] = 0 := rfl

@[simp] theorem failures_snoc (trace : List Effect) (e : Effect) :
    failures (trace ++ [e]) = if e.connects then 0 else failures trace + if e.waits then 1 else 0 := by
  unfold failures
  rw [List.reverse_append, List.reverse_singleton, List.singleton_append, List.takeWhile_cons]
  cases e with
  | opened ws url => rfl
  | slept seconds => simp [Effect.connects, Effect.waits, List.countP_cons]
  | _ => simp [Effect.connects, Effect.waits]

/-! ## The invariant -/

/-- What a client has done so far. -/
structure Disciplined (py : JsonBuiltins) (c : Client) : Prop where
  sockets : c.trace.filterMap Effect.socketOp ++ c.pc.socket.toList.map (·, false) =
    (List.range c.opened).flatMap fun ws => [(ws, true), (ws, false)]
  events : ∃ left : List Message, c.trace.filterMap Effect.event ++ left.filterMap (readable py) =
    (c.trace.filterMap Effect.message).filterMap (readable py) ∧ (left = c.pc.pending ∨ c.pc = .raised ∧ left.length ≤ 1)
  backoff : c.backoff = c.settings.wait (failures c.trace)
  waits : ∀ before seconds after, c.trace = before ++ Effect.slept seconds :: after →
    seconds = c.settings.wait (failures before)

/-- An effect that is no wait leaves the waits as they are. -/
theorem waits_snoc {settings : Settings} {trace : List Effect} {e : Effect}
    (waits : ∀ before seconds after, trace = before ++ Effect.slept seconds :: after → seconds = settings.wait (failures before))
    (last : ∀ seconds, e = .slept seconds → seconds = settings.wait (failures trace)) :
    ∀ before seconds after, trace ++ [e] = before ++ Effect.slept seconds :: after →
      seconds = settings.wait (failures before) := by
  intro before seconds after split
  rcases List.eq_nil_or_concat after with rfl | ⟨init, e', rfl⟩
  · obtain ⟨rfl, same⟩ := List.append_inj' split rfl
    exact last seconds (List.singleton_inj.mp same)
  · rw [List.concat_eq_append, ← List.cons_append, ← List.append_assoc] at split
    obtain ⟨rfl, -⟩ := List.append_inj' split rfl
    exact waits before seconds init rfl

section Step
variable {py : JsonBuiltins} {c : Client}

/-- A step without an effect, to a place with the same socket and message. -/
theorem Disciplined.move (h : Disciplined py c) {pc : ClientPc} (socket : pc.socket = c.pc.socket)
    (pending : pc.pending = c.pc.pending) (raised : c.pc ≠ .raised) : Disciplined py { c with pc } where
  sockets := by
    rw [socket]
    exact h.sockets
  events := by
    obtain ⟨left, same, here | ⟨there, -⟩⟩ := h.events
    · exact ⟨left, same, .inl (here.trans pending.symm)⟩
    · exact absurd there raised
  backoff := h.backoff
  waits := h.waits

/-- The try statement is left, and its socket closed: nothing waits to be looked at, or
the loop ends by an interrupt. -/
theorem Disciplined.leave (h : Disciplined py c) (pc : ClientPc) (gone : pc.socket = none) (raised : c.pc ≠ .raised)
    (pending : c.pc.pending = [] ∧ pc.pending = [] ∨ pc = .raised ∧ c.pc.pending.length ≤ 1) :
    Disciplined py (c.leave c.pc.socket pc) := by
  have sockets := h.sockets
  have left : ∃ left : List Message, c.trace.filterMap Effect.event ++ left.filterMap (readable py) =
      (c.trace.filterMap Effect.message).filterMap (readable py) ∧ (left = pc.pending ∨ pc = .raised ∧ left.length ≤ 1) := by
    obtain ⟨left, same, here | ⟨there, -⟩⟩ := h.events
    · rcases pending with ⟨before, after⟩ | ⟨ends, few⟩
      · exact ⟨left, same, .inl (by rw [here, before, after])⟩
      · exact ⟨left, same, .inr ⟨ends, by rw [here]; exact few⟩⟩
    · exact absurd there raised
  cases ws : c.pc.socket with
  | none =>
    rw [ws] at sockets
    refine ⟨?_, ?_, ?_, ?_⟩
    · show (c.trace ++ []).filterMap _ ++ pc.socket.toList.map _ = _
      rw [List.append_nil, gone]
      exact sockets
    · simpa [Client.leave] using left
    · simpa [Client.leave] using h.backoff
    · simpa [Client.leave] using h.waits
  | some ws' =>
    rw [ws] at sockets
    refine ⟨?_, ?_, ?_, ?_⟩
    · show (c.trace ++ [Effect.closed ws']).filterMap _ ++ pc.socket.toList.map _ = _
      rw [gone, List.filterMap_append]
      show _ = (List.range c.opened).flatMap _
      rw [← sockets]
      simp [Effect.socketOp]
    · simpa [Client.leave, Effect.event, Effect.message, List.filterMap_cons] using left
    · simpa [Client.leave, Effect.connects, Effect.waits] using h.backoff
    · exact waits_snoc h.waits fun seconds same => by cases same

/-- A socket is opened. -/
theorem Disciplined.opens (h : Disciplined py c) (pc : c.pc = .opening) :
    Disciplined py { c with backoff := c.settings.reconnectInitialSec, pc := .inner c.opened, opened := c.opened + 1,
                            trace := c.trace ++ [Effect.opened c.opened c.settings.streamUrl] } where
  sockets := by
    have sockets := h.sockets
    rw [pc] at sockets
    show (c.trace ++ [Effect.opened _ _]).filterMap _ ++ [(c.opened, false)] = _
    rw [List.range_succ, List.flatMap_append, ← sockets, List.filterMap_append]
    simp [Effect.socketOp, ClientPc.socket]
  events := by
    obtain ⟨left, same, here | ⟨there, -⟩⟩ := h.events
    · rw [pc] at here
      exact ⟨left, by simpa [Effect.event, Effect.message, List.filterMap_cons] using same, .inl here⟩
    · rw [pc] at there
      cases there
  backoff := by simp [Effect.connects, Settings.wait]
  waits := waits_snoc h.waits fun seconds same => by cases same

/-- A message is received. -/
theorem Disciplined.receives (h : Disciplined py c) {ws : ℕ} (pc : c.pc = .receiving ws) (raw : Message) :
    Disciplined py { c with pc := .parsing ws raw, trace := c.trace ++ [Effect.received raw] } where
  sockets := by
    have sockets := h.sockets
    rw [pc] at sockets
    show (c.trace ++ [Effect.received raw]).filterMap _ ++ [(ws, false)] = _
    rw [← sockets]
    simp [Effect.socketOp, List.filterMap_cons, ClientPc.socket]
  events := by
    refine ⟨[raw], ?_, .inl rfl⟩
    obtain ⟨left, same, here | ⟨there, -⟩⟩ := h.events
    · rw [pc] at here
      subst here
      have same : c.trace.filterMap Effect.event = (c.trace.filterMap Effect.message).filterMap (readable py) := by
        simpa [ClientPc.pending] using same
      simp only [List.filterMap_append, ← same]
      simp [Effect.event, Effect.message, List.filterMap_cons]
    · rw [pc] at there
      cases there
  backoff := by simpa [Effect.connects, Effect.waits] using h.backoff
  waits := waits_snoc h.waits fun seconds same => by cases same

/-- A message without a closed kline is left alone. -/
theorem Disciplined.skips (h : Disciplined py c) {ws : ℕ} {raw : Message} (pc : c.pc = .parsing ws raw)
    (unreadable : readable py raw = none) {next : ClientPc} (socket : next.socket = some ws) (pending : next.pending = []) :
    Disciplined py { c with pc := next } where
  sockets := by
    have sockets := h.sockets
    rw [pc] at sockets
    rw [socket]
    exact sockets
  events := by
    obtain ⟨left, same, here | ⟨there, -⟩⟩ := h.events
    · rw [pc] at here
      subst here
      exact ⟨[], by simpa [ClientPc.pending, unreadable] using same, .inl pending.symm⟩
    · rw [pc] at there
      cases there
  backoff := h.backoff
  waits := h.waits

/-- A closed kline is delivered. -/
theorem Disciplined.delivers (h : Disciplined py c) {ws : ℕ} {raw : Message} {event : MarketEvent}
    (pc : c.pc = .parsing ws raw) (read : readable py raw = some event) {next : ClientPc} (socket : next.socket = some ws)
    (pending : next.pending = []) :
    Disciplined py { c with pc := next, trace := c.trace ++ [Effect.delivered event] } where
  sockets := by
    have sockets := h.sockets
    rw [pc] at sockets
    show (c.trace ++ [Effect.delivered event]).filterMap _ ++ next.socket.toList.map _ = _
    rw [socket, ← sockets]
    simp [Effect.socketOp, List.filterMap_cons, ClientPc.socket]
  events := by
    obtain ⟨left, same, here | ⟨there, -⟩⟩ := h.events
    · rw [pc] at here
      subst here
      refine ⟨[], ?_, .inl pending.symm⟩
      rw [List.filterMap_append, List.filterMap_append]
      simpa [ClientPc.pending, read, Effect.event, Effect.message, List.filterMap_cons] using same
    · rw [pc] at there
      cases there
  backoff := by simpa [Effect.connects, Effect.waits] using h.backoff
  waits := waits_snoc h.waits fun seconds same => by cases same

/-- A wait, for as long as the failures since the last connection ask for. -/
theorem Disciplined.waited (h : Disciplined py c) :
    Disciplined py { c with trace := c.trace ++ [Effect.slept c.backoff],
                            backoff := min (c.backoff * 2) c.settings.reconnectMaxSec } where
  sockets := by simpa [Effect.socketOp, List.filterMap_cons] using h.sockets
  events := by simpa [Effect.event, Effect.message, List.filterMap_cons] using h.events
  backoff := by
    rw [failures_snoc]
    simp only [Effect.connects, Effect.waits, Bool.false_eq_true, if_false, if_true, Settings.wait]
    rw [h.backoff]
  waits := waits_snoc h.waits fun seconds same => by
    cases same
    exact h.backoff

/-- **Step lemma** of `run_forever`. -/
theorem Disciplined.step (h : Disciplined py c) (outcome : Outcome) : Disciplined py (c.step py outcome) := by
  unfold Client.step
  cases pc : c.pc with
  | outer =>
    refine h.move ?_ ?_ (by simp [pc]) <;> split <;> simp [pc, ClientPc.socket, ClientPc.pending]
  | opening =>
    cases outcome with
    | raises => exact h.move (by simp [pc, ClientPc.socket]) (by simp [pc, ClientPc.pending]) (by simp [pc])
    | _ => exact h.opens pc
  | inner ws =>
    simp only
    split
    · have left := h.leave .outer rfl (by simp [pc]) (.inl ⟨by rw [pc]; rfl, rfl⟩)
      rwa [pc] at left
    · exact h.move (by simp [pc, ClientPc.socket]) (by simp [pc, ClientPc.pending]) (by simp [pc])
  | receiving ws =>
    cases outcome with
    | receives raw => exact h.receives pc raw
    | _ => exact h.move (by simp [pc, ClientPc.socket]) (by simp [pc, ClientPc.pending]) (by simp [pc])
  | parsing ws raw =>
    simp only
    cases read : parseMarketEvent py raw with
    | error e => exact h.skips pc (by rw [readable, read]) rfl rfl
    | ok found =>
      cases found with
      | none => exact h.skips pc (by rw [readable, read]) rfl rfl
      | some event =>
        have found : readable py raw = some event := by rw [readable, read]
        cases outcome with
        | raises => exact h.delivers pc found rfl rfl
        | _ => exact h.delivers pc found rfl rfl
  | handling ws =>
    simp only
    split
    · have left := h.leave .returned rfl (by simp [pc]) (.inl ⟨by rw [pc]; rfl, rfl⟩)
      rwa [pc] at left
    · exact h.move (by simp [pc, ClientPc.socket]) (by simp [pc, ClientPc.pending]) (by simp [pc])
  | sleeping ws =>
    have left := h.waited.leave .outer rfl (by simp [pc]) (.inl ⟨by show c.pc.pending = []; rw [pc]; rfl, rfl⟩)
    have socket : c.pc.socket = ws := by rw [pc]; rfl
    rwa [socket] at left
  | returned => exact h
  | raised => exact h

/-- An interrupt closes the socket, and may leave a message that was not looked at. -/
theorem Disciplined.interrupt (h : Disciplined py c) : Disciplined py c.interrupt := by
  unfold Client.interrupt
  have left (few : c.pc.pending.length ≤ 1) (raised : c.pc ≠ .raised) : Disciplined py (c.leave c.pc.socket .raised) :=
    h.leave .raised rfl raised (.inr ⟨rfl, few⟩)
  cases pc : c.pc with
  | outer => exact h.move (by simp [pc, ClientPc.socket]) (by simp [pc, ClientPc.pending]) (by simp [pc])
  | opening => exact h.move (by simp [pc, ClientPc.socket]) (by simp [pc, ClientPc.pending]) (by simp [pc])
  | returned => exact h
  | raised => exact h
  | _ =>
    rw [pc] at left
    exact left (by simp [ClientPc.pending]) (by simp)

end Step

/-! ## The end of a stopped client -/

/-- The most steps of its own a stopped client still makes. -/
def ClientPc.distance : ClientPc → ℕ
  | .returned | .raised => 0
  | .outer | .handling _ => 1
  | .inner _ | .sleeping _ => 2
  | .opening | .parsing _ _ => 3
  | .receiving _ => 4

/-- The effect opens a socket, receives a message, or waits. -/
def Effect.works : Effect → Bool
  | .opened _ _ | .received _ | .slept _ => true
  | _ => false

/-- The client is at a call that may do so. -/
def ClientPc.working : ClientPc → ℕ
  | .opening | .receiving _ | .sleeping _ => 1
  | _ => 0

/-- The action is a step of the client itself. -/
def Action.goes : Action → Bool
  | .go _ => true
  | _ => false

section Stopped
variable {py : JsonBuiltins} {c : Client}

/-- What leaving the loop appends is no work. -/
theorem countP_leave (c : Client) (ws : Option ℕ) (pc : ClientPc) :
    (c.leave ws pc).trace.countP Effect.works = c.trace.countP Effect.works := by
  cases ws <;> simp [Client.leave, Effect.works]

variable (py) in
/-- **Step lemma** of a stopped client: it comes nearer to its end, and at most does
the work it was about to do. -/
theorem stopped_step (stopped : c.stopped = true) (outcome : Outcome) :
    (c.step py outcome).stopped = true ∧ (c.step py outcome).pc.distance ≤ c.pc.distance - 1 ∧
      (c.step py outcome).trace.countP Effect.works + (c.step py outcome).pc.working ≤
        c.trace.countP Effect.works + c.pc.working := by
  unfold Client.step
  cases pc : c.pc with
  | outer => simp [stopped, ClientPc.distance, ClientPc.working]
  | opening => cases outcome <;> simp [stopped, ClientPc.distance, ClientPc.working, Effect.works]
  | inner ws =>
    simp only [stopped, if_true]
    exact ⟨stopped, le_refl _, by rw [countP_leave]; exact le_refl _⟩
  | receiving ws => cases outcome <;> simp [stopped, ClientPc.distance, ClientPc.working, Effect.works]
  | parsing ws raw =>
    simp only
    cases parseMarketEvent py raw with
    | error e => simp [stopped, ClientPc.distance, ClientPc.working]
    | ok found =>
      cases found with
      | none => simp [stopped, ClientPc.distance, ClientPc.working]
      | some event => cases outcome <;> simp [stopped, ClientPc.distance, ClientPc.working, Effect.works]
  | handling ws =>
    simp only [stopped, if_true]
    exact ⟨stopped, Nat.zero_le _, by rw [countP_leave]; exact Nat.add_le_add_left (Nat.zero_le _) _⟩
  | sleeping ws =>
    refine ⟨stopped, le_refl _, ?_⟩
    rw [countP_leave, List.countP_append]
    simp [Client.leave, ClientPc.working, Effect.works]
  | returned => simp [stopped, pc, ClientPc.distance, ClientPc.working]
  | raised => simp [stopped, pc, ClientPc.distance, ClientPc.working]

theorem stopped_interrupt (stopped : c.stopped = true) :
    c.interrupt.stopped = true ∧ c.interrupt.pc.distance ≤ c.pc.distance ∧
      c.interrupt.trace.countP Effect.works + c.interrupt.pc.working ≤ c.trace.countP Effect.works + c.pc.working := by
  have left (ws : Option ℕ) : (c.leave ws .raised).stopped = true ∧ (c.leave ws .raised).pc.distance ≤ c.pc.distance ∧
      (c.leave ws .raised).trace.countP Effect.works + (c.leave ws .raised).pc.working ≤
        c.trace.countP Effect.works + c.pc.working :=
    ⟨stopped, Nat.zero_le _, by rw [countP_leave]; exact Nat.add_le_add_left (Nat.zero_le _) _⟩
  unfold Client.interrupt
  cases pc : c.pc with
  | outer => exact ⟨stopped, Nat.zero_le _, le_refl _⟩
  | opening => exact ⟨stopped, Nat.zero_le _, Nat.add_le_add_left (Nat.zero_le _) _⟩
  | returned => exact ⟨stopped, by rw [pc], by rw [pc]⟩
  | raised => exact ⟨stopped, by rw [pc], by rw [pc]⟩
  | _ =>
    rw [pc] at left
    exact left _

variable (py) in
/-- **Run lemma** of a stopped client. -/
theorem stopped_after (stopped : c.stopped = true) (actions : List Action) :
    ((machine py).after c actions).pc.distance ≤ c.pc.distance - actions.countP Action.goes ∧
      ((machine py).after c actions).trace.countP Effect.works + ((machine py).after c actions).pc.working ≤
        c.trace.countP Effect.works + c.pc.working := by
  induction actions generalizing c with
  | nil => exact ⟨le_refl _, le_refl _⟩
  | cons action rest ih =>
    rw [Run.Machine.after_cons, List.countP_cons]
    cases action with
    | go outcome =>
      obtain ⟨still, nearer, less⟩ := stopped_step py stopped outcome
      obtain ⟨near, few⟩ := ih (c := c.step py outcome) still
      refine ⟨near.trans ?_, few.trans less⟩
      simp only [Action.goes, if_true]
      omega
    | stop =>
      obtain ⟨near, few⟩ := ih (c := c.stop) rfl
      exact ⟨near.trans (by simp [Action.goes, Client.stop]), few⟩
    | interrupt =>
      obtain ⟨still, nearer, less⟩ := stopped_interrupt stopped
      obtain ⟨near, few⟩ := ih (c := c.interrupt) still
      refine ⟨near.trans ?_, few.trans less⟩
      simp only [Action.goes, Bool.false_eq_true, if_false]
      omega

end Stopped

/-- **Runs of the kline client.** Whatever the factory, the sockets, the messages and the
callback do, and whenever another thread stops or interrupts the client: its
sockets are opened and closed one after the other, each closed once; the callback
gets the event of every message that has a closed 1m kline, in the order received,
but for a message at hand; every wait is the one for the failures since the last
connection; and once it is stopped the client opens, receives or waits at most
once more, and after four steps it has ended with its sockets closed. -/
theorem kline_client_disciplined (py : JsonBuiltins) (settings : Settings) (actions : List Action) :
    Disciplined py ((machine py).after { settings } actions) ∧
    ∀ later : List Action,
      (((machine py).after ((machine py).after { settings } actions).stop later).trace.countP Effect.works ≤
        ((machine py).after { settings } actions).trace.countP Effect.works + 1) ∧
      (4 ≤ later.countP Action.goes →
        ((machine py).after ((machine py).after { settings } actions).stop later).pc = .returned ∨
          ((machine py).after ((machine py).after { settings } actions).stop later).pc = .raised) := by
  have start : Disciplined py { settings } := by
    refine ⟨rfl, ⟨[], rfl, .inl rfl⟩, rfl, fun before seconds after split => ?_⟩
    exact absurd split (by simp)
  refine ⟨(machine py).always start (fun c action h => ?_) actions, fun later => ?_⟩
  · cases action with
    | go outcome => exact h.step outcome
    | stop => exact ⟨h.sockets, h.events, h.backoff, h.waits⟩
    | interrupt => exact h.interrupt
  · generalize (machine py).after { settings } actions = c
    obtain ⟨near, few⟩ := stopped_after py (c := c.stop) rfl later
    generalize (machine py).after c.stop later = last at near few
    have one : c.stop.pc.working ≤ 1 := by unfold ClientPc.working; split <;> omega
    have four : c.stop.pc.distance ≤ 4 := by unfold ClientPc.distance; split <;> omega
    refine ⟨?_, fun enough => ?_⟩
    · have same : c.stop.trace = c.trace := rfl
      rw [same] at few
      omega
    · have zero : last.pc.distance = 0 := by omega
      cases pc : last.pc with
      | returned => exact .inl rfl
      | raised => exact .inr rfl
      | _ =>
        rw [pc] at zero
        simp [ClientPc.distance] at zero

end CryptoQuant.Kline
