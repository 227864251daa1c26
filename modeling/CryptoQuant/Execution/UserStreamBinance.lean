import CryptoQuant.Execution.Keepalive

/-!
# The user-stream client

`BinanceUserStreamClient.run_forever` of `execution/user_stream_binance.py`, cut
at the points where another thread can come in between: each read or write of
`_stopped` and `_reconnect_requested`, and each call of the provider, of the
socket or of the callback.
-/

namespace CryptoQuant.UserStream
set_option autoImplicit false

/-- A socket of the client: its address, and the number of keys the client had
fetched when it opened it, the last of them being the socket's own. -/
structure WebSocket where
  url : String
  fetch : ℕ
deriving DecidableEq

/-- What the thread of `run_forever` does next. -/
inductive ClientPc
  | outer                               -- `while not self._stopped`
  | fetch                               -- `get_listen_key()`
  | opening (listenKey : String)        -- `self._ws_factory(...)`
  | clearing (ws : WebSocket)           -- `self._reconnect_requested = False`
  | inner (ws : WebSocket)              -- the inner `while not self._stopped`
  | testing (ws : WebSocket)            -- `if self._reconnect_requested`
  | receiving (ws : WebSocket)          -- `ws.recv()`
  | delivering (ws : WebSocket)         -- the parser and `_on_execution_report`
  -- The handler, with the socket that `finally` closes.
  | handling (ws : Option WebSocket)    -- `if self._stopped`
  | consulting (ws : Option WebSocket)  -- `if self._reconnect_requested`
  | lowering (ws : Option WebSocket)    -- `self._reconnect_requested = False`
  | forgetting (ws : Option WebSocket)  -- `clear_cached_listen_key()`
  | sleeping (ws : Option WebSocket)    -- `self._sleep_fn(backoff)`
  | returned
  | raised
deriving DecidableEq

/-- What a call of the socket factory, of `recv()` or of the callback does. -/
inductive Outcome
  | returns
  | raises
deriving DecidableEq

/-- The settings of `BinanceUserStreamClient`. -/
structure ClientSettings where
  baseUrl : String := "wss://fstream.binance.com/ws/"
  reconnectInitialSec : ℚ := 1
  reconnectMaxSec : ℚ := 8

/-- `BinanceUserStreamClient`, with the locals of `run_forever`: the keys
`get_listen_key` has answered to it, and the sockets on which it has called
`recv()` and `close()`. -/
structure StreamClient where
  settings : ClientSettings
  stopped : Bool := false
  reconnectRequested : Bool := false
  backoff : ℚ := settings.reconnectInitialSec
  pc : ClientPc := .outer
  fetched : List String := []
  receives : List WebSocket := []
  closed : List WebSocket := []
  sleeps : List ℚ := []

namespace StreamClient

/-- `stop`. -/
def stop (c : StreamClient) : StreamClient := { c with stopped := true }

/-- `reconnect`. -/
def reconnect (c : StreamClient) : StreamClient := { c with reconnectRequested := true }

/-- The `try` statement is left, and `finally` closes the socket if there is one. -/
def leave (c : StreamClient) (ws : Option WebSocket) (pc : ClientPc) : StreamClient :=
  { c with pc, closed := c.closed ++ ws.toList }

/-- The next action of `run_forever`. -/
def step {π : Type} (provider : ListenKeyResettableProvider π) (c : StreamClient) (p : π) (outcome : Outcome) :
    StreamClient × π :=
  match c.pc with
  | .outer => ({ c with pc := if c.stopped then .returned else .fetch }, p)
  | .fetch =>
    match provider.getListenKey p with
    | (.ok listenKey, p) => ({ c with fetched := c.fetched ++ [listenKey], pc := .opening listenKey }, p)
    | (.error _, p) => ({ c with pc := .handling none }, p)
  | .opening listenKey =>
    match outcome with
    | .returns => ({ c with pc := .clearing ⟨c.settings.baseUrl ++ listenKey, c.fetched.length⟩ }, p)
    | .raises => ({ c with pc := .handling none }, p)
  | .clearing ws =>
    ({ c with backoff := c.settings.reconnectInitialSec, reconnectRequested := false, pc := .inner ws }, p)
  | .inner ws => (if c.stopped then c.leave (some ws) .outer else { c with pc := .testing ws }, p)
  | .testing ws => ({ c with pc := if c.reconnectRequested then .handling (some ws) else .receiving ws }, p)
  | .receiving ws =>
    let c := { c with receives := c.receives ++ [ws] }
    match outcome with
    | .returns => ({ c with pc := .delivering ws }, p)
    | .raises => ({ c with pc := .handling (some ws) }, p)
  | .delivering ws =>
    match outcome with
    | .returns => ({ c with pc := .inner ws }, p)
    | .raises => ({ c with pc := .handling (some ws) }, p)
  | .handling ws => (if c.stopped then c.leave ws .returned else { c with pc := .consulting ws }, p)
  | .consulting ws => ({ c with pc := if c.reconnectRequested then .lowering ws else .forgetting ws }, p)
  | .lowering ws => (({ c with reconnectRequested := false }).leave ws .outer, p)
  | .forgetting ws =>
    match provider.clearCachedListenKey p with
    | (.ok (), p) => ({ c with pc := .sleeping ws }, p)
    | (.error _, p) => (c.leave ws .raised, p)
  | .sleeping ws =>
    (({ c with sleeps := c.sleeps ++ [c.backoff],
               backoff := min (c.backoff * 2) c.settings.reconnectMaxSec }).leave ws .outer, p)
  | .returned => (c, p)
  | .raised => (c, p)

/-- A `KeyboardInterrupt` in the thread of `run_forever`, which nothing catches. -/
def interrupt (c : StreamClient) : StreamClient :=
  match c.pc with
  | .clearing ws | .inner ws | .testing ws | .receiving ws | .delivering ws => c.leave (some ws) .raised
  | .handling ws | .consulting ws | .lowering ws | .forgetting ws | .sleeping ws => c.leave ws .raised
  | .outer | .fetch | .opening _ => { c with pc := .raised }
  | .returned | .raised => c

end StreamClient

/-! ## What one action can do -/

/-- The client holds neither a fetched key nor a socket it will go on to use. -/
def ClientPc.Between : ClientPc → Prop
  | .opening _ | .clearing _ | .inner _ | .testing _ | .receiving _ | .delivering _ => False
  | _ => True

/-- What one action of a thread does to the client. -/
inductive Acted (c : StreamClient) : StreamClient → Prop
  | between (c' : StreamClient) (pc : c'.pc.Between) (settings : c'.settings = c.settings) (stopped : c'.stopped = c.stopped)
      (fetched : c'.fetched = c.fetched) (receives : c'.receives = c.receives) : Acted c c'
  | fetched (listenKey : String) (pc : c.pc = .fetch) :
      Acted c { c with fetched := c.fetched ++ [listenKey], pc := .opening listenKey }
  | opened (listenKey : String) (pc : c.pc = .opening listenKey) :
      Acted c { c with pc := .clearing ⟨c.settings.baseUrl ++ listenKey, c.fetched.length⟩ }
  | cleared (ws : WebSocket) (pc : c.pc = .clearing ws) :
      Acted c { c with backoff := c.settings.reconnectInitialSec, reconnectRequested := false, pc := .inner ws }
  | turned (ws : WebSocket) (pc : c.pc = .inner ws) (running : c.stopped = false) : Acted c { c with pc := .testing ws }
  | passed (ws : WebSocket) (pc : c.pc = .testing ws) (unasked : c.reconnectRequested = false) :
      Acted c { c with pc := .receiving ws }
  | received (ws : WebSocket) (after : ClientPc) (pc : c.pc = .receiving ws) (next : after = .delivering ws ∨ after.Between) :
      Acted c { c with receives := c.receives ++ [ws], pc := after }
  | delivered (ws : WebSocket) (pc : c.pc = .delivering ws) : Acted c { c with pc := .inner ws }
  | stopped : Acted c c.stop
  | requested : Acted c c.reconnect
  | untouched : Acted c c

theorem acted_step {π : Type} (provider : ListenKeyResettableProvider π) (c : StreamClient) (p : π) (outcome : Outcome) :
    Acted c (c.step provider p outcome).1 := by
  unfold StreamClient.step
  cases pc : c.pc with
  | outer =>
    refine .between _ ?_ rfl rfl rfl rfl
    by_cases stop : c.stopped = true
    · simp [stop, ClientPc.Between]
    · simp [stop, ClientPc.Between]
  | fetch =>
    simp only
    split
    · exact .fetched _ pc
    · exact .between _ trivial rfl rfl rfl rfl
  | opening listenKey =>
    cases outcome with
    | returns => exact .opened listenKey pc
    | raises => exact .between _ trivial rfl rfl rfl rfl
  | clearing ws => exact .cleared ws pc
  | inner ws =>
    by_cases stop : c.stopped = true
    · simp only [if_pos stop]
      exact .between _ trivial rfl rfl rfl rfl
    · simp only [if_neg stop]
      exact .turned ws pc (by simpa using stop)
  | testing ws =>
    by_cases asked : c.reconnectRequested = true
    · simp only [if_pos asked]
      exact .between _ trivial rfl rfl rfl rfl
    · simp only [if_neg asked]
      exact .passed ws pc (by simpa using asked)
  | receiving ws =>
    cases outcome with
    | returns => exact .received ws _ pc (.inl rfl)
    | raises => exact .received ws _ pc (.inr trivial)
  | delivering ws =>
    cases outcome with
    | returns => exact .delivered ws pc
    | raises => exact .between _ trivial rfl rfl rfl rfl
  | handling ws =>
    simp only
    split
    · exact .between _ trivial rfl rfl rfl rfl
    · exact .between _ trivial rfl rfl rfl rfl
  | consulting ws =>
    refine .between _ ?_ rfl rfl rfl rfl
    by_cases asked : c.reconnectRequested = true
    · simp [asked, ClientPc.Between]
    · simp [asked, ClientPc.Between]
  | lowering ws => exact .between _ trivial rfl rfl rfl rfl
  | forgetting ws =>
    simp only
    split
    · exact .between _ trivial rfl rfl rfl rfl
    · exact .between _ trivial rfl rfl rfl rfl
  | sleeping ws => exact .between _ trivial rfl rfl rfl rfl
  | returned => exact .untouched
  | raised => exact .untouched

theorem acted_interrupt (c : StreamClient) : Acted c c.interrupt := by
  unfold StreamClient.interrupt
  split
  all_goals first
    | exact .between _ trivial rfl rfl rfl rfl
    | exact .untouched

theorem Acted.fetched_le {c c' : StreamClient} (acted : Acted c c') : c.fetched.length ≤ c'.fetched.length := by
  cases acted with
  | between c' pc settings stopped fetched receives => rw [fetched]
  | fetched listenKey pc => simp
  | _ => exact le_refl _

/-! ## The sockets of a run -/

/-- The socket that the inner loop is on. -/
def ClientPc.socket : ClientPc → Option WebSocket
  | .clearing ws | .inner ws | .testing ws | .receiving ws | .delivering ws => some ws
  | _ => none

theorem ClientPc.Between.socket_eq_none {pc : ClientPc} (between : pc.Between) : pc.socket = none := by
  cases pc <;> first | rfl | cases between

/-- An action receives nothing, or once on the socket of the loop. -/
theorem Acted.receives_cases {c c' : StreamClient} (acted : Acted c c') :
    c'.receives = c.receives ∨ ∃ ws, c.pc.socket = some ws ∧ c'.receives = c.receives ++ [ws] := by
  cases acted with
  | between c' pc settings stopped fetched receives => exact .inl receives
  | received ws after pc next => exact .inr ⟨ws, by rw [pc]; rfl, rfl⟩
  | _ => exact .inl rfl

/-- The socket was opened with the key of its fetch. -/
structure OpenedWith (c : StreamClient) (listenKey : String) (ws : WebSocket) : Prop where
  url : ws.url = c.settings.baseUrl ++ listenKey
  fetched : 0 < ws.fetch ∧ c.fetched[ws.fetch - 1]? = some listenKey

/-- The client goes on with the key it has fetched last, and each socket it has
received on was opened with the key of its own fetch. -/
structure Keyed (c : StreamClient) : Prop where
  opening : ∀ listenKey, c.pc = .opening listenKey → c.fetched.getLast? = some listenKey
  socket : ∀ ws, c.pc.socket = some ws → ws.fetch = c.fetched.length ∧ ∃ listenKey, OpenedWith c listenKey ws
  receives : ∀ ws ∈ c.receives, ∃ listenKey, OpenedWith c listenKey ws

section Sockets
variable {c c' : StreamClient}

/-- Fetched keys stay fetched. -/
theorem OpenedWith.mono {listenKey : String} {ws : WebSocket} (h : OpenedWith c listenKey ws)
    (settings : c'.settings = c.settings) (more : c.fetched <+: c'.fetched) : OpenedWith c' listenKey ws := by
  obtain ⟨rest, split⟩ := more
  obtain ⟨bound, -⟩ := List.getElem?_eq_some_iff.mp h.fetched.2
  refine ⟨settings ▸ h.url, h.fetched.1, ?_⟩
  rw [← split, List.getElem?_append_left bound]
  exact h.fetched.2

/-- An action that fetches nothing and opens nothing keeps the sockets as they are. -/
theorem Keyed.keep (h : Keyed c) (settings : c'.settings = c.settings) (fetched : c'.fetched = c.fetched)
    (opening : ∀ listenKey, c'.pc = .opening listenKey → c.pc = .opening listenKey)
    (socket : ∀ ws, c'.pc.socket = some ws → c.pc.socket = some ws)
    (receives : ∀ ws ∈ c'.receives, ws ∈ c.receives ∨ c.pc.socket = some ws) : Keyed c' := by
  have same : c.fetched <+: c'.fetched := fetched ▸ List.prefix_refl _
  constructor
  · intro listenKey pc
    rw [fetched]
    exact h.opening listenKey (opening listenKey pc)
  · intro ws here
    obtain ⟨number, listenKey, opened⟩ := h.socket ws (socket ws here)
    rw [fetched]
    exact ⟨number, listenKey, opened.mono settings same⟩
  · intro ws member
    rcases receives ws member with before | now
    · obtain ⟨listenKey, opened⟩ := h.receives ws before
      exact ⟨listenKey, opened.mono settings same⟩
    · obtain ⟨-, listenKey, opened⟩ := h.socket ws now
      exact ⟨listenKey, opened.mono settings same⟩

/-- **Step lemma.** -/
theorem Keyed.acted (h : Keyed c) (acted : Acted c c') : Keyed c' := by
  cases acted with
  | between c' pc settings stopped fetched receives =>
    refine h.keep settings fetched (fun listenKey at_ => ?_) (fun ws at_ => ?_) fun ws member => ?_
    · rw [at_] at pc
      cases pc
    · rw [pc.socket_eq_none] at at_
      cases at_
    · exact .inl (receives ▸ member)
  | fetched listenKey pc =>
    constructor
    · intro k at_
      cases at_
      exact List.getLast?_concat
    · intro ws at_
      cases at_
    · intro ws member
      obtain ⟨k, opened⟩ := h.receives ws member
      exact ⟨k, opened.mono rfl (List.prefix_append _ _)⟩
  | opened listenKey pc =>
    have last := h.opening listenKey pc
    have some_ : 0 < c.fetched.length := by
      apply List.length_pos_of_ne_nil
      rintro nothing
      simp [nothing] at last
    constructor
    · intro k at_
      cases at_
    · intro ws at_
      cases at_
      exact ⟨rfl, listenKey, rfl, some_, List.getLast?_eq_getElem? ▸ last⟩
    · intro ws member
      obtain ⟨k, opened⟩ := h.receives ws member
      exact ⟨k, opened.url, opened.fetched⟩
  | cleared ws pc =>
    exact h.keep rfl rfl (fun _ at_ => by cases at_) (fun _ at_ => by rw [pc]; exact at_) fun _ member => .inl member
  | turned ws pc running =>
    exact h.keep rfl rfl (fun _ at_ => by cases at_) (fun _ at_ => by rw [pc]; exact at_) fun _ member => .inl member
  | passed ws pc unasked =>
    exact h.keep rfl rfl (fun _ at_ => by cases at_) (fun _ at_ => by rw [pc]; exact at_) fun _ member => .inl member
  | received ws after pc next =>
    have socket : c.pc.socket = some ws := by rw [pc]; rfl
    refine h.keep rfl rfl (fun k at_ => ?_) (fun w at_ => ?_) fun w member => ?_
    · rcases next with delivering | between
      · cases delivering.symm.trans at_
      · rw [show after = .opening k from at_] at between
        cases between
    · rcases next with delivering | between
      · rw [socket, ← show after.socket = some w from at_, delivering]
        rfl
      · cases between.socket_eq_none.symm.trans at_
    · rcases List.mem_append.mp member with before | now
      · exact .inl before
      · exact .inr (List.mem_singleton.mp now ▸ socket)
  | delivered ws pc =>
    exact h.keep rfl rfl (fun _ at_ => by cases at_) (fun _ at_ => by rw [pc]; exact at_) fun _ member => .inl member
  | stopped => exact h.keep rfl rfl (fun _ at_ => at_) (fun _ at_ => at_) fun _ member => .inl member
  | requested => exact h.keep rfl rfl (fun _ at_ => at_) (fun _ at_ => at_) fun _ member => .inl member
  | untouched => exact h

/-- A client that has not started yet. -/
theorem keyed_initial (settings : ClientSettings) : Keyed { settings } := by
  constructor
  · intro listenKey at_
    cases at_
  · intro ws at_
    cases at_
  · intro ws member
    cases member

end Sockets

end CryptoQuant.UserStream
