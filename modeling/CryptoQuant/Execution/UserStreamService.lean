import CryptoQuant.Events.Messages
import CryptoQuant.Execution.Reports
import CryptoQuant.Execution.UserStreamBinance

/-!
# The user-stream service

`BinanceUserStreamService` of `execution/user_stream_runtime.py`: the client of the
user stream with its parser, wired to the processor of the order management
system. Other threads submit orders, keep the listen key alive and ask for a
reconnect. What the exchange reports reaches the orders once and in order, and a
message that cannot be read or contradicts an order costs a reconnect, no more.
-/

namespace CryptoQuant.UserStream
set_option autoImplicit false

/-- The reject reason of a report: `"NONE"` and `""` are none, and a value that
cannot be in a set raises. -/
def rejectReasonOf (py : JsonBuiltins) : Option Json → Except PyError (Option String)
  | none | some .null => .ok none
  | some (.string s) => .ok (if s = "NONE" ∨ s = "" then none else some s)
  | some (.array _) | some (.object _) => .error (.external "unhashable type")
  | some value => .ok (some (py.str value))

/-- `parse_binance_execution_report`. -/
def parseBinanceExecutionReport (py : JsonBuiltins) (raw : Message) : Except PyError (Option ExecutionReport) := do
  let payload ← raw
  let data ← payload.dataOf
  let event ← data.get "e"
  if !Json.isText "ORDER_TRADE_UPDATE" event then pure none
  else do
    let order := (← data.get "o").getD (.object [])
    let clientOrderId ← order.get "c"
    let status ← order.get "X"
    if !Json.truthyOpt clientOrderId || !Json.truthyOpt status then pure none
    else do
      let rejectReason ← rejectReasonOf py (← order.get "r")
      pure (some { clientOrderId := py.str (clientOrderId.getD .null), orderStatus := py.str (status.getD .null), rejectReason })

example : parseBinanceExecutionReport .plain (.ok (.object [("e", .string "ORDER_TRADE_UPDATE"),
      ("o", .object [("c", .string "id-1"), ("X", .string "FILLED"), ("r", .string "NONE")])])) =
    .ok (some { clientOrderId := "id-1", orderStatus := "FILLED" }) := rfl

/-- What the call of the client at hand does: `recv()` may also return a message. -/
inductive Feed
  | returns
  | receives (raw : Message)
  | raises

/-- The outcome of a call, for the client. -/
def Feed.outcome : Feed → Outcome
  | .raises => .raises
  | _ => .returns

/-- The client, the state of its provider and the processor its callback is wired to:
the message that has been received and not been looked at, the messages received
so far, and what has been asked of the processor and its orders. -/
structure Service (π : Type) where
  client : StreamClient
  provider : π
  processor : UserStreamProcessor
  pending : Option Message := none
  received : List Message := []
  calls : List StreamCall := []

namespace Service
variable {π : Type} (py : JsonBuiltins) (resettable : ListenKeyResettableProvider π)

/-- The client makes its next step. -/
def goes (s : Service π) (outcome : Outcome) : Service π :=
  let (client, provider) := s.client.step resettable s.provider outcome
  { s with client, provider }

/-- The parser and `_on_execution_report`, on a message. -/
def deliver (s : Service π) (raw : Message) : Service π :=
  match parseBinanceExecutionReport py raw with
  | .error _ => s.goes resettable .raises
  | .ok none => s.goes resettable .returns
  | .ok (some report) =>
    let (result, processor) := s.processor.onExecutionReport report
    let s := { s with processor, calls := s.calls ++ [StreamCall.report report] }
    match result with
    | .error _ => s.goes resettable .raises
    | .ok () => s.goes resettable .returns

/-- The next action of the client. -/
def step (s : Service π) (feed : Feed) : Service π :=
  match s.client.pc with
  | .receiving _ =>
    match feed with
    | .receives raw => { s with pending := some raw, received := s.received ++ [raw] }.goes resettable .returns
    | _ => s.goes resettable .raises
  | .delivering _ =>
    match s.pending with
    | some raw => { s with pending := none }.deliver py resettable raw
    | none => s.goes resettable .raises
  | _ => s.goes resettable feed.outcome

end Service

/-- What can happen to a service: its client goes on, another thread submits an
order, works on the listen key, asks for a reconnect or a stop, or an interrupt
arrives. -/
inductive ServiceAction (π : Type)
  | go (feed : Feed)
  | submit (clientOrderId symbol : String) (qty : ℚ)
  | provide (provider : π)
  | reconnect
  | stop
  | interrupt

/-- The service among its surroundings. -/
def serviceMachine {π : Type} (py : JsonBuiltins) (resettable : ListenKeyResettableProvider π) :
    Run.Machine (Service π) (ServiceAction π) Unit where
  call s
    | .go feed => ((), s.step py resettable feed)
    | .submit clientOrderId symbol qty =>
      let call := StreamCall.submit clientOrderId symbol qty
      ((), { s with processor := UserStreamProcessor.stream.next s.processor call, calls := s.calls ++ [call] })
    | .provide provider => ((), { s with provider })
    | .reconnect => ((), { s with client := s.client.reconnect })
    | .stop => ((), { s with client := s.client.stop })
    | .interrupt => ((), { s with client := s.client.interrupt })

/-! ## The invariant -/

/-- The report of a message, if it is one that can be read. -/
def readable (py : JsonBuiltins) (raw : Message) : Option ExecutionReport :=
  match parseBinanceExecutionReport py raw with
  | .ok report => report
  | .error _ => none

/-- The report a call processes. -/
def reportOf : StreamCall → Option ExecutionReport
  | .report event => some event
  | .submit _ _ _ => none

/-- What a service has done so far. -/
structure Wired {π : Type} (py : JsonBuiltins) (monitoring : Option Monitoring) (s : Service π) : Prop where
  processed : s.processor = UserStreamProcessor.stream.after ⟨OMS.init, monitoring⟩ s.calls
  reports : s.calls.filterMap reportOf ++ s.pending.toList.filterMap (readable py) = s.received.filterMap (readable py)
  -- a message is pending where the client is about to look at it, or an interrupt came first
  waiting : (∃ ws, s.client.pc = .delivering ws) → s.pending.isSome = true
  idle : s.pending.isSome = true → (∃ ws, s.client.pc = .delivering ws) ∨ s.client.pc = .raised

section Step
variable {π : Type} {py : JsonBuiltins} {resettable : ListenKeyResettableProvider π} {monitoring : Option Monitoring}
  {s : Service π}

/-- A step of the client from anywhere but `recv()` does not come to the callback. -/
theorem not_delivering_step (resettable : ListenKeyResettableProvider π) (c : StreamClient) (p : π) (outcome : Outcome)
    (elsewhere : ∀ ws, c.pc ≠ .receiving ws) (ws : WebSocket) : (c.step resettable p outcome).1.pc ≠ .delivering ws := by
  unfold StreamClient.step
  cases pc : c.pc with
  | receiving ws' => exact absurd pc (elsewhere ws')
  | outer => simp only; split <;> simp
  | fetch => simp only; split <;> simp
  | opening listenKey => cases outcome <;> simp
  | clearing ws' => simp
  | inner ws' => simp only; split <;> simp [StreamClient.leave]
  | testing ws' => simp only; split <;> simp
  | delivering ws' => cases outcome <;> simp
  | handling ws' => simp only; split <;> simp [StreamClient.leave]
  | consulting ws' => simp only; split <;> simp
  | lowering ws' => simp [StreamClient.leave]
  | forgetting ws' => simp only; split <;> simp [StreamClient.leave]
  | sleeping ws' => simp [StreamClient.leave]
  | returned => simp [pc]
  | raised => simp [pc]

/-- A step of the client that does not come to the callback, with nothing pending. -/
theorem wired_goes (processed : s.processor = UserStreamProcessor.stream.after ⟨OMS.init, monitoring⟩ s.calls)
    (reports : s.calls.filterMap reportOf = s.received.filterMap (readable py)) (clear : s.pending = none)
    {outcome : Outcome} (elsewhere : ∀ ws, (s.client.step resettable s.provider outcome).1.pc ≠ .delivering ws) :
    Wired py monitoring (s.goes resettable outcome) where
  processed := processed
  reports := by
    show s.calls.filterMap reportOf ++ s.pending.toList.filterMap (readable py) = _
    rw [clear, Option.toList_none, List.filterMap_nil, List.append_nil]
    exact reports
  waiting := fun ⟨ws, here⟩ => absurd here (elsewhere ws)
  idle some := by
    have none_ : (s.goes resettable outcome).pending = none := clear
    rw [none_] at some
    cases some

/-- With nothing pending, every message has been looked at. -/
theorem Wired.caught_up (h : Wired py monitoring s) (clear : s.pending = none) :
    s.calls.filterMap reportOf = s.received.filterMap (readable py) := by
  have reports := h.reports
  rwa [clear, Option.toList_none, List.filterMap_nil, List.append_nil] at reports

/-- A message is received. -/
theorem Wired.receives (h : Wired py monitoring s) {ws : WebSocket} (pc : s.client.pc = .receiving ws)
    (clear : s.pending = none) (raw : Message) :
    Wired py monitoring ({ s with pending := some raw, received := s.received ++ [raw] }.goes resettable .returns) := by
  have next : (s.client.step resettable s.provider .returns).1.pc = .delivering ws := by
    simp only [StreamClient.step, pc]
  refine ⟨h.processed, ?_, fun _ => rfl, fun _ => .inl ⟨ws, next⟩⟩
  show s.calls.filterMap reportOf ++ [raw].filterMap (readable py) = (s.received ++ [raw]).filterMap (readable py)
  rw [List.filterMap_append, h.caught_up clear]

/-- The message at hand is looked at: a report in it is processed, and the message is done with. -/
theorem Wired.delivers (h : Wired py monitoring s) {ws : WebSocket} (pc : s.client.pc = .delivering ws) {raw : Message}
    (pending : s.pending = some raw) : Wired py monitoring ({ s with pending := none }.deliver py resettable raw) := by
  have elsewhere (outcome : Outcome) (ws : WebSocket) :
      (s.client.step resettable s.provider outcome).1.pc ≠ .delivering ws :=
    not_delivering_step resettable _ _ _ (by rw [pc]; simp) ws
  have reports := h.reports
  rw [pending, Option.toList_some] at reports
  unfold Service.deliver
  cases read : parseBinanceExecutionReport py raw with
  | error e =>
    exact wired_goes (s := { s with pending := none }) h.processed (by simpa [readable, read] using reports) rfl (elsewhere _)
  | ok found =>
    cases found with
    | none =>
      exact wired_goes (s := { s with pending := none }) h.processed (by simpa [readable, read] using reports) rfl
        (elsewhere _)
    | some report =>
      have processed : (s.processor.onExecutionReport report).2 =
          UserStreamProcessor.stream.after ⟨OMS.init, monitoring⟩ (s.calls ++ [StreamCall.report report]) := by
        rw [Run.Machine.after_snoc, ← h.processed]
        rfl
      have reports : (s.calls ++ [StreamCall.report report]).filterMap reportOf = s.received.filterMap (readable py) := by
        rw [← reports, List.filterMap_append]
        simp [reportOf, readable, read]
      simp only
      split
      · exact wired_goes processed reports rfl (elsewhere _)
      · exact wired_goes processed reports rfl (elsewhere _)

/-- **Step lemma** of the client. -/
theorem Wired.step (h : Wired py monitoring s) (feed : Feed) : Wired py monitoring (s.step py resettable feed) := by
  have clear (away : ∀ ws, s.client.pc ≠ .delivering ws) (on : s.client.pc ≠ .raised) : s.pending = none := by
    cases pending : s.pending with
    | none => rfl
    | some raw =>
      rcases h.idle (by rw [pending]; rfl) with ⟨ws, here⟩ | here
      · exact absurd here (away ws)
      · exact absurd here on
  by_cases receiving : ∃ ws, s.client.pc = .receiving ws
  · obtain ⟨ws, pc⟩ := receiving
    have none_ := clear (by simp [pc]) (by simp [pc])
    have handled (ws' : WebSocket) : (s.client.step resettable s.provider .raises).1.pc ≠ .delivering ws' := by
      simp [StreamClient.step, pc]
    cases feed with
    | receives raw =>
      have received : Wired py monitoring
          ({ s with pending := some raw, received := s.received ++ [raw] }.goes resettable .returns) := h.receives pc none_ raw
      simpa only [Service.step, pc] using received
    | returns => simpa only [Service.step, pc] using wired_goes h.processed (h.caught_up none_) none_ handled
    | raises => simpa only [Service.step, pc] using wired_goes h.processed (h.caught_up none_) none_ handled
  · by_cases delivering : ∃ ws, s.client.pc = .delivering ws
    · obtain ⟨ws, pc⟩ := delivering
      obtain ⟨raw, pending⟩ := Option.isSome_iff_exists.mp (h.waiting ⟨ws, pc⟩)
      have delivered : Wired py monitoring ({ s with pending := none }.deliver py resettable raw) := h.delivers pc pending
      simpa only [Service.step, pc, pending] using delivered
    · have elsewhere (ws : WebSocket) : s.client.pc ≠ .delivering ws := fun here => delivering ⟨ws, here⟩
      have same : s.step py resettable feed = s.goes resettable feed.outcome := by
        unfold Service.step
        split
        · rename_i ws here
          exact absurd ⟨ws, here⟩ receiving
        · rename_i ws here
          exact absurd here (elsewhere ws)
        · rfl
      rw [same]
      by_cases raised : s.client.pc = .raised
      · -- the thread has ended, and nothing moves
        have stays : s.goes resettable feed.outcome = s := by
          simp only [Service.goes, StreamClient.step, raised]
        rw [stays]
        exact h
      · have none_ := clear elsewhere raised
        refine wired_goes h.processed (h.caught_up none_) none_ fun ws => ?_
        exact not_delivering_step resettable _ _ _ (fun ws here => receiving ⟨ws, here⟩) ws

/-- **Step lemma** of the service: the other threads touch neither the messages nor the
reports. -/
theorem Wired.next (h : Wired py monitoring s) (action : ServiceAction π) :
    Wired py monitoring ((serviceMachine py resettable).next s action) := by
  cases action with
  | go feed => exact h.step feed
  | submit clientOrderId symbol qty =>
    refine ⟨?_, ?_, h.waiting, h.idle⟩
    · show UserStreamProcessor.stream.next s.processor _ = _
      rw [h.processed, ← Run.Machine.after_snoc]
      rfl
    · show (s.calls ++ [_]).filterMap reportOf ++ _ = _
      rw [List.filterMap_append, List.filterMap_cons_none rfl, List.filterMap_nil, List.append_nil]
      exact h.reports
  | provide provider => exact ⟨h.processed, h.reports, h.waiting, h.idle⟩
  | reconnect => exact ⟨h.processed, h.reports, h.waiting, h.idle⟩
  | stop => exact ⟨h.processed, h.reports, h.waiting, h.idle⟩
  | interrupt =>
    have pc : s.client.interrupt.pc = .raised ∨ s.client.interrupt = s.client := by
      unfold StreamClient.interrupt
      split <;> first | exact .inl rfl | exact .inr rfl
    refine ⟨h.processed, h.reports, ?_, ?_⟩
    · rintro ⟨ws, here⟩
      have here : s.client.interrupt.pc = .delivering ws := here
      rcases pc with raised | same
      · rw [raised] at here
        cases here
      · exact h.waiting ⟨ws, same ▸ here⟩
    · intro some
      rcases pc with raised | same
      · exact .inr raised
      · show (∃ ws, s.client.interrupt.pc = _) ∨ s.client.interrupt.pc = _
        rw [same]
        exact h.idle some

/-! ## The end of the thread -/

/-- A step of the client raises only where the clearing of the cached key does. -/
theorem raised_step {c : StreamClient} {p : π} {outcome : Outcome} (raised : (c.step resettable p outcome).1.pc = .raised) :
    c.pc = .raised ∨ ∃ e, (resettable.clearCachedListenKey p).1 = .error e := by
  revert raised
  unfold StreamClient.step
  cases pc : c.pc with
  | raised => exact fun _ => .inl rfl
  | forgetting ws =>
    simp only
    split
    · simp
    · rename_i e p' failed
      exact fun _ => .inr ⟨e, by rw [failed]⟩
  | outer => simp only; split <;> simp
  | fetch => simp only; split <;> simp
  | opening listenKey => cases outcome <;> simp
  | clearing ws => simp
  | inner ws => simp only; split <;> simp [StreamClient.leave]
  | testing ws => simp only; split <;> simp
  | receiving ws => cases outcome <;> simp
  | delivering ws => cases outcome <;> simp
  | handling ws => simp only; split <;> simp [StreamClient.leave]
  | consulting ws => simp only; split <;> simp
  | lowering ws => simp [StreamClient.leave]
  | sleeping ws => simp [StreamClient.leave]
  | returned => simp [pc]

variable (py resettable) in
/-- The client of the service makes a step of its own, whatever is at hand. -/
theorem client_step (s : Service π) (feed : Feed) :
    ∃ outcome, (s.step py resettable feed).client = (s.client.step resettable s.provider outcome).1 := by
  have delivered (s : Service π) (raw : Message) :
      ∃ outcome, (s.deliver py resettable raw).client = (s.client.step resettable s.provider outcome).1 := by
    unfold Service.deliver
    split
    · exact ⟨.raises, rfl⟩
    · exact ⟨.returns, rfl⟩
    · simp only
      split
      · exact ⟨.raises, rfl⟩
      · exact ⟨.returns, rfl⟩
  unfold Service.step
  split
  · split
    · exact ⟨.returns, rfl⟩
    · exact ⟨.raises, rfl⟩
  · split
    · exact delivered _ _
    · exact ⟨.raises, rfl⟩
  · exact ⟨feed.outcome, rfl⟩

/-- **Step lemma**: nothing but an interrupt or a failing clear ends the thread with an
exception. -/
theorem raised_next {action : ServiceAction π} (raised : ((serviceMachine py resettable).next s action).client.pc = .raised) :
    s.client.pc = .raised ∨ action = .interrupt ∨ ∃ p e, (resettable.clearCachedListenKey p).1 = .error e := by
  cases action with
  | go feed =>
    obtain ⟨outcome, same⟩ := client_step py resettable s feed
    have raised : (s.step py resettable feed).client.pc = .raised := raised
    rw [same] at raised
    exact (raised_step raised).imp_right fun failed => .inr ⟨_, failed⟩
  | interrupt => exact .inr (.inl rfl)
  | _ => exact .inl raised

end Step

/-- **From the exchange to the orders.** In every run of a service on a new order
management system, with orders submitted and the listen key worked on by other
threads, whatever the sockets, the provider and the messages do: every order has
the status of its first terminal report after its submission; the reports processed
are those of the messages received, each once and in the order received, but for
one message that the client is about to look at or was interrupted at; and the
thread ends with an exception only on an interrupt, or where the provider raises
while the cached key is cleared. -/
theorem user_stream_service {π : Type} (py : JsonBuiltins) (resettable : ListenKeyResettableProvider π)
    (monitoring : Option Monitoring) (settings : ClientSettings) (provider : π) (actions : List (ServiceAction π)) :
    let s := (serviceMachine py resettable).after
      { client := { settings }, provider, processor := ⟨OMS.init, monitoring⟩ } actions
    (∀ id, s.processor.statusOf id = expectedStatus id s.calls) ∧
    (∃ left : Option Message,
      s.calls.filterMap reportOf ++ left.toList.filterMap (readable py) = s.received.filterMap (readable py) ∧
      (left.isSome = true → (∃ ws, s.client.pc = .delivering ws) ∨ s.client.pc = .raised)) ∧
    (s.client.pc = .raised → .interrupt ∈ actions ∨ ∃ p e, (resettable.clearCachedListenKey p).1 = .error e) := by
  intro s
  have wired : Wired py monitoring s := by
    refine (serviceMachine py resettable).always ?_ (fun s action h => h.next action) actions
    exact ⟨rfl, rfl, fun ⟨ws, here⟩ => ClientPc.noConfusion here, fun some => Bool.noConfusion some⟩
  refine ⟨fun id => ?_, ⟨s.pending, wired.reports, wired.idle⟩, ?_⟩
  · rw [wired.processed]
    exact UserStreamProcessor.statusOf_after monitoring s.calls id
  · refine (serviceMachine py resettable).invariant
      (P := fun done s => s.client.pc = .raised → .interrupt ∈ done ∨ ∃ p e, (resettable.clearCachedListenKey p).1 = .error e)
      ?_ ?_ (List.append_nil actions).symm
    · intro raised
      cases raised
    intro done action rest t split reached before raised
    rcases raised_next raised with earlier | rfl | failed
    · exact (before earlier).imp_left fun member => List.mem_append_left _ member
    · exact .inl (List.mem_append_right _ List.mem_cons_self)
    · exact .inr failed

end CryptoQuant.UserStream
