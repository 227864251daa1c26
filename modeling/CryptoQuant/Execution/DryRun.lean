import CryptoQuant.Execution.LiveOrders

/-!
# The testnet dry run

`execution/dry_run.py`: a batch of requests sent through a live executor, each
filled by a simulated report of the user stream. The gateway is given by what it
does at its first call, its second call, and so on.
-/

namespace CryptoQuant.Live
set_option autoImplicit false

/-- `DryRunRequest`. -/
structure DryRunRequest where
  symbol : String
  qty : ℚ
  clientOrderId : String

/-- `DryRunResult`. -/
structure DryRunResult where
  clientOrderId : String
  exchangeOrderId : String
  finalStatus : OrderStatus
  alerts : List Alert
deriving DecidableEq

/-- The local variables of `run_testnet_dry_run_batch`: the objects it connects,
`results` and `last_alert_idx`. -/
structure DryRun where
  session : LiveSession := { executor := { oms := OMS.init }, monitoring := some {} }
  results : List DryRunResult := []
  lastAlertIdx : ℕ := 0

namespace DryRun

/-- `sink.alerts`. -/
def alerts (run : DryRun) : List Alert :=
  match run.session.monitoring with
  | none => []
  | some m => m.sink

/-- The loop body, from the look at the order on. -/
def conclude (run : DryRun) (req : DryRunRequest) (ack : LiveOrderAck) : Except PyError Unit × DryRun :=
  match run.session.executor.oms.get req.clientOrderId with
  | none => (.error (.runtimeError "order not found after dry run"), run)
  | some order =>
    let result : DryRunResult :=
      { clientOrderId := req.clientOrderId, exchangeOrderId := ack.exchangeOrderId, finalStatus := order.status,
        alerts := run.alerts.drop run.lastAlertIdx }
    (.ok (), { run with lastAlertIdx := run.alerts.length, results := run.results ++ [result] })

/-- The loop body. -/
def step (gateway : ℕ → OrderGateway) (simulateFillEvent : Bool) (run : DryRun) (req : DryRunRequest) :
    Except PyError Unit × DryRun :=
  let (answer, executor) := run.session.executor.executeMarket ⟨req.clientOrderId, req.symbol, req.qty⟩
    (gateway run.session.executor.calls.length)
  let run := { run with session := { run.session with executor } }
  match answer with
  | .error e => (.error e, run)
  | .ok ack =>
    if simulateFillEvent then
      let (processed, p) := run.session.processor.onExecutionReport ⟨req.clientOrderId, "FILLED", none⟩
      let run := { run with session := run.session.withProcessor p }
      match processed with
      | .error e => (.error e, run)
      | .ok () => run.conclude req ack
    else run.conclude req ack

/-- The loop: what it returns or raises, and the gateway calls it made. -/
def loop (gateway : ℕ → OrderGateway) (simulateFillEvent : Bool) (run : DryRun) :
    List DryRunRequest → Except PyError (List DryRunResult) × List GatewayCall
  | [] => (.ok run.results, run.session.executor.calls)
  | req :: rest =>
    match run.step gateway simulateFillEvent req with
    | (.error e, run) => (.error e, run.session.executor.calls)
    | (.ok (), run) => loop gateway simulateFillEvent run rest

end DryRun

/-- `run_testnet_dry_run_batch`, with the gateway calls it made. -/
def runTestnetDryRunBatch (gateway : ℕ → OrderGateway) (requests : List DryRunRequest) (simulateFillEvent : Bool := true) :
    Except PyError (List DryRunResult) × List GatewayCall :=
  match requests with
  | [] => (.error (.valueError "requests cannot be empty"), [])
  | requests => DryRun.loop gateway simulateFillEvent {} requests

/-- `run_testnet_dry_run`. -/
def runTestnetDryRun (gateway : ℕ → OrderGateway) (symbol : String) (qty : ℚ) (clientOrderId : String)
    (simulateFillEvent : Bool := true) : Except PyError DryRunResult × List GatewayCall :=
  let (results, calls) := runTestnetDryRunBatch gateway [⟨symbol, qty, clientOrderId⟩] simulateFillEvent
  (results >>= firstItem, calls)

/-! ## What a batch comes to -/

/-- The alert of a filled order. -/
def filledAlert (clientOrderId : String) : Alert := ⟨.info, "order.filled", s!"order filled: {clientOrderId}"⟩

/-- The ids of requests. -/
def ids (requests : List DryRunRequest) : List String := requests.map DryRunRequest.clientOrderId

/-- The first request of an id. -/
def firstOf (requests : List DryRunRequest) (id : String) : Option DryRunRequest :=
  requests.find? fun req => decide (req.clientOrderId = id)

/-- The call was made for the first request of its id, and returned an ack. -/
structure CalledFor (requests : List DryRunRequest) (id : String) (ack : LiveOrderAck) (call : GatewayCall) : Prop where
  own : call.clientOrderId = id
  acked : call.outcome = .ok ack
  payload : ∃ first, firstOf requests id = some first ∧ call.symbol = first.symbol ∧ call.qty = first.qty

/-- The request has a quantity, and if its id is new the gateway accepts it: the
calls before it were those of the distinct ids before it. -/
def Accepted (gateway : ℕ → OrderGateway) (before : List DryRunRequest) (req : DryRunRequest) : Prop :=
  req.qty ≠ 0 ∧ (req.clientOrderId ∉ ids before →
    ∃ ack, gateway (ids before).eraseDups.length req.symbol req.qty req.clientOrderId = .ok ack)

/-- What the batch has come to after some of its requests. -/
structure Served (simulateFillEvent : Bool) (before : List DryRunRequest) (run : DryRun) : Prop where
  switch : run.session.executor.killSwitch = none
  monitored : run.session.monitoring.isSome = true
  sliced : run.lastAlertIdx = run.alerts.length
  -- one gateway call for each distinct id, with an ack
  called : run.session.executor.calls.map GatewayCall.clientOrderId = (ids before).eraseDups
  acked : ∀ id ∈ ids before, ∃ call ∈ run.session.executor.calls, ∃ ack, CalledFor before id ack call ∧
    run.session.executor.acks.get? id = some ack
  unacked : ∀ id ∉ ids before, run.session.executor.acks.get? id = none ∧ run.session.orderOf id = none
  stored : ∀ id ∈ ids before, ∃ order, run.session.orderOf id = some order ∧
    order.status = if simulateFillEvent then .filled else .new

/-- What is reported for a request: the ack of the call made for its id, and the
alert of its fill where it is the first of its id. -/
def Reported (simulateFillEvent : Bool) (before : List DryRunRequest) (req : DryRunRequest) (calls : List GatewayCall)
    (result : DryRunResult) : Prop :=
  ∃ call ∈ calls, ∃ ack, CalledFor (before ++ [req]) req.clientOrderId ack call ∧
    result =
      { clientOrderId := req.clientOrderId, exchangeOrderId := ack.exchangeOrderId,
        finalStatus := if simulateFillEvent then .filled else .new,
        alerts := if simulateFillEvent ∧ req.clientOrderId ∉ ids before then [filledAlert req.clientOrderId] else [] }

section Step
variable {gateway : ℕ → OrderGateway} {simulate : Bool} {before : List DryRunRequest} {run : DryRun} {req : DryRunRequest}

theorem ids_snoc (before : List DryRunRequest) (req : DryRunRequest) :
    ids (before ++ [req]) = ids before ++ [req.clientOrderId] := List.map_append

theorem mem_ids_snoc {id : String} : id ∈ ids (before ++ [req]) ↔ id ∈ ids before ∨ id = req.clientOrderId := by
  rw [ids_snoc, List.mem_append, List.mem_singleton]

/-- Later requests do not change which is the first of a known id. -/
theorem CalledFor.snoc {id : String} {ack : LiveOrderAck} {call : GatewayCall} (called : CalledFor before id ack call)
    (req : DryRunRequest) : CalledFor (before ++ [req]) id ack call := by
  obtain ⟨first, found, payload⟩ := called.payload
  exact ⟨called.own, called.acked, first, by rw [firstOf, List.find?_append, ← firstOf, found]; rfl, payload⟩

/-- The first request of a new id is the one at hand. -/
theorem calledFor_fresh (fresh : req.clientOrderId ∉ ids before) (ack : LiveOrderAck) :
    CalledFor (before ++ [req]) req.clientOrderId ack ⟨req.symbol, req.qty, req.clientOrderId, .ok ack⟩ := by
  refine ⟨rfl, rfl, req, ?_, rfl, rfl⟩
  have none : firstOf before req.clientOrderId = none := by
    refine List.find?_eq_none.mpr fun other member same => fresh ?_
    exact List.mem_map.mpr ⟨other, member, of_decide_eq_true same⟩
  rw [firstOf, List.find?_append, ← firstOf, none]
  simp

theorem eraseDups_snoc_of_mem {l : List String} {id : String} (known : id ∈ l) : (l ++ [id]).eraseDups = l.eraseDups := by
  simp [List.eraseDups_append, List.removeAll, known]

theorem eraseDups_snoc_of_not_mem {l : List String} {id : String} (fresh : id ∉ l) :
    (l ++ [id]).eraseDups = l.eraseDups ++ [id] := by
  simp [List.eraseDups_append, List.removeAll, fresh, List.eraseDups_cons]

theorem nodup_eraseDups (l : List String) : l.eraseDups.Nodup := by
  induction l using List.reverseRecOn with
  | nil => exact List.nodup_nil
  | append_singleton l id ih =>
    by_cases known : id ∈ l
    · rwa [eraseDups_snoc_of_mem known]
    · rw [eraseDups_snoc_of_not_mem known]
      refine List.Nodup.append ih (List.nodup_singleton _) fun other earlier here => known ?_
      rw [← List.mem_singleton.mp here]
      exact List.mem_eraseDups.mp earlier

/-- A simulated fill of a stored order that is `FILLED` or `NEW`. -/
theorem filled_report {s : LiveSession} {m : Monitoring} {id : String} {order : Order} (monitored : s.monitoring = some m)
    (stored : s.orderOf id = some order) :
    (order.status = .filled → s.processor.onExecutionReport ⟨id, "FILLED", none⟩ = (.ok (), s.processor)) ∧
    (order.status = .new → s.processor.onExecutionReport ⟨id, "FILLED", none⟩ =
      (.ok (), ⟨⟨s.executor.oms.orders.set id (order.moveTo .filled fun reason => reason)⟩,
        some (m.recordOrderFilled id)⟩)) := by
  have text : strUpper "FILLED" = "FILLED" := by decide
  have found : s.processor.oms.get id = some order := stored
  constructor
  · intro filled
    simp only [UserStreamProcessor.onExecutionReport, found, text, filled]
    simp
  · intro isNew
    simp only [UserStreamProcessor.onExecutionReport, found, text, isNew, OMS.fill,
      OMS.transition_of_new found isNew, UserStreamProcessor.settle]
    simp [LiveSession.processor, monitored]
    rfl

/-- The batch once an order has been looked at and found in a status. -/
def concluded (run : DryRun) (req : DryRunRequest) (ack : LiveOrderAck) (status : OrderStatus) : DryRun :=
  { run with
    lastAlertIdx := run.alerts.length
    results := run.results ++ [⟨req.clientOrderId, ack.exchangeOrderId, status, run.alerts.drop run.lastAlertIdx⟩] }

/-- The last part of the loop body, for an order that is found. -/
theorem conclude_of_found {order : Order} {ack : LiveOrderAck} (found : run.session.orderOf req.clientOrderId = some order) :
    run.conclude req ack = (.ok (), concluded run req ack order.status) := by
  have found : run.session.executor.oms.get req.clientOrderId = some order := found
  simp only [DryRun.conclude, found]
  rfl

/-- The session once a request has been executed and its fill processed, if it is simulated. -/
def executed (simulate : Bool) (run : DryRun) (executor : LiveExecutor) (p : UserStreamProcessor) : LiveSession :=
  let session := { run.session with executor }
  if simulate then session.withProcessor p else session

/-- The loop body, for a request that is acknowledged and whose simulated fill, if
any, is processed. -/
theorem step_of_acked {executor : LiveExecutor} {ack : LiveOrderAck} {p : UserStreamProcessor}
    (acked : run.session.executor.executeMarket ⟨req.clientOrderId, req.symbol, req.qty⟩
      (gateway run.session.executor.calls.length) = (.ok ack, executor))
    (processed : simulate = true →
      (LiveSession.processor { run.session with executor }).onExecutionReport ⟨req.clientOrderId, "FILLED", none⟩ =
        (.ok (), p)) :
    run.step gateway simulate req = DryRun.conclude { run with session := executed simulate run executor p } req ack := by
  unfold DryRun.step executed
  rw [acked]
  cases simulate with
  | false => rfl
  | true => simp only [if_true, processed rfl]

/-- No kill switch is connected. -/
theorem Served.allows (served : Served simulate before run) : run.session.executor.assertAllowsExecution = .ok () := by
  rw [LiveExecutor.assertAllowsExecution, served.switch]

variable (gateway) in
/-- A request whose id is known: the stored ack, no call and no alert. -/
theorem Served.known (served : Served simulate before run) (qty : req.qty ≠ 0) (known : req.clientOrderId ∈ ids before) :
    ∃ run' result, run.step gateway simulate req = (.ok (), run') ∧ Served simulate (before ++ [req]) run' ∧
      run'.results = run.results ++ [result] ∧ run'.session.executor.calls = run.session.executor.calls ∧
      Reported simulate before req run'.session.executor.calls result := by
  obtain ⟨m, monitored⟩ := Option.isSome_iff_exists.mp served.monitored
  obtain ⟨call, member, ack, called, stored⟩ := served.acked _ known
  obtain ⟨order, found, status⟩ := served.stored _ known
  have acked : run.session.executor.executeMarket ⟨req.clientOrderId, req.symbol, req.qty⟩
      (gateway run.session.executor.calls.length) = (.ok ack, run.session.executor) := by
    simp only [LiveExecutor.executeMarket, if_neg qty, served.allows, stored]
  have processed (simulated : simulate = true) :
      run.session.processor.onExecutionReport ⟨req.clientOrderId, "FILLED", none⟩ = (.ok (), run.session.processor) :=
    (filled_report monitored found).1 (by rw [status, simulated]; rfl)
  have same : executed simulate run run.session.executor run.session.processor = run.session := by
    cases simulate <;> rfl
  have body := step_of_acked acked processed
  rw [same, conclude_of_found found] at body
  refine ⟨_, _, body, ⟨served.switch, served.monitored, rfl, ?_, ?_, ?_, ?_⟩, rfl, rfl, call, member, ack, called.snoc req, ?_⟩
  · rw [ids_snoc, eraseDups_snoc_of_mem known]
    exact served.called
  · intro id among
    have earlier : id ∈ ids before := (mem_ids_snoc.mp among).elim (fun earlier => earlier) (fun same => same ▸ known)
    obtain ⟨call, member, ack, called, stored⟩ := served.acked id earlier
    exact ⟨call, member, ack, called.snoc req, stored⟩
  · intro id other
    exact served.unacked id fun earlier => other (mem_ids_snoc.mpr (.inl earlier))
  · intro id among
    rcases mem_ids_snoc.mp among with earlier | rfl
    · exact served.stored id earlier
    · exact served.stored _ known
  · simp only [served.sliced, List.drop_length, status, known, not_true_eq_false, and_false, if_false]

/-- The executor once a request with a new id has been submitted and sent. -/
theorem Served.executes (served : Served simulate before run) (qty : req.qty ≠ 0) (fresh : req.clientOrderId ∉ ids before)
    (gateway : OrderGateway) :
    run.session.executor.executeMarket ⟨req.clientOrderId, req.symbol, req.qty⟩ gateway =
      match gateway req.symbol req.qty req.clientOrderId with
      | .error e => (.error e, run.session.executor.sent ⟨req.clientOrderId, req.symbol, req.qty⟩ gateway)
      | .ok ack => (.ok ack,
        { run.session.executor.sent ⟨req.clientOrderId, req.symbol, req.qty⟩ gateway with
          acks := run.session.executor.acks.set req.clientOrderId ack }) := by
  obtain ⟨unacked, missing⟩ := served.unacked _ fresh
  have missing : run.session.executor.oms.get req.clientOrderId = none := missing
  simp only [LiveExecutor.executeMarket, if_neg qty, served.allows, unacked, LiveExecutor.submitAndSend,
    OMS.submit_of_none _ _ _ _ missing, ne_eq, not_true_eq_false, if_false, LiveExecutor.send]
  cases outcome : gateway req.symbol req.qty req.clientOrderId <;>
    simp only [LiveExecutor.sent, callOf, outcome, OMS.submit_of_none _ _ _ _ missing]

/-- The session once the order of a new id has been acknowledged and, if that is simulated, filled. -/
structure Acknowledged (simulate : Bool) (run : DryRun) (req : DryRunRequest) (ack : LiveOrderAck) (s : LiveSession) : Prop where
  switch : s.executor.killSwitch = run.session.executor.killSwitch
  calls : s.executor.calls = run.session.executor.calls ++ [⟨req.symbol, req.qty, req.clientOrderId, .ok ack⟩]
  acks : s.executor.acks = run.session.executor.acks.set req.clientOrderId ack
  order : ∃ order, order.status = (if simulate then .filled else .new) ∧
    ∀ other, s.orderOf other = if other = req.clientOrderId then some order else run.session.orderOf other
  alerts : ∃ m, s.monitoring = some m ∧
    m.sink = run.alerts ++ if simulate then [filledAlert req.clientOrderId] else []

theorem Served.acknowledged (served : Served simulate before run) (qty : req.qty ≠ 0) (fresh : req.clientOrderId ∉ ids before)
    {ack : LiveOrderAck}
    (accepts : gateway run.session.executor.calls.length req.symbol req.qty req.clientOrderId = .ok ack) :
    ∃ s, run.step gateway simulate req = DryRun.conclude { run with session := s } req ack ∧
      Acknowledged simulate run req ack s := by
  obtain ⟨m, monitored⟩ := Option.isSome_iff_exists.mp served.monitored
  obtain ⟨unacked, missing⟩ := served.unacked _ fresh
  have missing : run.session.executor.oms.get req.clientOrderId = none := missing
  have acked := served.executes qty fresh (gateway run.session.executor.calls.length)
  simp only [accepts, LiveExecutor.sent, callOf, OMS.submit_of_none _ _ _ _ missing] at acked
  let order : Order := { clientOrderId := req.clientOrderId, symbol := req.symbol, qty := req.qty }
  let executor : LiveExecutor :=
    { run.session.executor with
      oms := ⟨run.session.executor.oms.orders.set req.clientOrderId order⟩
      acks := run.session.executor.acks.set req.clientOrderId ack
      calls := run.session.executor.calls ++ [⟨req.symbol, req.qty, req.clientOrderId, .ok ack⟩] }
  have stored : LiveSession.orderOf { run.session with executor := executor } req.clientOrderId = some order :=
    Py.Dict.get?_set_self _ _ _
  have filled := (filled_report (s := { run.session with executor := executor }) monitored stored).2 rfl
  refine ⟨_, step_of_acked acked fun _ => filled, ?_⟩
  have sink : m.sink = run.alerts := by rw [DryRun.alerts, monitored]
  cases simulate with
  | false =>
    refine ⟨rfl, rfl, rfl, ⟨order, rfl, fun other => Py.Dict.get?_set _ _ _ _⟩, m, monitored, ?_⟩
    rw [sink]
    exact (List.append_nil _).symm
  | true =>
    refine ⟨rfl, rfl, rfl, ⟨order.moveTo .filled fun reason => reason, rfl, fun other => ?_⟩, _, rfl, ?_⟩
    · show ((run.session.executor.oms.orders.set req.clientOrderId order).set req.clientOrderId _).get? other = _
      rw [Py.Dict.get?_set, Py.Dict.get?_set]
      split <;> rfl
    · rw [← sink]
      rfl

/-- A request with a new id that the gateway accepts: one call, and one alert where
the fill is simulated. -/
theorem Served.fresh (served : Served simulate before run) (qty : req.qty ≠ 0) (fresh : req.clientOrderId ∉ ids before)
    {ack : LiveOrderAck}
    (accepts : gateway run.session.executor.calls.length req.symbol req.qty req.clientOrderId = .ok ack) :
    ∃ run' result, run.step gateway simulate req = (.ok (), run') ∧ Served simulate (before ++ [req]) run' ∧
      run'.results = run.results ++ [result] ∧
      run'.session.executor.calls = run.session.executor.calls ++ [⟨req.symbol, req.qty, req.clientOrderId, .ok ack⟩] ∧
      Reported simulate before req run'.session.executor.calls result := by
  obtain ⟨s, body, made⟩ := served.acknowledged qty fresh accepts
  obtain ⟨order, status, orders⟩ := made.order
  obtain ⟨m, monitored, sink⟩ := made.alerts
  have found : ({ run with session := s } : DryRun).session.orderOf req.clientOrderId = some order := by
    show s.orderOf req.clientOrderId = some order
    rw [orders, if_pos rfl]
  rw [conclude_of_found found] at body
  have alerts : DryRun.alerts { run with session := s } = run.alerts ++ if simulate then [filledAlert req.clientOrderId] else [] := by
    rw [DryRun.alerts, monitored]
    exact sink
  have own (id : String) (other : id ∉ ids (before ++ [req])) : id ∉ ids before ∧ id ≠ req.clientOrderId :=
    ⟨fun earlier => other (mem_ids_snoc.mpr (.inl earlier)), fun same => other (mem_ids_snoc.mpr (.inr same))⟩
  refine ⟨_, _, body, ⟨made.switch.trans served.switch, Option.isSome_iff_exists.mpr ⟨m, monitored⟩, rfl, ?_, ?_, ?_, ?_⟩, rfl,
    made.calls, ⟨req.symbol, req.qty, req.clientOrderId, .ok ack⟩, ?_, ack,
    calledFor_fresh fresh ack, ?_⟩
  · rw [ids_snoc, eraseDups_snoc_of_not_mem fresh, ← served.called]
    show s.executor.calls.map _ = _
    rw [made.calls, List.map_append]
    rfl
  · intro id among
    show ∃ call ∈ s.executor.calls, ∃ ack, _ ∧ s.executor.acks.get? id = some ack
    rw [made.calls, made.acks]
    by_cases same : id = req.clientOrderId
    · subst same
      exact ⟨_, List.mem_append_right _ List.mem_cons_self, ack, calledFor_fresh fresh ack, Py.Dict.get?_set_self _ _ _⟩
    · have earlier := (mem_ids_snoc.mp among).resolve_right same
      obtain ⟨call, member, ack', called, stored⟩ := served.acked id earlier
      exact ⟨call, List.mem_append_left _ member, ack', called.snoc req, by rw [Py.Dict.get?_set_ne _ _ same, stored]⟩
  · intro id other
    obtain ⟨earlier, apart⟩ := own id other
    obtain ⟨unacked, missing⟩ := served.unacked id earlier
    refine ⟨?_, ?_⟩
    · show s.executor.acks.get? id = none
      rw [made.acks, Py.Dict.get?_set_ne _ _ apart, unacked]
    · show s.orderOf id = none
      rw [orders, if_neg apart, missing]
  · intro id among
    show ∃ order, s.orderOf id = some order ∧ _
    rw [orders]
    by_cases same : id = req.clientOrderId
    · exact ⟨order, if_pos same, status⟩
    · rw [if_neg same]
      exact served.stored id ((mem_ids_snoc.mp among).resolve_right same)
  · show _ ∈ s.executor.calls
    rw [made.calls]
    exact List.mem_append_right _ List.mem_cons_self
  · show (⟨_, _, order.status, (DryRun.alerts { run with session := s }).drop run.lastAlertIdx⟩ : DryRunResult) = _
    rw [alerts, served.sliced, List.drop_left, status]
    simp only [fresh, not_false_eq_true, and_true]

/-- A request that is not accepted ends the batch, after one call for a new id at
most. -/
theorem Served.refused (served : Served simulate before run) (refused : ¬ Accepted gateway before req) :
    ∃ e run', run.step gateway simulate req = (.error e, run') ∧
      (run'.session.executor.calls.map GatewayCall.clientOrderId).Nodup := by
  have distinct : (run.session.executor.calls.map GatewayCall.clientOrderId).Nodup := by
    rw [served.called]
    exact nodup_eraseDups _
  by_cases zero : req.qty = 0
  · refine ⟨.valueError "qty must be non-zero", run, ?_, distinct⟩
    simp only [DryRun.step, LiveExecutor.executeMarket, if_pos zero]
  obtain ⟨fresh, denied⟩ : req.clientOrderId ∉ ids before ∧
      ∀ ack, gateway (ids before).eraseDups.length req.symbol req.qty req.clientOrderId ≠ .ok ack := by
    simpa [Accepted, zero] using refused
  rw [← served.called, List.length_map] at denied
  have outcome := served.executes zero fresh (gateway run.session.executor.calls.length)
  cases raised : gateway run.session.executor.calls.length req.symbol req.qty req.clientOrderId with
  | ok ack => exact absurd raised (denied ack)
  | error e =>
    rw [raised] at outcome
    refine ⟨e, _, by simp only [DryRun.step, outcome]; rfl, ?_⟩
    show ((run.session.executor.calls ++ [_]).map GatewayCall.clientOrderId).Nodup
    rw [List.map_append, List.map_singleton, served.called]
    show ((ids before).eraseDups ++ [req.clientOrderId]).Nodup
    rw [← eraseDups_snoc_of_not_mem fresh]
    exact nodup_eraseDups _

/-- What has been reported for the requests served so far. -/
structure Listed (simulate : Bool) (before : List DryRunRequest) (run : DryRun) : Prop where
  served : Served simulate before run
  length : run.results.length = before.length
  entries : ∀ (k : ℕ) req, before[k]? = some req → ∃ result, run.results[k]? = some result ∧
    Reported simulate (before.take k) req run.session.executor.calls result

/-- **Step lemma**: an accepted request is served and reported. -/
theorem Listed.step (listed : Listed simulate before run) (accepted : Accepted gateway before req) :
    ∃ run', run.step gateway simulate req = (.ok (), run') ∧ Listed simulate (before ++ [req]) run' := by
  obtain ⟨run', result, body, served, results, calls, reported⟩ : ∃ run' result,
      run.step gateway simulate req = (.ok (), run') ∧ Served simulate (before ++ [req]) run' ∧
        run'.results = run.results ++ [result] ∧
        (∀ call ∈ run.session.executor.calls, call ∈ run'.session.executor.calls) ∧
        Reported simulate before req run'.session.executor.calls result := by
    by_cases known : req.clientOrderId ∈ ids before
    · obtain ⟨run', result, body, served, results, calls, reported⟩ := listed.served.known gateway accepted.1 known
      exact ⟨run', result, body, served, results, fun call member => calls ▸ member, reported⟩
    · obtain ⟨ack, accepts⟩ := accepted.2 known
      rw [← listed.served.called, List.length_map] at accepts
      obtain ⟨run', result, body, served, results, calls, reported⟩ := listed.served.fresh accepted.1 known accepts
      exact ⟨run', result, body, served, results, fun call member => calls ▸ List.mem_append_left _ member, reported⟩
  refine ⟨run', body, served, by rw [results, List.length_append, List.length_append, listed.length]; rfl, ?_⟩
  intro k asked found
  rw [results]
  rcases Nat.lt_trichotomy k before.length with earlier | here | later
  · rw [List.getElem?_append_left earlier] at found
    obtain ⟨entry, stored, call, member, ack, called, shown⟩ := listed.entries k asked found
    have reported : k < run.results.length := by rw [listed.length]; exact earlier
    rw [List.getElem?_append_left reported, List.take_append_of_le_length earlier.le]
    exact ⟨entry, stored, call, calls call member, ack, called, shown⟩
  · subst here
    rw [List.getElem?_concat_length] at found
    cases found
    rw [← listed.length, List.getElem?_concat_length, listed.length, List.take_left]
    exact ⟨result, rfl, reported⟩
  · rw [List.getElem?_eq_none (by rw [List.length_append, List.length_singleton]; omega)] at found
    cases found

/-- **Run lemma** for the loop, from any request on. -/
theorem loop_listed (gateway : ℕ → OrderGateway) (rest : List DryRunRequest) (listed : Listed simulate before run) :
    ((run.loop gateway simulate rest).2.map GatewayCall.clientOrderId).Nodup ∧
    ((∀ done req later, rest = done ++ req :: later → Accepted gateway (before ++ done) req) →
      ∃ run', run.loop gateway simulate rest = (.ok run'.results, run'.session.executor.calls) ∧
        Listed simulate (before ++ rest) run') ∧
    ((∃ results, (run.loop gateway simulate rest).1 = .ok results) →
      ∀ done req later, rest = done ++ req :: later → Accepted gateway (before ++ done) req) := by
  induction rest generalizing before run with
  | nil =>
    refine ⟨?_, fun _ => ⟨run, rfl, by rwa [List.append_nil]⟩, fun _ done req later split => ?_⟩
    · show (run.session.executor.calls.map GatewayCall.clientOrderId).Nodup
      rw [listed.served.called]
      exact nodup_eraseDups _
    · exact absurd split (by simp)
  | cons req rest ih =>
    have shifted (run' : DryRun) (next : run.step gateway simulate req = (.ok (), run')) :
        run.loop gateway simulate (req :: rest) = run'.loop gateway simulate rest := by
      simp only [DryRun.loop, next]
    by_cases accepted : Accepted gateway before req
    · obtain ⟨run', next, listed'⟩ := listed.step accepted
      rw [shifted run' next]
      obtain ⟨distinct, succeeds, onlyIf⟩ := ih listed'
      refine ⟨distinct, fun all => ?_, fun ends done other later split => ?_⟩
      · obtain ⟨last, result, listedLast⟩ := succeeds fun done other later split => by
          rw [List.append_assoc]
          exact all (req :: done) other later (by rw [split]; rfl)
        exact ⟨last, result, by rwa [List.append_assoc] at listedLast⟩
      · cases done with
        | nil =>
          cases split
          rwa [List.append_nil]
        | cons first done =>
          cases split
          have after := onlyIf ends done other later rfl
          rwa [List.append_assoc] at after
    · obtain ⟨e, run', next, distinct⟩ := listed.served.refused accepted
      have ended : run.loop gateway simulate (req :: rest) = (.error e, run'.session.executor.calls) := by
        simp only [DryRun.loop, next]
      rw [ended]
      refine ⟨distinct, fun all => ?_, fun ⟨results, returns⟩ => by cases returns⟩
      have here := all [] req rest rfl
      rw [List.append_nil] at here
      exact absurd here accepted

end Step

/-- **What a dry run reports.** For every gateway and every batch: at most one call is
made for an id, also by a batch that raises; the batch returns exactly when it is
not empty, no request asks for nothing, and the gateway accepts the first request
of each id; and then there is one call for each distinct id, in the order of its
first request and with its payload, and one result for each request, with the ack
of its id, the status of a simulated fill or `NEW`, and the alert of that fill at
the first request of the id and nowhere else. -/
theorem dry_run_batch (gateway : ℕ → OrderGateway) (requests : List DryRunRequest) (simulate : Bool) :
    ((runTestnetDryRunBatch gateway requests simulate).2.map GatewayCall.clientOrderId).Nodup ∧
    ((∃ results, (runTestnetDryRunBatch gateway requests simulate).1 = .ok results) ↔
      requests ≠ [] ∧ ∀ before req later, requests = before ++ req :: later → Accepted gateway before req) ∧
    ∀ results, (runTestnetDryRunBatch gateway requests simulate).1 = .ok results →
      results.length = requests.length ∧
      (runTestnetDryRunBatch gateway requests simulate).2.map GatewayCall.clientOrderId = (ids requests).eraseDups ∧
      ∀ (k : ℕ) req, requests[k]? = some req → ∃ result, results[k]? = some result ∧
        Reported simulate (requests.take k) req (runTestnetDryRunBatch gateway requests simulate).2 result := by
  cases requests with
  | nil =>
    refine ⟨List.nodup_nil, ⟨?_, fun h => absurd rfl h.1⟩, fun results returns => ?_⟩
    · rintro ⟨results, returns⟩
      cases returns
    · cases returns
  | cons first rest =>
    have start : Listed simulate [] ({} : DryRun) := by
      refine ⟨⟨rfl, rfl, rfl, rfl, ?_, fun id _ => ⟨rfl, rfl⟩, ?_⟩, rfl, ?_⟩
      · intro id among
        exact absurd among List.not_mem_nil
      · intro id among
        exact absurd among List.not_mem_nil
      · intro k req found
        cases found
    obtain ⟨distinct, succeeds, onlyIf⟩ := loop_listed gateway (first :: rest) start
    have returns_ (results : List DryRunResult)
        (returns : (DryRun.loop gateway simulate {} (first :: rest)).1 = .ok results) :=
      succeeds (onlyIf ⟨results, returns⟩)
    refine ⟨distinct, ⟨fun ends => ⟨List.cons_ne_nil _ _, onlyIf ends⟩, fun h => ?_⟩, fun results returns => ?_⟩
    · obtain ⟨run, returned, -⟩ := succeeds h.2
      exact ⟨run.results, congrArg Prod.fst returned⟩
    · obtain ⟨run, returned, listed⟩ := returns_ results returns
      have same : run.results = results := Except.ok.inj ((congrArg Prod.fst returned).symm.trans returns)
      subst same
      have calls : (runTestnetDryRunBatch gateway (first :: rest) simulate).2 = run.session.executor.calls :=
        congrArg Prod.snd returned
      rw [calls]
      exact ⟨listed.length, listed.served.called, listed.entries⟩

end CryptoQuant.Live
