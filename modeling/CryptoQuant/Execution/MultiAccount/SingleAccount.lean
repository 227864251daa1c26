import CryptoQuant.Execution.MultiAccount.Sends
import CryptoQuant.Execution.LiveOrders

/-!
# One account of the multi-account executor

Driven for a single account, the multi-account executor is the live executor over
that account's gateway: the same orders, acks and gateway calls after every run,
and the same answers, error texts included, up to a second payload for an acked
id, which it refuses and the live executor does not look at.
-/

namespace CryptoQuant.MultiAccount
set_option autoImplicit false

open Live (LiveExecutor LiveSession)

/-- What can be asked of one account. -/
inductive AccountAction
  | order (clientOrderId symbol : String) (qty : ℚ) (exchange : Exchange)
  | report (clientOrderId orderStatus : String) (rejectReason : Option String)
  | fill (clientOrderId : String)
  | cancel (clientOrderId : String)
  | reject (clientOrderId reason : String)
  | engage (reason : String) (scope : KillSwitchScope) (accountId strategyId : Option String)
  | release (scope : KillSwitchScope) (accountId strategyId : Option String)

namespace AccountAction

/-- The action, of the multi-account executor: what others do to an order names
its scoped id. -/
def multi (account : String) (ref : OmsRef) : AccountAction → Action
  | order clientOrderId symbol qty exchange => .execute ⟨account, clientOrderId, symbol, qty⟩ exchange
  | report clientOrderId orderStatus rejectReason =>
    .report ref ⟨scopedId account clientOrderId, orderStatus, rejectReason⟩
  | fill clientOrderId => .transition ref (scopedId account clientOrderId) .filled fun reason => reason
  | cancel clientOrderId => .transition ref (scopedId account clientOrderId) .canceled fun reason => reason
  | reject clientOrderId reason => .transition ref (scopedId account clientOrderId) .rejected fun _ => some reason
  | engage reason scope accountId strategyId => .engage reason scope accountId strategyId
  | release scope accountId strategyId => .release scope accountId strategyId

/-- The action, of a live session over the gateway of the account. -/
def single (config : BinanceGatewayConfig) : AccountAction → Live.Action
  | order clientOrderId symbol qty exchange => .execute ⟨clientOrderId, symbol, qty⟩ (config.placeMarketOrder exchange)
  | report clientOrderId orderStatus rejectReason => .report ⟨clientOrderId, orderStatus, rejectReason⟩
  | fill clientOrderId => .fill clientOrderId
  | cancel clientOrderId => .cancel clientOrderId
  | reject clientOrderId reason => .reject clientOrderId reason
  | engage reason scope accountId strategyId => .engage reason scope accountId strategyId
  | release scope accountId strategyId => .release scope accountId strategyId

/-- The action engages the switch at the level of the account. -/
def Blocks (account : String) : AccountAction → Prop
  | engage _ scope accountId _ => scope = .account ∧ accountId = some account
  | _ => False

end AccountAction

/-- An order as the order management system of the account has it. -/
def ofAccountOrder (account : String) (order : Order) : Order :=
  { order with clientOrderId := scopedId account order.clientOrderId }

/-- A gateway call as the multi-account gateway sees it. -/
def ofAccount (account : String) (call : Live.GatewayCall) : GatewayCall :=
  ⟨account, call.symbol, call.qty, call.clientOrderId, call.outcome⟩

/-- The multi-account executor looks for its account as the live session does. -/
structure Mirrors (account : String) (ref : OmsRef) (config : BinanceGatewayConfig) (ex : MultiAccountLiveExecutor)
    (s : LiveSession) : Prop where
  registered : ex.omsByAccount.get? account = some ref
  configured : ex.gateway.accounts.get? account = some config
  unchecked : ex.complianceChecker = none
  switch : ex.killSwitch = s.executor.killSwitch
  unblocked : ∀ ks, ex.killSwitch = some ks → ks.accountReasons.get? account = none
  orders : ∀ id, (ex.heap ref).get (scopedId account id) = (s.orderOf id).map (ofAccountOrder account)
  acks : ∀ id, ex.acks.get? (account, id) = s.executor.getAck id
  calls : ex.calls = s.executor.calls.map (ofAccount account)

theorem scopedId_inj {account id id' : String} : scopedId account id = scopedId account id' ↔ id = id' := by
  constructor
  · intro same
    have parts (id : String) : scopedId account id = account ++ ":" ++ id := rfl
    rw [parts, parts] at same
    exact String.append_right_inj _ |>.mp same
  · rintro rfl
    rfl

theorem ofAccountOrder_settle (account : String) (order : Order) (target : OrderStatus) (reason : Option String → Option String) :
    (ofAccountOrder account order).settle target reason = ofAccountOrder account (order.settle target reason) := by
  unfold Order.settle
  show (if order.status = .new then _ else _) = _
  split <;> rfl

section Mirror
variable {account : String} {ref : OmsRef} {config : BinanceGatewayConfig} {ex : MultiAccountLiveExecutor} {s : LiveSession}

/-- Without a block of the account the kill switch says the same to both. -/
theorem Mirrors.allows (h : Mirrors account ref config ex s) :
    ex.assertAllowsExecution account = s.executor.assertAllowsExecution := by
  unfold MultiAccountLiveExecutor.assertAllowsExecution LiveExecutor.assertAllowsExecution
  rw [← h.switch]
  cases here : ex.killSwitch with
  | none => rfl
  | some ks =>
    have clear := h.unblocked ks here
    simp only [KillSwitch.assertAllowsExecution, KillSwitch.resolveBlock, Option.bind_some, Option.bind_none, clear]

/-- The audit trail is not mirrored. -/
theorem Mirrors.of_same (h : Mirrors account ref config ex s) {ex' : MultiAccountLiveExecutor} (same : SameBooks ex ex')
    (gateway : ex'.gateway = ex.gateway) : Mirrors account ref config ex' s where
  registered := by rw [same.omsByAccount, h.registered]
  configured := by rw [gateway, h.configured]
  unchecked := by rw [same.complianceChecker, h.unchecked]
  switch := by rw [same.killSwitch, h.switch]
  unblocked := by rw [same.killSwitch]; exact h.unblocked
  orders := by rw [same.heap]; exact h.orders
  acks := by rw [same.acks]; exact h.acks
  calls := by rw [same.calls, h.calls]

/-- Both order management systems may be worked on, if the orders stay mirrored. -/
theorem Mirrors.withOms (h : Mirrors account ref config ex s) {oms oms' : OMS}
    (orders : ∀ id, oms.get (scopedId account id) = (oms'.get id).map (ofAccountOrder account)) :
    Mirrors account ref config { ex with heap := Function.update ex.heap ref oms } (s.withOms oms') where
  registered := h.registered
  configured := h.configured
  unchecked := h.unchecked
  switch := h.switch
  unblocked := h.unblocked
  orders := by
    show ∀ id, (Function.update ex.heap ref oms ref).get (scopedId account id) = (oms'.get id).map (ofAccountOrder account)
    rw [Function.update_self]
    exact orders
  acks := h.acks
  calls := h.calls

/-- A fresh id is stored alike, a known one is found alike. -/
theorem Mirrors.submit (h : Mirrors account ref config ex s) (id symbol : String) (qty : ℚ) :
    ((ex.heap ref).submit (scopedId account id) symbol qty).1 = ofAccountOrder account (s.executor.oms.submit id symbol qty).1 := by
  have mirrored := h.orders id
  cases found : s.orderOf id with
  | some order =>
    rw [found] at mirrored
    rw [OMS.submit_of_some _ _ _ _ mirrored, OMS.submit_of_some _ _ _ _ found]
  | none =>
    rw [found] at mirrored
    rw [OMS.submit_of_none _ _ _ _ mirrored, OMS.submit_of_none _ _ _ _ found]
    rfl

theorem Mirrors.submitted (h : Mirrors account ref config ex s) (id symbol : String) (qty : ℚ) :
    Mirrors account ref config
      { ex with heap := Function.update ex.heap ref ((ex.heap ref).submit (scopedId account id) symbol qty).2 }
      (s.withOms (s.executor.oms.submit id symbol qty).2) := by
  refine h.withOms fun other => ?_
  rw [OMS.get_submit_eq, OMS.get_submit_eq, h.submit, h.orders, LiveSession.orderOf]
  by_cases own : other = id
  · rw [if_pos (scopedId_inj.mpr own), if_pos own, Option.map_some]
  · rw [if_neg (fun same => own (scopedId_inj.mp same)), if_neg own]

theorem Mirrors.transition (h : Mirrors account ref config ex s) (id : String) (target : OrderStatus)
    (reason : Option String → Option String) :
    Mirrors account ref config
      { ex with heap := Function.update ex.heap ref ((ex.heap ref).transition (scopedId account id) target reason).2 }
      (s.withOms (s.executor.oms.transition id target reason).2) := by
  refine h.withOms fun other => ?_
  rw [OMS.get_transition_eq, OMS.get_transition_eq, h.orders, h.orders, LiveSession.orderOf, LiveSession.orderOf]
  by_cases own : other = id
  · rw [if_pos (scopedId_inj.mpr own), if_pos own, Option.map_map, Option.map_map]
    exact congrArg (Option.map · _) (funext fun order => ofAccountOrder_settle account order target reason)
  · rw [if_neg (fun same => own (scopedId_inj.mp same)), if_neg own]

theorem Mirrors.report (h : Mirrors account ref config ex s) (id orderStatus : String) (rejectReason : Option String) :
    Mirrors account ref config (machine.next ex (.report ref ⟨scopedId account id, orderStatus, rejectReason⟩))
      (Live.machine.next s (.report ⟨id, orderStatus, rejectReason⟩)) := by
  let event : ExecutionReport := ⟨id, orderStatus, rejectReason⟩
  let scopedEvent : ExecutionReport := ⟨scopedId account id, orderStatus, rejectReason⟩
  have orders (other : String) : (UserStreamProcessor.onExecutionReport ⟨ex.heap ref, none⟩ scopedEvent).2.oms.get
      (scopedId account other) = ((s.processor.onExecutionReport event).2.oms.get other).map (ofAccountOrder account) := by
      rw [UserStreamProcessor.get_onExecutionReport, UserStreamProcessor.get_onExecutionReport]
      show (if scopedId account other = scopedId account id then ((ex.heap ref).get _).map _ else (ex.heap ref).get _) =
        (if other = id then (s.orderOf other).map _ else s.orderOf other).map _
      rw [h.orders]
      by_cases own : other = id
      · rw [if_pos (scopedId_inj.mpr own), if_pos own, Option.map_map, Option.map_map]
        refine congrArg (Option.map · _) (funext fun order => ?_)
        show UserStreamProcessor.reported event (ofAccountOrder account order) =
          ofAccountOrder account (UserStreamProcessor.reported event order)
        unfold UserStreamProcessor.reported
        cases terminalOf event.orderStatus with
        | none => rfl
        | some target => exact ofAccountOrder_settle account order target _
      · rw [if_neg (fun same => own (scopedId_inj.mp same)), if_neg own]
  have moved := h.withOms orders
  exact ⟨moved.registered, moved.configured, moved.unchecked, moved.switch, moved.unblocked, moved.orders, moved.acks,
    moved.calls⟩

/-- The same work on both switches is mirrored, if it does not block the account. -/
theorem Mirrors.withSwitch (h : Mirrors account ref config ex s) {f : KillSwitch → KillSwitch}
    (clear : ∀ ks, ex.killSwitch = some ks → (f ks).accountReasons.get? account = none) :
    Mirrors account ref config { ex with killSwitch := ex.killSwitch.map f } (s.withSwitch f) where
  registered := h.registered
  configured := h.configured
  unchecked := h.unchecked
  switch := congrArg (Option.map f) h.switch
  unblocked ks here := by
    obtain ⟨before, found, rfl⟩ := Option.map_eq_some_iff.mp here
    exact clear before found
  orders := h.orders
  acks := h.acks
  calls := h.calls

/-- From the gateway call on. -/
theorem Mirrors.send (h : Mirrors account ref config ex s) (id symbol : String) (qty : ℚ) (exchange : Exchange) :
    Mirrors account ref config (ex.send ⟨account, id, symbol, qty⟩ exchange).2
        { s with executor := (s.executor.send ⟨id, symbol, qty⟩ (config.placeMarketOrder exchange)).2 } ∧
      (ex.send ⟨account, id, symbol, qty⟩ exchange).1 =
        (s.executor.send ⟨id, symbol, qty⟩ (config.placeMarketOrder exchange)).1 := by
  have placed : ex.gateway.placeMarketOrder exchange account symbol qty id = config.placeMarketOrder exchange symbol qty id := by
    rw [MultiAccountBinanceGateway.placeMarketOrder, h.configured]
  have calls (call : Live.GatewayCall) :
      ex.calls ++ [ofAccount account call] = (s.executor.calls ++ [call]).map (ofAccount account) := by
    rw [List.map_append, ← h.calls]
    rfl
  unfold MultiAccountLiveExecutor.send LiveExecutor.send
  simp only [placed]
  cases outcome : config.placeMarketOrder exchange symbol qty id with
  | error e =>
    exact ⟨⟨h.registered, h.configured, h.unchecked, h.switch, h.unblocked, h.orders, h.acks,
      calls ⟨symbol, qty, id, .error e⟩⟩, rfl⟩
  | ok ack =>
    refine ⟨⟨h.registered, h.configured, h.unchecked, h.switch, h.unblocked, h.orders, fun other => ?_,
      calls ⟨symbol, qty, id, .ok ack⟩⟩, rfl⟩
    show (ex.acks.set (account, id) ack).get? (account, other) = (s.executor.acks.set id ack).get? other
    rw [Py.Dict.get?_set, Py.Dict.get?_set, h.acks]
    by_cases own : other = id
    · rw [if_pos (by rw [own]), if_pos own]
    · rw [if_neg (fun same => own (congrArg Prod.snd same)), if_neg own]
      rfl

/-- From the submit on. -/
theorem Mirrors.submitAndSend (h : Mirrors account ref config ex s) (id symbol : String) (qty : ℚ) (exchange : Exchange) :
    Mirrors account ref config (ex.submitAndSend ⟨account, id, symbol, qty⟩ exchange ref).2
        { s with executor := (s.executor.submitAndSend ⟨id, symbol, qty⟩ (config.placeMarketOrder exchange)).2 } ∧
      (ex.submitAndSend ⟨account, id, symbol, qty⟩ exchange ref).1 =
        (s.executor.submitAndSend ⟨id, symbol, qty⟩ (config.placeMarketOrder exchange)).1 := by
  have stored := h.submitted id symbol qty
  have found := h.submit id symbol qty
  have status : ((ex.heap ref).submit (scopedId account id) symbol qty).1.status =
      (s.executor.oms.submit id symbol qty).1.status := by rw [found]; rfl
  unfold MultiAccountLiveExecutor.submitAndSend LiveExecutor.submitAndSend
  simp only [MultiAccountOrderRequest.scopedClientOrderId, status]
  by_cases moved : (s.executor.oms.submit id symbol qty).1.status ≠ .new
  · rw [if_pos moved, if_pos moved]
    exact ⟨stored, rfl⟩
  · rw [if_neg moved, if_neg moved]
    exact (stored.of_same (audit_same _ _ _) rfl).send id symbol qty exchange

/-- A request that has an ack for its id, but asks for something else. -/
structure Conflicting (ex : MultiAccountLiveExecutor) (req : MultiAccountOrderRequest) (ack : LiveOrderAck) : Prop where
  qty : req.qty ≠ 0
  allowed : ex.assertAllowsExecution req.accountId = .ok ()
  acked : ex.acks.get? req.cacheKey = some ack
  payload : ex.requestFingerprintByKey.get? req.cacheKey ≠ some req.fingerprint

/-- **A request of the account**: both make the same of it, but for a conflicting
payload. -/
theorem Mirrors.execute (h : Mirrors account ref config ex s) (id symbol : String) (qty : ℚ) (exchange : Exchange) :
    Mirrors account ref config (ex.executeMarket ⟨account, id, symbol, qty⟩ exchange).2
        { s with executor := (s.executor.executeMarket ⟨id, symbol, qty⟩ (config.placeMarketOrder exchange)).2 } ∧
      ((ex.executeMarket ⟨account, id, symbol, qty⟩ exchange).1 =
          (s.executor.executeMarket ⟨id, symbol, qty⟩ (config.placeMarketOrder exchange)).1 ∨
        ∃ ack, Conflicting ex ⟨account, id, symbol, qty⟩ ack ∧
          (ex.executeMarket ⟨account, id, symbol, qty⟩ exchange).1 =
            .error (.valueError "conflicting payload for existing account_id + client_order_id") ∧
          (s.executor.executeMarket ⟨id, symbol, qty⟩ (config.placeMarketOrder exchange)).1 = .ok ack) := by
  unfold MultiAccountLiveExecutor.executeMarket LiveExecutor.executeMarket
  by_cases zero : qty = 0
  · rw [if_pos zero, if_pos zero]
    exact ⟨h, .inl rfl⟩
  rw [if_neg zero, if_neg zero]
  have gates := h.allows
  cases allowed : s.executor.assertAllowsExecution with
  | error e =>
    rw [allowed] at gates
    rw [gates]
    exact ⟨h, .inl rfl⟩
  | ok passed =>
    rw [allowed] at gates
    rw [gates]
    cases acked : s.executor.acks.get? id with
    | some ack =>
      have found : ex.acks.get? (MultiAccountOrderRequest.cacheKey ⟨account, id, symbol, qty⟩) = some ack :=
        (h.acks id).trans acked
      rw [found]
      dsimp only
      by_cases conflict : ex.requestFingerprintByKey.get? (MultiAccountOrderRequest.cacheKey ⟨account, id, symbol, qty⟩) ≠
          some (MultiAccountOrderRequest.fingerprint ⟨account, id, symbol, qty⟩)
      · rw [if_pos conflict]
        exact ⟨h, .inr ⟨ack, ⟨zero, gates, found, conflict⟩, rfl, rfl⟩⟩
      · rw [if_neg conflict]
        exact ⟨h.of_same (audit_same _ _ _) rfl, .inl rfl⟩
    | none =>
      have missing : ex.acks.get? (MultiAccountOrderRequest.cacheKey ⟨account, id, symbol, qty⟩) = none :=
        (h.acks id).trans acked
      have compliant : ex.checkOrder ⟨account, id, symbol, qty⟩ = { allowed := true } := by
        rw [MultiAccountLiveExecutor.checkOrder, h.unchecked]
      simp only [missing, MultiAccountLiveExecutor.executeFresh, compliant, h.registered, Bool.true_eq_false, if_false]
      obtain ⟨mirrored, same⟩ := h.submitAndSend id symbol qty exchange
      exact ⟨mirrored, .inl same⟩

/-- **Step lemma.** -/
theorem Mirrors.step (h : Mirrors account ref config ex s) {action : AccountAction} (harmless : ¬ action.Blocks account) :
    Mirrors account ref config (machine.next ex (action.multi account ref)) (Live.machine.next s (action.single config)) := by
  cases action with
  | order id symbol qty exchange => exact (h.execute id symbol qty exchange).1
  | report id orderStatus rejectReason => exact h.report id orderStatus rejectReason
  | fill id => exact h.transition id .filled fun reason => reason
  | cancel id => exact h.transition id .canceled fun reason => reason
  | reject id reason => exact h.transition id .rejected fun _ => some reason
  | engage reason scope accountId strategyId =>
    refine h.withSwitch fun ks here => ?_
    have clear := h.unblocked ks here
    cases scope with
    | global => exact clear
    | strategy => cases strategyId <;> exact clear
    | account =>
      cases accountId with
      | none => exact clear
      | some blocked =>
        have other : account ≠ blocked := fun same => harmless ⟨rfl, congrArg some same.symm⟩
        exact (Py.Dict.get?_set_ne _ _ other).trans clear
  | release scope accountId strategyId =>
    refine h.withSwitch fun ks here => ?_
    have clear := h.unblocked ks here
    cases scope with
    | global => exact clear
    | strategy => cases strategyId <;> exact clear
    | account =>
      cases accountId with
      | none => exact clear
      | some released =>
        show (ks.accountReasons.erase released).get? account = none
        rw [Py.Dict.get?_erase, clear, ite_self]

/-- Both answer alike, but for a conflicting payload. -/
theorem Mirrors.answer (h : Mirrors account ref config ex s) (action : AccountAction) :
    machine.answer ex (action.multi account ref) = Live.machine.answer s (action.single config) ∨
      ∃ id symbol qty exchange ack, action = .order id symbol qty exchange ∧
        Conflicting ex ⟨account, id, symbol, qty⟩ ack ∧
        machine.answer ex (action.multi account ref) =
          some (.error (.valueError "conflicting payload for existing account_id + client_order_id")) ∧
        Live.machine.answer s (action.single config) = some (.ok ack) := by
  cases action with
  | order id symbol qty exchange =>
    rcases (h.execute id symbol qty exchange).2 with same | ⟨ack, conflicting, refused, repeated⟩
    · exact .inl (congrArg some same)
    · exact .inr ⟨id, symbol, qty, exchange, ack, rfl, conflicting, congrArg some refused, congrArg some repeated⟩
  | _ => exact .inl rfl

/-- What the multi-account executor refuses is a request with a payload other than
that of the call its id was acked for. -/
theorem Conflicting.second_payload {req : MultiAccountOrderRequest} {ack : LiveOrderAck} (ledgered : Ledgered ex)
    (conflicting : Conflicting ex req ack) :
    ∃ call ∈ ex.calls, call.key = req.cacheKey ∧ call.outcome = .ok ack ∧ (call.symbol, call.qty) ≠ req.fingerprint := by
  obtain ⟨call, member, own, acked⟩ := ledgered.backed _ _ conflicting.acked
  refine ⟨call, member, own, acked, fun same => conflicting.payload ?_⟩
  rw [← own, (ledgered.stored call member ack acked).2, same]

/-- **One account of the multi-account executor is a live executor.** After every
run of requests and reports of one account, and of operators who do not block that
account, over any exchange: the gateway calls and the stored orders of the two are
the same, and so is the answer to whatever is asked next, unless it asks for a
second payload under an acked id. That one the multi-account executor refuses, and
the live executor answers with the ack. -/
theorem single_account_refines (fresh : ex.Fresh) (start : Mirrors account ref config ex s) (actions : List AccountAction)
    (harmless : ∀ action ∈ actions, ¬ action.Blocks account) :
    (machine.after ex (actions.map (·.multi account ref))).calls =
      (Live.machine.after s (actions.map (·.single config))).executor.calls.map (ofAccount account) ∧
    (∀ id, ((machine.after ex (actions.map (·.multi account ref))).heap ref).get (scopedId account id) =
      ((Live.machine.after s (actions.map (·.single config))).orderOf id).map (ofAccountOrder account)) ∧
    ∀ action : AccountAction,
      machine.answer (machine.after ex (actions.map (·.multi account ref))) (action.multi account ref) =
        Live.machine.answer (Live.machine.after s (actions.map (·.single config))) (action.single config) ∨
      ∃ id symbol qty exchange ack, action = .order id symbol qty exchange ∧
        (∃ call ∈ (machine.after ex (actions.map (·.multi account ref))).calls, call.key = (account, id) ∧
          call.outcome = .ok ack ∧ (call.symbol, call.qty) ≠ (symbol, qty)) ∧
        machine.answer (machine.after ex (actions.map (·.multi account ref))) (action.multi account ref) =
          some (.error (.valueError "conflicting payload for existing account_id + client_order_id")) ∧
        Live.machine.answer (Live.machine.after s (actions.map (·.single config))) (action.single config) =
          some (.ok ack) := by
  have ledgered := fresh.ledgered_after (actions.map (·.multi account ref))
  have mirrored : Mirrors account ref config (machine.after ex (actions.map (·.multi account ref)))
      (Live.machine.after s (actions.map (·.single config))) :=
    machine.simulation Live.machine _ _ start fun _ _ action member h => h.step (harmless action member)
  generalize machine.after ex (actions.map (·.multi account ref)) = ex at ledgered mirrored
  refine ⟨mirrored.calls, mirrored.orders, fun action => ?_⟩
  rcases mirrored.answer action with same | ⟨id, symbol, qty, exchange, ack, rfl, conflicting, refused, repeated⟩
  · exact .inl same
  · exact .inr ⟨id, symbol, qty, exchange, ack, rfl, conflicting.second_payload ledgered, refused, repeated⟩

end Mirror

/-- A live session over the gateway of the account of `desk`. -/
theorem desk_mirrors : Mirrors "main" 0 { apiKey := "key", apiSecret := "secret" } desk Live.desk where
  registered := by decide
  configured := by rfl
  unchecked := rfl
  switch := rfl
  unblocked ks here := by
    cases here
    rfl
  orders _ := rfl
  acks _ := rfl
  calls := rfl

/-- An order sent at the second attempt and asked for again. -/
theorem single_account_refines_desk :
    (machine.after desk ([AccountAction.order "c1" "BTCUSDT" 1 unreachable, .order "c1" "BTCUSDT" 1 accepting,
        .report "c1" "FILLED" none].map (·.multi "main" 0))).calls =
      (Live.machine.after Live.desk ([AccountAction.order "c1" "BTCUSDT" 1 unreachable, .order "c1" "BTCUSDT" 1 accepting,
        .report "c1" "FILLED" none].map (·.single { apiKey := "key", apiSecret := "secret" }))).executor.calls.map
          (ofAccount "main") :=
  (single_account_refines desk_fresh desk_mirrors _ (by simp [AccountAction.Blocks])).1

end CryptoQuant.MultiAccount
