import CryptoQuant.Execution.MultiAccount.Sends

/-!
# Stored orders, gateway calls and execution reports

Every gateway call is made with an order stored under its scoped id, and a
stored order keeps its payload. A send carries the payload of its request, which
is the stored one unless an order that failed to be sent is retried with another.
The exchange knows an order by the id of the request, the order management
system by the scoped one: a report of the exchange never finds its order.
-/

namespace CryptoQuant.MultiAccount
set_option autoImplicit false

open MultiAccountLiveExecutor

/-- What a report does to the order management system: nothing, or one
transition of the order it names. -/
theorem onExecutionReport_oms (p : UserStreamProcessor) (event : ExecutionReport) :
    (p.onExecutionReport event).2.oms = p.oms ∨ ∃ target reason,
      (p.onExecutionReport event).2.oms = (p.oms.transition event.clientOrderId target reason).2 := by
  have settled (target : OrderStatus) (reason : Option String → Option String) (record : Monitoring → Monitoring) :
      (p.settle (p.oms.transition event.clientOrderId target reason) record).2.oms =
        (p.oms.transition event.clientOrderId target reason).2 := by
    unfold UserStreamProcessor.settle
    split
    · rename_i e oms failed
      rw [failed]
    · rename_i order oms moved
      rw [moved]
  unfold UserStreamProcessor.onExecutionReport
  cases p.oms.get event.clientOrderId with
  | none => exact .inl rfl
  | some order =>
    simp only
    split
    · exact .inl rfl
    · split
      · split
        · exact .inl rfl
        · exact .inr ⟨_, _, settled _ _ _⟩
      · split
        · split
          · exact .inl rfl
          · exact .inr ⟨_, _, settled _ _ _⟩
        · split
          · split
            · exact .inl rfl
            · exact .inr ⟨_, _, settled _ _ _⟩
          · exact .inl rfl

/-- A report leaves every order it does not name. -/
theorem onExecutionReport_ne (p : UserStreamProcessor) (event : ExecutionReport) {id : String}
    (other : id ≠ event.clientOrderId) : (p.onExecutionReport event).2.oms.get id = p.oms.get id := by
  rcases onExecutionReport_oms p event with same | ⟨target, reason, moved⟩
  · rw [same]
  · rw [moved]
    exact OMS.get_transition_ne other

/-! ## What a run does to stored orders -/

/-- An order of an account, stored under the scoped id of a client order id. -/
def storedOrder (ex : MultiAccountLiveExecutor) (accountId clientOrderId : String) : Option Order :=
  (ex.omsByAccount.get? accountId).bind fun ref => (ex.heap ref).get (scopedId accountId clientOrderId)

theorem storedOrder_eq {ex : MultiAccountLiveExecutor} {accountId : String} {ref : OmsRef}
    (account : ex.omsByAccount.get? accountId = some ref) (clientOrderId : String) :
    storedOrder ex accountId clientOrderId = (ex.heap ref).get (scopedId accountId clientOrderId) := by
  unfold storedOrder
  rw [account]
  rfl

/-- The accounts stay, every stored order keeps its payload, and calls are only
appended. -/
structure Keeps (ex ex' : MultiAccountLiveExecutor) : Prop where
  omsByAccount : ex'.omsByAccount = ex.omsByAccount
  payload : ∀ ref id order, (ex.heap ref).get id = some order →
    ∃ order', (ex'.heap ref).get id = some order' ∧ order'.symbol = order.symbol ∧ order'.qty = order.qty
  calls : ex.calls <+: ex'.calls

section Keep
variable {ex a b c : MultiAccountLiveExecutor}

theorem Keeps.refl (ex : MultiAccountLiveExecutor) : Keeps ex ex :=
  ⟨rfl, fun _ _ order found => ⟨order, found, rfl, rfl⟩, List.prefix_rfl⟩

theorem Keeps.trans (h : Keeps a b) (k : Keeps b c) : Keeps a c := by
  refine ⟨k.omsByAccount.trans h.omsByAccount, fun ref id order found => ?_, h.calls.trans k.calls⟩
  obtain ⟨order', found', symbol', qty'⟩ := h.payload ref id order found
  obtain ⟨order'', found'', symbol'', qty''⟩ := k.payload ref id order' found'
  exact ⟨order'', found'', symbol''.trans symbol', qty''.trans qty'⟩

/-- Changing one order management system, which keeps its payloads. -/
theorem Keeps.update {ref : OmsRef} {oms : OMS} (omsByAccount : b.omsByAccount = a.omsByAccount)
    (heap : b.heap = Function.update a.heap ref oms) (calls : a.calls <+: b.calls)
    (payload : ∀ id order, (a.heap ref).get id = some order →
      ∃ order', oms.get id = some order' ∧ order'.symbol = order.symbol ∧ order'.qty = order.qty) :
    Keeps a b := by
  refine ⟨omsByAccount, fun ref' id order found => ?_, calls⟩
  rw [heap]
  by_cases here : ref' = ref
  · rw [here] at found ⊢
    rw [Function.update_self]
    exact payload id order found
  · rw [Function.update_of_ne here]
    exact ⟨order, found, rfl, rfl⟩

theorem Keeps.of_same (same : SameBooks a b) : Keeps a b := by
  refine ⟨same.omsByAccount, fun ref id order found => ?_, same.calls ▸ List.prefix_rfl⟩
  rw [same.heap]
  exact ⟨order, found, rfl, rfl⟩

/-- Storing the order of a request keeps the orders stored before. -/
theorem Keeps.submitted {req : MultiAccountOrderRequest} {ref : OmsRef}
    (omsByAccount : b.omsByAccount = a.omsByAccount) (heap : b.heap = (stored a req ref).heap)
    (calls : a.calls <+: b.calls) : Keeps a b := by
  refine .update omsByAccount heap calls fun id order found => ⟨order, ?_, rfl, rfl⟩
  exact OMS.get_submit_of_some (a.heap ref) req.scopedClientOrderId req.symbol req.qty found

theorem keeps_transition (oms : OMS) (id' : String) (target : OrderStatus)
    (reason : Option String → Option String) (id : String) (order : Order) (found : oms.get id = some order) :
    ∃ order', (oms.transition id' target reason).2.get id = some order' ∧
      order'.symbol = order.symbol ∧ order'.qty = order.qty := by
  obtain ⟨order', found', symbol, qty, -⟩ := OMS.get_transition found
  exact ⟨order', found', symbol, qty⟩

/-- **Step lemma**: every action keeps payloads and calls. -/
theorem keeps_next (ex : MultiAccountLiveExecutor) (action : Action) : Keeps ex (machine.next ex action) := by
  cases action with
  | execute req exchange =>
    show Keeps ex (ex.executeMarket req exchange).2
    have outcome := @executeMarket_executed ex req exchange
    generalize ex.executeMarket req exchange = result at outcome
    cases outcome with
    | refused e ex' same => exact .of_same same
    | repeated ack ex' same => exact .of_same same
    | failed ref e ex' passes new same =>
      exact .submitted same.omsByAccount same.heap (same.calls ▸ List.prefix_append _ _)
    | acked ref ack ex' passes new same =>
      exact .submitted same.omsByAccount same.heap (same.calls ▸ List.prefix_append _ _)
  | engage reason scope accountId strategyId => exact ⟨rfl, (Keeps.refl ex).payload, List.prefix_rfl⟩
  | release scope accountId strategyId => exact ⟨rfl, (Keeps.refl ex).payload, List.prefix_rfl⟩
  | transition ref clientOrderId target reason =>
    exact .update rfl rfl List.prefix_rfl (keeps_transition (ex.heap ref) clientOrderId target reason)
  | report ref event =>
    refine .update rfl rfl List.prefix_rfl fun id order found => ?_
    rcases onExecutionReport_oms ⟨ex.heap ref, none⟩ event with same | ⟨target, reason, moved⟩
    · rw [same]
      exact ⟨order, found, rfl, rfl⟩
    · rw [moved]
      exact keeps_transition (ex.heap ref) event.clientOrderId target reason id order found

/-- **Run lemma.** -/
theorem keeps_after (ex : MultiAccountLiveExecutor) (actions : List Action) :
    Keeps ex (machine.after ex actions) :=
  machine.always (.refl ex) (fun t action h => h.trans (keeps_next t action)) actions

/-- A stored order is found again after any action, with its payload. -/
theorem Keeps.storedOrder (h : Keeps a b) {accountId clientOrderId : String} {order : Order}
    (found : storedOrder a accountId clientOrderId = some order) :
    ∃ order', storedOrder b accountId clientOrderId = some order' ∧
      order'.symbol = order.symbol ∧ order'.qty = order.qty := by
  unfold MultiAccount.storedOrder at found ⊢
  rw [h.omsByAccount]
  cases account : a.omsByAccount.get? accountId with
  | none =>
    rw [account] at found
    cases found
  | some ref =>
    rw [account] at found
    exact h.payload ref _ order found

/-- A call that carries the payload of its stored order still does. -/
theorem Keeps.carried (h : Keeps a b) {call : GatewayCall}
    (carried : ∃ order, MultiAccount.storedOrder a call.accountId call.clientOrderId = some order ∧
      order.symbol = call.symbol ∧ order.qty = call.qty) :
    ∃ order, MultiAccount.storedOrder b call.accountId call.clientOrderId = some order ∧
      order.symbol = call.symbol ∧ order.qty = call.qty := by
  obtain ⟨order, found, symbol, qty⟩ := carried
  obtain ⟨order', found', symbol', qty'⟩ := h.storedOrder found
  exact ⟨order', found', symbol'.trans symbol, qty'.trans qty⟩

end Keep

/-! ## One payload per order -/

/-- The request is sent although an order not acked yet is stored for it with
another payload: a changed retry. -/
structure Conflicts (ex : MultiAccountLiveExecutor) (req : MultiAccountOrderRequest) (order : Order) : Prop where
  passes : ∃ ref, Passes ex req ref
  found : storedOrder ex req.accountId req.clientOrderId = some order
  new : order.status = .new
  other : ¬ (order.symbol = req.symbol ∧ order.qty = req.qty)

/-- Every gateway call carries the payload of the order stored for it, so all
calls of a key carry one payload. -/
structure OnePayload (ex : MultiAccountLiveExecutor) : Prop where
  carried : ∀ call ∈ ex.calls, ∃ order, storedOrder ex call.accountId call.clientOrderId = some order ∧
    order.symbol = call.symbol ∧ order.qty = call.qty
  same : ∀ call ∈ ex.calls, ∀ call' ∈ ex.calls, call.key = call'.key →
    call.symbol = call'.symbol ∧ call.qty = call'.qty

section Payload
variable {ex : MultiAccountLiveExecutor} {req : MultiAccountOrderRequest}

/-- One payload follows from the stored orders alone. -/
theorem OnePayload.of_stored (stored : ∀ call ∈ ex.calls, ∃ order,
    storedOrder ex call.accountId call.clientOrderId = some order ∧
      order.symbol = call.symbol ∧ order.qty = call.qty) : OnePayload ex := by
  refine ⟨stored, fun call member call' member' same => ?_⟩
  obtain ⟨order, found, symbol, qty⟩ := stored call member
  obtain ⟨order', found', symbol', qty'⟩ := stored call' member'
  obtain ⟨account, id⟩ := Prod.mk.inj same
  rw [account, id, found', Option.some.injEq] at found
  rw [found] at symbol' qty'
  exact ⟨symbol.symm.trans symbol', qty.symm.trans qty'⟩

/-- The order stored by the submit of a request: the one found, else a new one
with the payload of the request. -/
theorem storedOrder_stored {ref : OmsRef} (account : ex.omsByAccount.get? req.accountId = some ref) :
    ∃ order, storedOrder (stored ex req ref) req.accountId req.clientOrderId = some order ∧
      ((storedOrder ex req.accountId req.clientOrderId = some order) ∨
        (order.symbol = req.symbol ∧ order.qty = req.qty)) := by
  have here : storedOrder (stored ex req ref) req.accountId req.clientOrderId =
      some ((ex.heap ref).submit req.scopedClientOrderId req.symbol req.qty).1 := by
    unfold storedOrder
    show (ex.omsByAccount.get? req.accountId).bind _ = _
    rw [account]
    show (Function.update ex.heap ref _ ref).get _ = _
    rw [Function.update_self]
    exact OMS.get_submit_self _ _ _ _
  refine ⟨_, here, ?_⟩
  cases found : (ex.heap ref).get req.scopedClientOrderId with
  | some order =>
    rw [OMS.submit_of_some _ _ _ _ found]
    exact .inl ((storedOrder_eq account _).trans found)
  | none =>
    rw [OMS.submit_of_none _ _ _ _ found]
    exact .inr ⟨rfl, rfl⟩

/-- A send without a conflict carries the payload of its stored order. -/
theorem OnePayload.sent (h : OnePayload ex) {ex' : MultiAccountLiveExecutor} {ref : OmsRef}
    {outcome : Except PyError LiveOrderAck} (passes : Passes ex req ref)
    (new : ∀ order, (ex.heap ref).get req.scopedClientOrderId = some order → order.status = .new)
    (free : ∀ order, ¬ Conflicts ex req order) (omsByAccount : ex'.omsByAccount = ex.omsByAccount)
    (heap : ex'.heap = (stored ex req ref).heap) (calls : ex'.calls = ex.calls ++ [callOf req outcome]) :
    OnePayload ex' := by
  have kept : Keeps ex ex' := .submitted omsByAccount heap (calls ▸ List.prefix_append _ _)
  have lookup (account id : String) : storedOrder ex' account id = storedOrder (stored ex req ref) account id := by
    unfold storedOrder
    rw [omsByAccount, heap]
    rfl
  refine .of_stored fun call member => ?_
  rw [calls, List.mem_append, List.mem_singleton] at member
  rcases member with before | rfl
  · exact kept.carried (h.carried call before)
  · obtain ⟨order, found, origin⟩ := storedOrder_stored passes.account
    refine ⟨order, (lookup _ _).trans found, ?_⟩
    rcases origin with before | payload
    · by_contra other
      exact free order ⟨⟨ref, passes⟩, before, new order ((storedOrder_eq passes.account _).symm.trans before), other⟩
    · exact payload

/-- **Step lemma**: an action without a conflict keeps one payload per order. -/
theorem OnePayload.step (h : OnePayload ex) (action : Action)
    (free : ∀ req exchange, action = .execute req exchange → ∀ order, ¬ Conflicts ex req order) :
    OnePayload (machine.next ex action) := by
  -- an action without a gateway call
  have quiet {ex' : MultiAccountLiveExecutor} (kept : Keeps ex ex') (calls : ex'.calls = ex.calls) : OnePayload ex' :=
    .of_stored fun call member => kept.carried (h.carried call (calls ▸ member))
  have kept := keeps_next ex action
  cases action with
  | execute req exchange =>
    have outcome := @executeMarket_executed ex req exchange
    have next : machine.next ex (.execute req exchange) = (ex.executeMarket req exchange).2 := rfl
    rw [next] at kept ⊢
    generalize ex.executeMarket req exchange = result at outcome kept
    cases outcome with
    | refused e ex' same => exact quiet kept same.calls
    | repeated ack ex' same => exact quiet kept same.calls
    | failed ref e ex' passes new same =>
      exact h.sent passes new (free req exchange rfl) same.omsByAccount same.heap same.calls
    | acked ref ack ex' passes new same =>
      exact h.sent passes new (free req exchange rfl) same.omsByAccount same.heap same.calls
  | engage reason scope accountId strategyId => exact quiet kept rfl
  | release scope accountId strategyId => exact quiet kept rfl
  | transition ref clientOrderId target reason => exact quiet kept rfl
  | report ref event => exact quiet kept rfl

/-- A conflicting request is sent with its own payload. -/
theorem Conflicts.sent {order : Order} (conflict : Conflicts ex req order) (exchange : Exchange) :
    ∃ outcome, callOf req outcome ∈ (ex.executeMarket req exchange).2.calls := by
  obtain ⟨⟨ref, passes⟩, found, new, other⟩ := conflict
  have stored : (ex.heap ref).get req.scopedClientOrderId = some order :=
    (storedOrder_eq passes.account _).symm.trans found
  have submitted : ex.executeMarket req exchange = ex.submitAndSend req exchange ref := by
    unfold executeMarket executeFresh
    rw [if_neg passes.qty, passes.allowed, passes.unacked]
    simp only
    rw [if_neg (by rw [passes.compliant]; decide), passes.account]
  rw [submitted]
  unfold submitAndSend
  rw [OMS.submit_of_some _ _ _ _ stored]
  simp only [new, ne_eq, not_true_eq_false, if_false]
  unfold send
  simp only
  split
  · exact ⟨_, List.mem_append_right _ List.mem_cons_self⟩
  · exact ⟨_, List.mem_append_right _ List.mem_cons_self⟩

/-- Without a conflict a request with another payload than its stored order
raises and is not sent. -/
theorem OnePayload.rejects (h : OnePayload ex) (ledgered : Ledgered ex) (free : ∀ order, ¬ Conflicts ex req order)
    (exchange : Exchange) {order : Order} (found : storedOrder ex req.accountId req.clientOrderId = some order)
    (other : ¬ (order.symbol = req.symbol ∧ order.qty = req.qty)) :
    (∃ e, (ex.executeMarket req exchange).1 = .error e) ∧ (ex.executeMarket req exchange).2.calls = ex.calls := by
  have outcome := @executeMarket_executed ex req exchange
  generalize ex.executeMarket req exchange = result at outcome
  have conflict {ref : OmsRef} (passes : Passes ex req ref)
      (new : ∀ order, (ex.heap ref).get req.scopedClientOrderId = some order → order.status = .new) : False :=
    free order ⟨⟨ref, passes⟩, found, new order ((storedOrder_eq passes.account _).symm.trans found), other⟩
  cases outcome with
  | refused e ex' same => exact ⟨⟨e, rfl⟩, same.calls⟩
  | repeated ack ex' same acked payload =>
    -- an acked key has sent the payload of the stored order
    obtain ⟨call, member, own, made⟩ := ledgered.backed _ _ acked
    obtain ⟨account, id⟩ := Prod.mk.inj own
    obtain ⟨order', found', symbol, qty⟩ := h.carried call member
    have print := (ledgered.stored call member ack made).2
    rw [own, payload, Option.some.injEq] at print
    obtain ⟨symbol', qty'⟩ := Prod.mk.inj print
    rw [account, id, found, Option.some.injEq] at found'
    rw [← found'] at symbol qty
    exact absurd ⟨symbol.trans symbol'.symm, qty.trans qty'.symm⟩ other
  | failed ref e ex' passes new => exact (conflict passes new).elim
  | acked ref ack ex' passes new => exact (conflict passes new).elim

/-- **When all calls of an order carry one payload**: exactly in the runs in
which no changed retry of an order that is stored `NEW` and not acked passes the
gates. In these runs a request with another payload than its stored order raises
and is not sent. -/
theorem one_payload_iff (fresh : ex.Fresh) (actions : List Action) :
    (∀ done req exchange rest, actions = done ++ .execute req exchange :: rest →
      ∀ order, ¬ Conflicts (machine.after ex done) req order) ↔
    (OnePayload (machine.after ex actions) ∧
      ∀ done req exchange rest, actions = done ++ .execute req exchange :: rest →
        ∀ order, storedOrder (machine.after ex done) req.accountId req.clientOrderId = some order →
          ¬ (order.symbol = req.symbol ∧ order.qty = req.qty) →
          (∃ e, machine.answer (machine.after ex done) (.execute req exchange) = some (.error e)) ∧
            (machine.next (machine.after ex done) (.execute req exchange)).calls = (machine.after ex done).calls) := by
  constructor
  · intro free
    have one {done rest : List Action} (split : actions = done ++ rest) : OnePayload (machine.after ex done) := by
      refine machine.invariant (P := fun _ t => OnePayload t) ?_ ?_ split
      · refine .of_stored fun call member => ?_
        rw [fresh.calls] at member
        exact absurd member List.not_mem_nil
      · rintro done action rest t cut rfl h
        exact h.step action fun req exchange same => free done req exchange rest (same ▸ cut)
    refine ⟨one (List.append_nil actions).symm, fun done req exchange rest split order found other => ?_⟩
    obtain ⟨⟨e, raised⟩, calls⟩ := (one split).rejects (fresh.ledgered_after done)
      (free done req exchange rest split) exchange found other
    exact ⟨⟨e, congrArg some raised⟩, calls⟩
  · rintro ⟨one, -⟩ done req exchange rest rfl order conflict
    -- the conflicting call and the stored payload both last to the end of the run
    obtain ⟨outcome, called⟩ := conflict.sent exchange
    have later : Keeps (machine.next (machine.after ex done) (.execute req exchange))
        (machine.after ex (done ++ .execute req exchange :: rest)) := by
      rw [machine.after_append, machine.after_cons]
      exact keeps_after _ rest
    obtain ⟨order', found', symbol', qty'⟩ :=
      ((keeps_next _ _).trans later).storedOrder conflict.found
    obtain ⟨order'', found'', symbol, qty⟩ := one.carried _ (later.calls.subset called)
    have same : order'' = order' := Option.some.inj (found''.symm.trans found')
    subst same
    exact conflict.other ⟨symbol'.symm.trans symbol, qty'.symm.trans qty⟩

end Payload

/-- A retry with the same payload keeps one payload. -/
theorem one_payload_iff_retry :
    OnePayload (machine.after desk [.execute (buy 1) unreachable, .execute (buy 1) accepting]) := by
  refine ((one_payload_iff desk_fresh _).mp ?_).1
  intro done req exchange rest split order conflict
  have found := conflict.found
  rcases done with _ | ⟨first, _ | ⟨second, done⟩⟩
  · obtain ⟨same, -⟩ := List.cons.inj split
    cases same
    have nothing : storedOrder desk "main" "c1" = none := by decide +kernel
    exact absurd (found.symm.trans nothing) nofun
  · obtain ⟨same, split⟩ := List.cons.inj split
    obtain ⟨same', -⟩ := List.cons.inj split
    cases same
    cases same'
    have before : storedOrder (machine.after desk [.execute (buy 1) unreachable]) "main" "c1" =
        some { clientOrderId := "main:c1", symbol := "BTCUSDT", qty := 1 } := by decide +kernel
    have same : order = { clientOrderId := "main:c1", symbol := "BTCUSDT", qty := 1 } :=
      Option.some.inj (found.symm.trans before)
    exact conflict.other (same ▸ ⟨rfl, rfl⟩)
  · have lengths := congrArg List.length split
    simp only [List.length_cons, List.length_append, List.length_nil] at lengths
    omega

/-- After a failed send the same id is sent with another quantity, while the
order stored for it keeps the first. -/
theorem two_payloads_retry :
    desk.Fresh ∧ (∀ a b ref, desk.omsByAccount.get? a = some ref → desk.omsByAccount.get? b = some ref → a = b) ∧
    ((machine.after desk [.execute (buy 1) unreachable, .execute (buy 2) accepting]).calls.map fun call =>
      (call.accountId, call.clientOrderId, call.symbol, call.qty)) =
        [("main", "c1", "BTCUSDT", 1), ("main", "c1", "BTCUSDT", 2)] ∧
    (storedOrder (machine.after desk [.execute (buy 1) unreachable, .execute (buy 2) accepting]) "main" "c1").map
      Order.qty = some 1 := by
  refine ⟨desk_fresh, fun a b ref ha hb => ?_, by decide +kernel, by decide +kernel⟩
  have only {c : String} (h : desk.omsByAccount.get? c = some ref) : c = "main" := by
    have listed : c ∈ desk.omsByAccount.keys := Py.Dict.mem_keys_iff.mpr ⟨ref, h⟩
    have keys : desk.omsByAccount.keys = ["main"] := by decide +kernel
    rw [keys] at listed
    exact List.mem_singleton.mp listed
  exact (only ha).trans (only hb).symm

/-! ## Reports of the exchange -/

/-- A scoped id is longer than the id the exchange knows. -/
theorem scopedId_ne (accountId clientOrderId : String) : scopedId accountId clientOrderId ≠ clientOrderId := by
  intro same
  have lengths := congrArg String.length same
  have parts : scopedId accountId clientOrderId = accountId ++ ":" ++ clientOrderId := rfl
  rw [parts, String.length_append, String.length_append] at lengths
  have colon : (":" : String).length = 1 := rfl
  omega

/-- Every call was made with an order stored for it. -/
theorem storedOrder_of_call {ex : MultiAccountLiveExecutor} (fresh : ex.Fresh) (actions : List Action) :
    ∀ call ∈ (machine.after ex actions).calls,
      ∃ order, storedOrder (machine.after ex actions) call.accountId call.clientOrderId = some order := by
  refine machine.always (P := fun t => ∀ call ∈ t.calls,
    ∃ order, storedOrder t call.accountId call.clientOrderId = some order) ?_ ?_ actions
  · intro call member
    rw [fresh.calls] at member
    exact absurd member List.not_mem_nil
  · intro t action h call member
    have kept := keeps_next t action
    have earlier (before : call ∈ t.calls) :
        ∃ order, storedOrder (machine.next t action) call.accountId call.clientOrderId = some order := by
      obtain ⟨order, found⟩ := h call before
      obtain ⟨order', found', -⟩ := kept.storedOrder found
      exact ⟨order', found'⟩
    by_cases before : call ∈ t.calls
    · exact earlier before
    · cases action with
      | execute req exchange =>
        have outcome := @executeMarket_executed t req exchange
        have next : machine.next t (.execute req exchange) = (t.executeMarket req exchange).2 := rfl
        rw [next] at member ⊢
        generalize t.executeMarket req exchange = result at outcome member
        -- a call not made before is the one of this request, whose order is stored
        have sent {ex' : MultiAccountLiveExecutor} {ref : OmsRef} {outcome : Except PyError LiveOrderAck}
            (passes : Passes t req ref) (omsByAccount : ex'.omsByAccount = t.omsByAccount)
            (heap : ex'.heap = (stored t req ref).heap) (calls : ex'.calls = t.calls ++ [callOf req outcome])
            (member : call ∈ ex'.calls) :
            ∃ order, storedOrder ex' call.accountId call.clientOrderId = some order := by
          rw [calls, List.mem_append, List.mem_singleton] at member
          obtain ⟨order, found, -⟩ := storedOrder_stored passes.account
          refine ⟨order, ?_⟩
          rw [member.resolve_left before, ← found]
          unfold storedOrder
          rw [omsByAccount, heap]
          rfl
        cases outcome with
        | refused e ex' same => exact absurd (same.calls ▸ member) before
        | repeated ack ex' same => exact absurd (same.calls ▸ member) before
        | failed ref e ex' passes new same => exact sent passes same.omsByAccount same.heap same.calls member
        | acked ref ack ex' passes new same => exact sent passes same.omsByAccount same.heap same.calls member
      | engage reason scope accountId strategyId => exact absurd member before
      | release scope accountId strategyId => exact absurd member before
      | transition ref clientOrderId target reason => exact absurd member before
      | report ref event => exact absurd member before

/-- **Reports never reach their order.** In every run, whatever a processor over
the order management system of an acked request's account is told about the id
that was handed to the gateway, the order of the request stays as it is. -/
theorem reports_miss_their_order {ex : MultiAccountLiveExecutor} (fresh : ex.Fresh) (actions : List Action) :
    ∀ call ∈ (machine.after ex actions).calls, ∀ ack, call.outcome = .ok ack →
      ∃ ref order, (machine.after ex actions).omsByAccount.get? call.accountId = some ref ∧
        ((machine.after ex actions).heap ref).get (scopedId call.accountId call.clientOrderId) = some order ∧
        ∀ monitoring event, event.clientOrderId = call.clientOrderId →
          (UserStreamProcessor.onExecutionReport ⟨(machine.after ex actions).heap ref, monitoring⟩ event).2.oms.get
            (scopedId call.accountId call.clientOrderId) = some order := by
  intro call member ack _
  obtain ⟨order, found⟩ := storedOrder_of_call fresh actions call member
  unfold storedOrder at found
  cases account : (machine.after ex actions).omsByAccount.get? call.accountId with
  | none =>
    rw [account] at found
    cases found
  | some ref =>
    rw [account] at found
    refine ⟨ref, order, rfl, found, fun monitoring event own => ?_⟩
    rw [onExecutionReport_ne _ event (own ▸ scopedId_ne call.accountId call.clientOrderId)]
    exact found

/-- The report that the order of `buy` is filled, under the id handed to the gateway. -/
def filledReport : ExecutionReport := { clientOrderId := "c1", orderStatus := "FILLED" }

theorem reports_miss_their_order_desk :
    ∃ call ∈ (machine.after desk [.execute (buy 1) accepting]).calls, ∃ ref order,
      ((machine.after desk [.execute (buy 1) accepting]).heap ref).get "main:c1" = some order ∧
        (UserStreamProcessor.onExecutionReport
          ⟨(machine.after desk [.execute (buy 1) accepting]).heap ref, none⟩ filledReport).2.oms.get "main:c1" =
            some order := by
  let call : GatewayCall := callOf (buy 1) (.ok { clientOrderId := "c1", exchangeOrderId := "1", acceptedAt := 0 })
  have member : call ∈ (machine.after desk [.execute (buy 1) accepting]).calls := by
    have calls : (machine.after desk [.execute (buy 1) accepting]).calls = [call] := rfl
    rw [calls]
    exact List.mem_cons_self
  obtain ⟨ref, order, -, found, missed⟩ := reports_miss_their_order desk_fresh _ call member _ rfl
  exact ⟨call, member, ref, order, found, missed none filledReport rfl⟩

/-- An acked order is still `NEW` after the exchange has reported it filled. -/
theorem filled_report_missed :
    machine.answer desk (.execute (buy 1) accepting) =
        some (.ok { clientOrderId := "c1", exchangeOrderId := "1", acceptedAt := 0 }) ∧
      ((machine.after desk [.execute (buy 1) accepting]).calls.map GatewayCall.clientOrderId) =
        [filledReport.clientOrderId] ∧
      ((UserStreamProcessor.onExecutionReport
        ⟨(machine.after desk [.execute (buy 1) accepting]).heap 0, none⟩ filledReport).2.oms.get "main:c1").map
          Order.status = some .new := by
  exact ⟨rfl, by decide +kernel, by decide +kernel⟩

end CryptoQuant.MultiAccount
