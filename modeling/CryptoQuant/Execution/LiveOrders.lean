import CryptoQuant.Execution.Live
import CryptoQuant.Execution.Reports

/-!
# The life of a live order

Runs of a live session: requests, reports, other owners of the order management
system and operators of the kill switch, in any order. An id is acknowledged at
most once, and its order has the payload it was first stored with and the status
of the first terminal step after that.
-/

namespace CryptoQuant.Live
set_option autoImplicit false

/-! ## One ack for an id -/

/-- The call was made for an id and returned an ack. -/
def GatewayCall.acksId (id : String) (call : GatewayCall) : Bool :=
  decide (call.clientOrderId = id) && call.outcome.isOk

/-- The table of acks and the log of gateway calls agree: an ack is stored for
the ids that have an acked call, which is then the only one. -/
structure Ledgered (ex : LiveExecutor) : Prop where
  stored : ∀ call ∈ ex.calls, ∀ ack, call.outcome = .ok ack → ex.acks.get? call.clientOrderId = some ack
  backed : ∀ id ack, ex.acks.get? id = some ack → ∃ call ∈ ex.calls, call.clientOrderId = id ∧ call.outcome = .ok ack
  once : ∀ id, (ex.calls.filter (GatewayCall.acksId id)).length ≤ 1

section Ledger
variable {ex : LiveExecutor} {req : LiveOrderRequest} {gateway : OrderGateway}

/-- No call of an id without an ack has been acked. -/
theorem Ledgered.none_acked (h : Ledgered ex) {id : String} (unacked : ex.acks.get? id = none) :
    ex.calls.filter (GatewayCall.acksId id) = [] := by
  refine List.filter_eq_nil_iff.mpr fun call member passes => ?_
  obtain ⟨own, isOk⟩ := Bool.and_eq_true_iff.mp passes
  cases outcome : call.outcome with
  | error e =>
    rw [outcome] at isOk
    cases isOk
  | ok ack =>
    have found := h.stored call member ack outcome
    rw [of_decide_eq_true own, unacked] at found
    cases found

/-- A failed send adds a call without an ack. -/
theorem Ledgered.failed (h : Ledgered ex) {e : PyError} (raised : gateway req.symbol req.qty req.clientOrderId = .error e) :
    Ledgered (ex.sent req gateway) := by
  refine ⟨fun call member ack acked => ?_, fun id ack found => ?_, fun id => ?_⟩
  · rcases List.mem_append.mp member with before | here
    · exact h.stored call before ack acked
    · obtain rfl := List.mem_singleton.mp here
      rw [callOf, raised] at acked
      cases acked
  · obtain ⟨call, member, made⟩ := h.backed id ack found
    exact ⟨call, List.mem_append_left _ member, made⟩
  · have unacked : GatewayCall.acksId id (callOf req gateway) = false := by
      rw [GatewayCall.acksId, callOf, raised]
      exact Bool.and_false _
    show ((ex.calls ++ [callOf req gateway]).filter (GatewayCall.acksId id)).length ≤ 1
    rw [List.filter_append, List.filter_cons_of_neg (by simp [unacked]), List.filter_nil, List.append_nil]
    exact h.once id

/-- An acked send is the first acked call of its id. -/
theorem Ledgered.acked (h : Ledgered ex) (unacked : ex.acks.get? req.clientOrderId = none) {ack : LiveOrderAck}
    (accepted : gateway req.symbol req.qty req.clientOrderId = .ok ack) :
    Ledgered { ex.sent req gateway with acks := ex.acks.set req.clientOrderId ack } := by
  refine ⟨fun call member ack' acked => ?_, fun id ack' found => ?_, fun id => ?_⟩
  · rcases List.mem_append.mp member with before | here
    · have other : call.clientOrderId ≠ req.clientOrderId := by
        intro same
        have found := h.stored call before ack' acked
        rw [same, unacked] at found
        cases found
      rw [Py.Dict.get?_set_ne _ _ other]
      exact h.stored call before ack' acked
    · obtain rfl := List.mem_singleton.mp here
      rw [callOf, accepted] at acked
      cases acked
      exact Py.Dict.get?_set_self _ _ _
  · rw [Py.Dict.get?_set] at found
    split at found
    · rename_i own
      cases found
      exact ⟨callOf req gateway, List.mem_append_right _ List.mem_cons_self, own.symm, accepted⟩
    · obtain ⟨call, member, made⟩ := h.backed id ack' found
      exact ⟨call, List.mem_append_left _ member, made⟩
  · show ((ex.calls ++ [callOf req gateway]).filter (GatewayCall.acksId id)).length ≤ 1
    rw [List.filter_append, List.length_append]
    by_cases same : id = req.clientOrderId
    · rw [same, h.none_acked unacked]
      exact (Nat.zero_add _).le.trans (List.length_filter_le _ _)
    · have other : GatewayCall.acksId id (callOf req gateway) = false := by
        have apart : decide ((callOf req gateway).clientOrderId = id) = false :=
          decide_eq_false fun own => same (own.symm.trans rfl)
        rw [GatewayCall.acksId, apart, Bool.false_and]
      rw [List.filter_cons_of_neg (by simp [other]), List.filter_nil, List.length_nil]
      exact h.once id

/-- A request keeps the ledger. -/
theorem Ledgered.execute (h : Ledgered ex) (req : LiveOrderRequest) (gateway : OrderGateway) :
    Ledgered (ex.executeMarket req gateway).2 := by
  have outcome := LiveExecutor.executeMarket_executed ex req gateway
  generalize ex.executeMarket req gateway = result at outcome
  cases outcome with
  | failed e passes raised => exact h.failed raised
  | acked ack passes accepted => exact h.acked passes.unacked accepted
  | _ => exact h

/-- **Step lemma**: the other parties touch neither the acks nor the log. -/
theorem Ledgered.step {s : LiveSession} (h : Ledgered s.executor) (action : Action) :
    Ledgered (machine.next s action).executor := by
  cases action with
  | execute req gateway => exact h.execute req gateway
  | _ => exact ⟨h.stored, h.backed, h.once⟩

end Ledger

/-- The executor of the session has just been constructed. Its order management
system and its kill switch may be in use. -/
structure LiveSession.Fresh (s : LiveSession) : Prop where
  acks : s.executor.acks = .empty
  calls : s.executor.calls = []

theorem LiveSession.Fresh.ledgered {s : LiveSession} (fresh : s.Fresh) : Ledgered s.executor := by
  refine ⟨fun call member => ?_, fun id ack found => ?_, fun id => ?_⟩
  · rw [fresh.calls] at member
    exact absurd member List.not_mem_nil
  · rw [fresh.acks] at found
    cases found
  · rw [fresh.calls]
    exact Nat.zero_le _

/-! ## The status of an order -/

namespace LiveSession

/-- The stored order of an id. -/
def orderOf (s : LiveSession) (id : String) : Option Order := s.executor.oms.get id

end LiveSession

/-- The terminal status an action gives to an order that is still `NEW`. -/
def Action.settles (id : String) : Action → Option OrderStatus
  | .report event => if event.clientOrderId = id then terminalOf event.orderStatus else none
  | .fill clientOrderId => if clientOrderId = id then some .filled else none
  | .cancel clientOrderId => if clientOrderId = id then some .canceled else none
  | .reject clientOrderId _ => if clientOrderId = id then some .rejected else none
  | _ => none

/-- The id, the symbol and the quantity an action may store an order with. -/
def Action.payload : Action → Option (String × String × ℚ)
  | .execute req _ => some (req.clientOrderId, req.symbol, req.qty)
  | .submit clientOrderId symbol qty => some (clientOrderId, symbol, qty)
  | _ => none

theorem Action.settles_ne_new (id : String) (action : Action) : action.settles id ≠ some .new := by
  cases action with
  | report event =>
    by_cases own : event.clientOrderId = id
    · rw [settles, if_pos own]
      exact terminalOf_ne_new _
    · simp [settles, own]
  | fill clientOrderId => by_cases own : clientOrderId = id <;> simp [settles, own]
  | cancel clientOrderId => by_cases own : clientOrderId = id <;> simp [settles, own]
  | reject clientOrderId reason => by_cases own : clientOrderId = id <;> simp [settles, own]
  | _ => simp [settles]

/-- From one order to a later state of it: the payload stays, and a status moves
only out of `NEW`, to the status it is settled with. -/
structure Moved (settled : Option OrderStatus) (before after : Order) : Prop where
  symbol : after.symbol = before.symbol
  qty : after.qty = before.qty
  status : after.status = if before.status = .new then settled.getD .new else before.status

section Order
variable {s : LiveSession} {id : String} {order : Order}

/-- An order nobody settles stays as it is. -/
theorem Moved.refl (order : Order) : Moved none order order :=
  ⟨rfl, rfl, by split <;> simp [*]⟩

/-- An order that has left `NEW` stays as it is. -/
theorem Moved.closed (settled : Option OrderStatus) (moved : order.status ≠ .new) : Moved settled order order :=
  ⟨rfl, rfl, (if_neg moved).symm⟩

/-- A settled order has the status it was first settled with. -/
theorem Moved.trans {first second : Option OrderStatus} {middle last : Order} (terminal : first ≠ some .new)
    (one : Moved first order middle) (two : Moved second middle last) : Moved (first <|> second) order last where
  symbol := two.symbol.trans one.symbol
  qty := two.qty.trans one.qty
  status := by
    rw [two.status, one.status]
    by_cases isNew : order.status = .new
    · cases first with
      | none => simp [isNew]
      | some status =>
        have left : status ≠ .new := fun same => terminal (congrArg some same)
        simp [isNew, left]
    · simp [isNew]

/-- A settled order moves as it should. -/
theorem settle_moved (order : Order) (target : OrderStatus) (reason : Option String → Option String) :
    Moved (some target) order (order.settle target reason) := by
  by_cases isNew : order.status = .new
  · rw [Order.settle, if_pos isNew]
    exact ⟨rfl, rfl, by rw [if_pos isNew]; rfl⟩
  · rw [Order.settle, if_neg isNew]
    exact .closed _ isNew

/-- `fill`, `cancel` and `reject` of a stored order. -/
theorem transition_moved {oms : OMS} (found : oms.get id = some order) (other : String) (target : OrderStatus)
    (reason : Option String → Option String) :
    ∃ order', (oms.transition other target reason).2.get id = some order' ∧
      Moved (if other = id then some target else none) order order' := by
  rw [OMS.get_transition_eq]
  by_cases own : other = id
  · subst own
    rw [if_pos rfl, if_pos rfl, found]
    exact ⟨_, rfl, settle_moved order target reason⟩
  · rw [if_neg own, if_neg (Ne.symm own)]
    exact ⟨order, found, .refl order⟩

/-- A report of the user stream moves a stored order as its text says. -/
theorem report_moved {p : UserStreamProcessor} (found : p.oms.get id = some order) (event : ExecutionReport) :
    ∃ order', (p.onExecutionReport event).2.oms.get id = some order' ∧
      Moved ((Action.report event).settles id) order order' := by
  rw [UserStreamProcessor.get_onExecutionReport, Action.settles]
  by_cases own : event.clientOrderId = id
  · rw [if_pos own.symm, if_pos own, found, Option.map_some]
    refine ⟨_, rfl, ?_⟩
    unfold UserStreamProcessor.reported
    cases terminalOf event.orderStatus with
    | none => exact .refl order
    | some target => exact settle_moved order target _
  · rw [if_neg (Ne.symm own), if_neg own]
    exact ⟨order, found, .refl order⟩

/-- **Step lemma**: an action moves every stored order as it says. -/
theorem orderOf_next (found : s.orderOf id = some order) (action : Action) :
    ∃ order', (machine.next s action).orderOf id = some order' ∧ Moved (action.settles id) order order' := by
  cases action with
  | execute req gateway =>
    refine ⟨order, ?_, .refl order⟩
    show (s.executor.executeMarket req gateway).2.oms.get id = some order
    have outcome := s.executor.executeMarket_executed req gateway
    generalize s.executor.executeMarket req gateway = result at outcome
    cases outcome with
    | failed e passes raised => exact OMS.get_submit_of_some _ _ _ _ found
    | acked ack passes accepted => exact OMS.get_submit_of_some _ _ _ _ found
    | _ => exact found
  | report event => exact report_moved (p := s.processor) found event
  | submit clientOrderId symbol qty => exact ⟨order, OMS.get_submit_of_some _ _ _ _ found, .refl order⟩
  | fill clientOrderId => exact transition_moved found clientOrderId .filled fun reason => reason
  | cancel clientOrderId => exact transition_moved found clientOrderId .canceled fun reason => reason
  | reject clientOrderId reason => exact transition_moved found clientOrderId .rejected fun _ => some reason
  | engage reason scope accountId strategyId => exact ⟨order, found, .refl order⟩
  | release scope accountId strategyId => exact ⟨order, found, .refl order⟩

/-- **Run lemma**: the first terminal step for an order settles it. -/
theorem orderOf_after (found : s.orderOf id = some order) (actions : List Action) :
    ∃ order', (machine.after s actions).orderOf id = some order' ∧
      Moved (actions.findSome? (Action.settles id)) order order' := by
  induction actions generalizing s order with
  | nil => exact ⟨order, found, .refl order⟩
  | cons action rest ih =>
    obtain ⟨middle, stored, one⟩ := orderOf_next found action
    obtain ⟨last, kept, two⟩ := ih stored
    refine ⟨last, kept, ?_⟩
    have both := one.trans (action.settles_ne_new id) two
    rw [List.findSome?_cons]
    cases settled : action.settles id with
    | none => simpa [settled] using both
    | some status => simpa [settled] using both

/-- An order is first stored by a request that is sent, or by another owner's
`submit`, with the payload given there. -/
theorem orderOf_next_of_none {action : Action} (missing : s.orderOf id = none)
    (stores : (machine.next s action).orderOf id ≠ none) :
    ∃ symbol qty, action.payload = some (id, symbol, qty) ∧
      (machine.next s action).orderOf id = some { clientOrderId := id, symbol, qty } := by
  have submitted {other symbol : String} {qty : ℚ} (stores : (s.executor.oms.submit other symbol qty).2.get id ≠ none) :
      other = id ∧ (s.executor.oms.submit other symbol qty).2.get id = some { clientOrderId := id, symbol, qty } := by
    by_cases own : other = id
    · subst own
      rw [OMS.get_submit_self, OMS.submit_of_none _ _ _ _ missing]
      exact ⟨rfl, rfl⟩
    · rw [OMS.get_submit_ne _ _ _ _ (Ne.symm own)] at stores
      exact absurd missing stores
  have sent {req : LiveOrderRequest} (stores : (s.executor.oms.submit req.clientOrderId req.symbol req.qty).2.get id ≠ none) :
      ∃ symbol qty, some (req.clientOrderId, req.symbol, req.qty) = some (id, symbol, qty) ∧
        (s.executor.oms.submit req.clientOrderId req.symbol req.qty).2.get id = some { clientOrderId := id, symbol, qty } := by
    obtain ⟨own, order⟩ := submitted stores
    exact ⟨req.symbol, req.qty, by rw [own], order⟩
  have transitioned {other : String} {target : OrderStatus} {reason : Option String → Option String}
      (stores : (s.executor.oms.transition other target reason).2.get id ≠ none) : False := by
    have missing : s.executor.oms.get id = none := missing
    rw [OMS.get_transition_eq] at stores
    split at stores
    · rename_i own
      subst own
      exact stores (by rw [missing]; rfl)
    · exact stores missing
  cases action with
  | execute req gateway =>
    have stores : (s.executor.executeMarket req gateway).2.oms.get id ≠ none := stores
    show ∃ symbol qty, some (req.clientOrderId, req.symbol, req.qty) = some (id, symbol, qty) ∧
      (s.executor.executeMarket req gateway).2.oms.get id = some { clientOrderId := id, symbol, qty }
    have outcome := s.executor.executeMarket_executed req gateway
    generalize s.executor.executeMarket req gateway = result at outcome stores
    cases outcome with
    | failed e passes raised => exact sent stores
    | acked ack passes accepted => exact sent stores
    | _ => exact absurd missing stores
  | report event =>
    have stores : (s.processor.onExecutionReport event).2.oms.get id ≠ none := stores
    have missing : s.processor.oms.get id = none := missing
    rw [UserStreamProcessor.get_onExecutionReport, missing] at stores
    exact absurd (by split <;> rfl) stores
  | submit clientOrderId symbol qty =>
    obtain ⟨own, order⟩ := submitted stores
    exact ⟨symbol, qty, by rw [Action.payload, own], order⟩
  | fill clientOrderId => exact (transitioned stores).elim
  | cancel clientOrderId => exact (transitioned stores).elim
  | reject clientOrderId reason => exact (transitioned stores).elim
  | engage reason scope accountId strategyId => exact absurd missing stores
  | release scope accountId strategyId => exact absurd missing stores

/-- A gateway call is made only by a request whose gates are all open. -/
theorem calls_of_next {action : Action}
    (called : (machine.next s action).executor.calls ≠ s.executor.calls) :
    ∃ req gateway, action = .execute req gateway ∧ s.executor.Passes req ∧
      (machine.next s action).executor.calls = s.executor.calls ++ [callOf req gateway] := by
  cases action with
  | execute req gateway =>
    have called : (s.executor.executeMarket req gateway).2.calls ≠ s.executor.calls := called
    show ∃ req' gateway', Action.execute req gateway = .execute req' gateway' ∧ s.executor.Passes req' ∧
      (s.executor.executeMarket req gateway).2.calls = s.executor.calls ++ [callOf req' gateway']
    have outcome := s.executor.executeMarket_executed req gateway
    generalize s.executor.executeMarket req gateway = result at outcome called
    cases outcome with
    | failed e passes raised => exact ⟨req, gateway, rfl, passes, rfl⟩
    | acked ack passes accepted => exact ⟨req, gateway, rfl, passes, rfl⟩
    | _ => exact absurd rfl called
  | _ => exact absurd rfl called

end Order

/-- **At most one ack for an id**, in every run of a session. A later request for an acked id
whose global gate is open gets that ack back, whatever it asks for, and changes
nothing; and every gateway call is made for a non-zero quantity, with no global
block, for an id without an ack whose order is `NEW`. -/
theorem live_sends_at_most_once {s : LiveSession} (fresh : s.Fresh) (actions : List Action) :
    (∀ id, ((machine.after s actions).executor.calls.filter (GatewayCall.acksId id)).length ≤ 1) ∧
    (∀ call ∈ (machine.after s actions).executor.calls, ∀ ack, call.outcome = .ok ack →
      ∀ req gateway, req.clientOrderId = call.clientOrderId → req.qty ≠ 0 →
        (∀ ks, (machine.after s actions).executor.killSwitch = some ks → ks.globalReason = none) →
        machine.call (machine.after s actions) (.execute req gateway) =
          (some (.ok ack), machine.after s actions)) ∧
    (∀ action, (machine.next (machine.after s actions) action).executor.calls ≠
        (machine.after s actions).executor.calls →
      ∃ req gateway, action = .execute req gateway ∧ req.qty ≠ 0 ∧
        (∀ ks, (machine.after s actions).executor.killSwitch = some ks → ks.globalReason = none) ∧
        (machine.after s actions).executor.getAck req.clientOrderId = none ∧
        (∀ order, (machine.after s actions).orderOf req.clientOrderId = some order → order.status = .new) ∧
        (machine.next (machine.after s actions) action).executor.calls =
          (machine.after s actions).executor.calls ++ [callOf req gateway]) := by
  have ledgered : Ledgered (machine.after s actions).executor :=
    machine.always (P := fun s => Ledgered s.executor) fresh.ledgered (fun _ action h => h.step action) actions
  generalize machine.after s actions = s at ledgered
  refine ⟨ledgered.once, fun call member ack acked req gateway own qty unblocked => ?_, fun action called => ?_⟩
  · have found := ledgered.stored call member ack acked
    rw [← own] at found
    have allowed := s.executor.assertAllowsExecution_iff.mpr unblocked
    have answer : s.executor.executeMarket req gateway = (.ok ack, s.executor) := by
      simp only [LiveExecutor.executeMarket, if_neg qty, allowed, found]
    show (some (s.executor.executeMarket req gateway).1,
      ({ s with executor := (s.executor.executeMarket req gateway).2 } : LiveSession)) = _
    rw [answer]
  · obtain ⟨req, gateway, rfl, passes, calls⟩ := calls_of_next called
    exact ⟨req, gateway, rfl, passes.qty, s.executor.assertAllowsExecution_iff.mp passes.allowed, passes.unacked,
      passes.new, calls⟩

/-- A session with an empty order management system and a released kill switch. -/
def desk : LiveSession := { executor := { oms := OMS.init, killSwitch := some KillSwitch.init } }

/-- A gateway that accepts every order. -/
def accepting : OrderGateway := fun _ _ id => .ok { clientOrderId := id, exchangeOrderId := "1", acceptedAt := 0 }

/-- A gateway that cannot be reached. -/
def unreachable : OrderGateway := fun _ _ _ => .error (.external "timeout")

theorem live_sends_at_most_once_desk :
    ((machine.after desk [.execute ⟨"c1", "BTCUSDT", 1⟩ unreachable, .execute ⟨"c1", "BTCUSDT", 2⟩ accepting,
      .execute ⟨"c1", "BTCUSDT", 1⟩ accepting]).executor.calls.filter (GatewayCall.acksId "c1")).length ≤ 1 :=
  (live_sends_at_most_once (s := desk) ⟨rfl, rfl⟩ [.execute ⟨"c1", "BTCUSDT", 1⟩ unreachable,
    .execute ⟨"c1", "BTCUSDT", 2⟩ accepting, .execute ⟨"c1", "BTCUSDT", 1⟩ accepting]).1 "c1"

/-- **The life of a live order.** From the action that first stores an order on, in
every run: the order keeps the payload of that action, its status is that of the
first terminal report, fill, cancel or reject for it, and no gateway call is
made for it after that one. -/
theorem live_order_life {s : LiveSession} {id : String} {action : Action} (missing : s.orderOf id = none)
    (stores : (machine.next s action).orderOf id ≠ none) (later : List Action) :
    ∃ symbol qty order, action.payload = some (id, symbol, qty) ∧
      (machine.after s (action :: later)).orderOf id = some order ∧ order.symbol = symbol ∧ order.qty = qty ∧
      order.status = (later.findSome? (Action.settles id)).getD .new ∧
      ∀ done next rest req gateway, later = done ++ next :: rest → req.clientOrderId = id →
        (machine.after s (action :: done ++ [next])).executor.calls =
          (machine.after s (action :: done)).executor.calls ++ [callOf req gateway] →
        done.findSome? (Action.settles id) = none := by
  obtain ⟨symbol, qty, payload, stored⟩ := orderOf_next_of_none missing stores
  obtain ⟨order, found, moved⟩ := orderOf_after stored later
  refine ⟨symbol, qty, order, payload, found, moved.symbol, moved.qty, moved.status, ?_⟩
  intro done next rest req gateway split own sent
  obtain ⟨here, foundHere, movedHere⟩ := orderOf_after stored done
  rw [Run.Machine.after_snoc] at sent
  have called : (machine.next (machine.after s (action :: done)) next).executor.calls ≠
      (machine.after s (action :: done)).executor.calls := by
    rw [sent]
    simp
  obtain ⟨req', gateway', -, passes, calls⟩ := calls_of_next called
  have same : callOf req gateway = callOf req' gateway' :=
    List.singleton_inj.mp (List.append_cancel_left (sent.symm.trans calls))
  have own' : req'.clientOrderId = id := (congrArg GatewayCall.clientOrderId same).symm.trans own
  have isNew : here.status = .new := passes.new here (own' ▸ foundHere)
  rw [movedHere.status, if_pos rfl] at isNew
  cases settled : done.findSome? (Action.settles id) with
  | none => rfl
  | some status =>
    obtain ⟨settler, -, settles⟩ := List.exists_of_findSome?_eq_some settled
    rw [settled] at isNew
    exact absurd (settles.trans (congrArg some isNew)) (settler.settles_ne_new id)

/-- An order that is refused once, sent at the second attempt and then filled. -/
theorem live_order_life_filled :
    ∃ symbol qty order, (Action.execute ⟨"c1", "BTCUSDT", 1⟩ unreachable).payload = some ("c1", symbol, qty) ∧
      (machine.after desk [.execute ⟨"c1", "BTCUSDT", 1⟩ unreachable, .execute ⟨"c1", "BTCUSDT", 2⟩ accepting,
        .report ⟨"c1", "filled", none⟩]).orderOf "c1" = some order ∧ order.qty = qty ∧ order.status = .filled := by
  have stores : (machine.next desk (.execute ⟨"c1", "BTCUSDT", 1⟩ unreachable)).orderOf "c1" ≠ none := by decide
  obtain ⟨symbol, qty, order, payload, found, -, asked, status, -⟩ := live_order_life
    (show desk.orderOf "c1" = none from rfl) stores [.execute ⟨"c1", "BTCUSDT", 2⟩ accepting, .report ⟨"c1", "filled", none⟩]
  exact ⟨symbol, qty, order, payload, found, asked, status.trans (by decide)⟩

end CryptoQuant.Live
