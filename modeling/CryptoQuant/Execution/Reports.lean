import CryptoQuant.Execution.UserStream
import CryptoQuant.Lib.Run

/-!
# Terminal reports

Runs of order submissions and execution reports, in any order. An exchange
stream delivers reports at least once: the first terminal one settles an order,
a repetition is absorbed, and one that contradicts it raises and changes nothing.
-/

namespace CryptoQuant
set_option autoImplicit false

/-- The status a reported text settles an order with, if it is terminal. -/
def terminalOf (orderStatus : String) : Option OrderStatus :=
  if strUpper orderStatus = "FILLED" then some .filled
  else if strUpper orderStatus = "CANCELED" ∨ strUpper orderStatus = "EXPIRED" then some .canceled
  else if strUpper orderStatus = "REJECTED" then some .rejected
  else none

theorem terminalOf_ne_new (orderStatus : String) : terminalOf orderStatus ≠ some .new := by
  unfold terminalOf
  split
  · simp
  · split
    · simp
    · split <;> simp

namespace UserStreamProcessor

/-- What a report writes as reject reason when it settles an order. -/
def reasonWritten (target : OrderStatus) (event : ExecutionReport) : Option String → Option String :=
  if target = .rejected then fun _ => some (reasonOf event) else id

/-- What the monitoring records of a settled order. -/
def recorded (target : OrderStatus) (event : ExecutionReport) (m : Monitoring) : Monitoring :=
  match target with
  | .filled => m.recordOrderFilled event.clientOrderId
  | .rejected => m.recordOrderRejected event.clientOrderId (reasonOf event)
  | _ => m

/-- The processor once a report has settled an order. -/
def settledBy (p : UserStreamProcessor) (order : Order) (target : OrderStatus) (event : ExecutionReport) :
    UserStreamProcessor where
  oms := { p.oms with orders := p.oms.orders.set event.clientOrderId (order.moveTo target (reasonWritten target event)) }
  monitoring := p.monitoring.map (recorded target event)

/-- **What a report can do**: only a terminal report of a `NEW` order changes
anything. -/
inductive Processed (p : UserStreamProcessor) (event : ExecutionReport) :
    Except PyError Unit × UserStreamProcessor → Prop
  | unknown (missing : p.oms.get event.clientOrderId = none) : Processed p event (.ok (), p)
  | pending (order : Order) (found : p.oms.get event.clientOrderId = some order)
      (early : terminalOf event.orderStatus = none) : Processed p event (.ok (), p)
  | repeated (order : Order) (found : p.oms.get event.clientOrderId = some order)
      (terminal : terminalOf event.orderStatus = some order.status) : Processed p event (.ok (), p)
  | conflicting (order : Order) (target : OrderStatus) (e : PyError)
      (found : p.oms.get event.clientOrderId = some order)
      (terminal : terminalOf event.orderStatus = some target) (settled : order.status ≠ .new)
      (differs : order.status ≠ target) : Processed p event (.error e, p)
  | settled (order : Order) (target : OrderStatus) (found : p.oms.get event.clientOrderId = some order)
      (terminal : terminalOf event.orderStatus = some target) (isNew : order.status = .new) :
      Processed p event (.ok (), p.settledBy order target event)

section Report
variable {p : UserStreamProcessor} {event : ExecutionReport} {order : Order} {target : OrderStatus}

/-- A terminal report of a stored order, by the status of the order. -/
theorem settle_processed (found : p.oms.get event.clientOrderId = some order)
    (terminal : terminalOf event.orderStatus = some target) :
    Processed p event (if order.status = target then (.ok (), p)
      else p.settle (p.oms.transition event.clientOrderId target (reasonWritten target event)) (recorded target event)) := by
  by_cases repeated : order.status = target
  · rw [if_pos repeated]
    exact .repeated order found (repeated ▸ terminal)
  rw [if_neg repeated]
  by_cases isNew : order.status = .new
  · rw [OMS.transition_of_new found isNew]
    exact .settled order target found terminal isNew
  · have refused : (p.oms.transition event.clientOrderId target (reasonWritten target event)) =
        (.error (.valueError s!"invalid transition: {order.status.text} -> {target.text}"), p.oms) := by
      simp only [OMS.transition, found, ne_eq, isNew, not_false_eq_true, if_true]
    rw [refused]
    exact .conflicting order target _ found terminal isNew repeated

theorem onExecutionReport_processed (p : UserStreamProcessor) (event : ExecutionReport) :
    Processed p event (p.onExecutionReport event) := by
  unfold onExecutionReport
  cases found : p.oms.get event.clientOrderId with
  | none => exact .unknown found
  | some order =>
    simp only
    by_cases early : strUpper event.orderStatus ∈ ["NEW", "ACK", "PARTIALLY_FILLED"]
    · rw [if_pos early]
      refine .pending order found ?_
      unfold terminalOf
      simp only [List.mem_cons, List.not_mem_nil, or_false] at early
      rcases early with same | same | same <;> rw [same] <;> decide
    rw [if_neg early]
    by_cases filled : strUpper event.orderStatus = "FILLED"
    · rw [if_pos filled]
      exact settle_processed found (by rw [terminalOf, if_pos filled])
    rw [if_neg filled]
    by_cases canceled : strUpper event.orderStatus ∈ ["CANCELED", "EXPIRED"]
    · rw [if_pos canceled]
      rw [List.mem_pair] at canceled
      refine settle_processed found (by rw [terminalOf, if_neg filled, if_pos canceled])
    rw [if_neg canceled]
    rw [List.mem_pair] at canceled
    by_cases rejected : strUpper event.orderStatus = "REJECTED"
    · rw [if_pos rejected]
      exact settle_processed found (by rw [terminalOf, if_neg filled, if_neg canceled, if_pos rejected])
    · rw [if_neg rejected]
      exact .pending order found (by rw [terminalOf, if_neg filled, if_neg canceled, if_neg rejected])

/-- An order once a report for it has been processed. -/
def reported (event : ExecutionReport) (order : Order) : Order :=
  match terminalOf event.orderStatus with
  | none => order
  | some target => order.settle target (reasonWritten target event)

/-- What a report leaves under every id. -/
theorem get_onExecutionReport (p : UserStreamProcessor) (event : ExecutionReport) (id : String) :
    (p.onExecutionReport event).2.oms.get id =
      if id = event.clientOrderId then (p.oms.get id).map (reported event) else p.oms.get id := by
  have outcome := onExecutionReport_processed p event
  -- A report that changes nothing finds no order, is not terminal, or comes after a terminal one.
  have idle (same : ∀ order, p.oms.get event.clientOrderId = some order → reported event order = order) :
      p.oms.get id = if id = event.clientOrderId then (p.oms.get id).map (reported event) else p.oms.get id := by
    split
    · rename_i own
      subst own
      cases found : p.oms.get event.clientOrderId with
      | none => rfl
      | some order => rw [Option.map_some, same order found]
    · rfl
  have late {order : Order} (settled : order.status ≠ .new) : reported event order = order := by
    unfold reported
    split
    · rfl
    · exact if_neg settled
  generalize p.onExecutionReport event = result at outcome
  cases outcome with
  | unknown missing => exact idle fun order found => by rw [missing] at found; cases found
  | pending order found early => exact idle fun other _ => by rw [reported, early]
  | repeated order found terminal =>
    refine idle fun other again => late fun isNew => ?_
    rw [found] at again
    cases again
    exact terminalOf_ne_new _ (isNew ▸ terminal)
  | conflicting order target e found terminal settled differs =>
    refine idle fun other again => late ?_
    rw [found] at again
    cases again
    exact settled
  | settled order target found terminal isNew =>
    show (p.oms.orders.set event.clientOrderId _).get? id = _
    rw [Py.Dict.get?_set]
    split
    · rename_i own
      rw [own, found, Option.map_some, reported, terminal]
      simp only [Order.settle, if_pos isNew]
    · rfl

end Report

end UserStreamProcessor

/-! ## Runs -/

/-- A call of a run: an order is submitted, or a report is delivered. -/
inductive StreamCall
  | submit (clientOrderId symbol : String) (qty : ℚ)
  | report (event : ExecutionReport)

namespace StreamCall

/-- The call submits the order. -/
def submits (id : String) : StreamCall → Bool
  | .submit clientOrderId _ _ => decide (clientOrderId = id)
  | .report _ => false

/-- The terminal status the call reports for the order. -/
def terminalFor (id : String) : StreamCall → Option OrderStatus
  | .submit _ _ _ => none
  | .report event => if event.clientOrderId = id then terminalOf event.orderStatus else none

theorem terminalFor_ne_new (id : String) (c : StreamCall) : c.terminalFor id ≠ some .new := by
  cases c with
  | submit => simp [terminalFor]
  | report event =>
    by_cases own : event.clientOrderId = id
    · rw [terminalFor, if_pos own]
      exact terminalOf_ne_new _
    · simp [terminalFor, own]

/-- The status of an order after a call. -/
def nextStatus (id : String) (c : StreamCall) : Option OrderStatus → Option OrderStatus
  | none => if c.submits id then some .new else none
  | some .new => some ((c.terminalFor id).getD .new)
  | some status => some status

end StreamCall

open StreamCall (nextStatus)

/-- The status an order should have: that of the first terminal report after its
submission, `NEW` if there was none. -/
def expectedStatus (id : String) (calls : List StreamCall) : Option OrderStatus :=
  match calls.dropWhile fun c => !c.submits id with
  | [] => none
  | _ :: later => some ((later.findSome? (StreamCall.terminalFor id)).getD .new)

theorem expectedStatus_snoc (id : String) (calls : List StreamCall) (c : StreamCall) :
    expectedStatus id (calls ++ [c]) = nextStatus id c (expectedStatus id calls) := by
  unfold expectedStatus
  rw [List.dropWhile_append]
  cases submitted : calls.dropWhile fun c => !c.submits id with
  | nil =>
    cases here : c.submits id <;> simp [nextStatus, here]
  | cons first later =>
    simp only [List.isEmpty_cons, Bool.false_eq_true, if_false, List.cons_append, List.findSome?_append]
    cases earlier : later.findSome? (StreamCall.terminalFor id) with
    | none => simp [nextStatus]
    | some status =>
      obtain ⟨d, -, reported⟩ := List.exists_of_findSome?_eq_some earlier
      have settled : status ≠ .new := by
        rintro rfl
        exact d.terminalFor_ne_new id reported
      cases status with
      | new => exact absurd rfl settled
      | _ => simp [nextStatus]

namespace UserStreamProcessor

/-- The calls of a run, one after the other. -/
def stream : Run.Machine UserStreamProcessor StreamCall (Except PyError Unit) where
  call p
    | .submit clientOrderId symbol qty => (.ok (), { p with oms := (p.oms.submit clientOrderId symbol qty).2 })
    | .report event => p.onExecutionReport event

/-- The status of a stored order. -/
def statusOf (p : UserStreamProcessor) (id : String) : Option OrderStatus := (p.oms.get id).map Order.status

section Step
variable {p : UserStreamProcessor} {event : ExecutionReport} {order : Order} {target : OrderStatus}

theorem statusOf_settledBy (p : UserStreamProcessor) (order : Order) (target : OrderStatus) (event : ExecutionReport)
    (id : String) :
    (p.settledBy order target event).statusOf id = if id = event.clientOrderId then some target else p.statusOf id := by
  unfold statusOf settledBy OMS.get
  rw [Py.Dict.get?_set]
  split <;> rfl

theorem statusOf_submit (p : UserStreamProcessor) (clientOrderId symbol : String) (qty : ℚ) (id : String) :
    (stream.next p (.submit clientOrderId symbol qty)).statusOf id =
      nextStatus id (.submit clientOrderId symbol qty) (p.statusOf id) := by
  show ((p.oms.submit clientOrderId symbol qty).2.get id).map Order.status = nextStatus id _ ((p.oms.get id).map Order.status)
  cases stored : p.oms.get id with
  | some order =>
    rw [OMS.get_submit_of_some _ _ _ _ stored]
    cases status : order.status <;> simp [nextStatus, StreamCall.terminalFor, status]
  | none =>
    by_cases own : clientOrderId = id
    · subst own
      rw [OMS.get_submit_self, OMS.submit_of_none _ _ _ _ stored]
      simp [nextStatus, StreamCall.submits]
    · rw [OMS.get_submit_ne _ _ _ _ (Ne.symm own), stored]
      simp [nextStatus, StreamCall.submits, own]

/-- A call moves every order as its status prescribes. -/
theorem statusOf_next (p : UserStreamProcessor) (c : StreamCall) (id : String) :
    (stream.next p c).statusOf id = nextStatus id c (p.statusOf id) := by
  cases c with
  | submit clientOrderId symbol qty => exact statusOf_submit p clientOrderId symbol qty id
  | report event =>
    show (p.onExecutionReport event).2.statusOf id = _
    have outcome := onExecutionReport_processed p event
    -- The reports that change nothing: what they leave is what they should.
    have idle (same : ∀ order, p.oms.get event.clientOrderId = some order → order.status = .new →
        terminalOf event.orderStatus = none) : p.statusOf id = nextStatus id (.report event) (p.statusOf id) := by
      cases stored : p.statusOf id with
      | none => simp [nextStatus, StreamCall.submits]
      | some status =>
        cases status with
        | new =>
          obtain ⟨order, found, isNew⟩ := Option.map_eq_some_iff.mp stored
          simp only [nextStatus, StreamCall.terminalFor]
          split
          · rename_i own
            subst own
            rw [same order found isNew]
            rfl
          · rfl
        | _ => rfl
    generalize p.onExecutionReport event = result at outcome
    cases outcome with
    | unknown missing => exact idle fun order found => by rw [missing] at found; cases found
    | pending order found early => exact idle fun _ _ _ => early
    | repeated order found terminal =>
      refine idle fun other again isNew => ?_
      rw [found] at again
      cases again
      exact absurd (isNew ▸ terminal) (terminalOf_ne_new _)
    | conflicting order target e found terminal settled differs =>
      refine idle fun other again isNew => ?_
      rw [found] at again
      cases again
      exact absurd isNew settled
    | settled order target found terminal isNew =>
      rw [statusOf_settledBy]
      split
      · rename_i own
        subst own
        have stored : p.statusOf event.clientOrderId = some .new := by rw [statusOf, found, ← isNew]; rfl
        rw [stored]
        simp [nextStatus, StreamCall.terminalFor, terminal]
      · rename_i other
        cases p.statusOf id with
        | none => simp [nextStatus, StreamCall.submits]
        | some status => cases status <;> simp [nextStatus, StreamCall.terminalFor, Ne.symm other]

end Step

/-- The monitoring after a list of settled orders. -/
def recordedAll (settled : List (OrderStatus × ExecutionReport)) (m : Monitoring) : Monitoring :=
  settled.foldl (fun m s => recorded s.1 s.2 m) m

/-- The stored orders of a status. -/
def held (p : UserStreamProcessor) (status : OrderStatus) : List String :=
  p.oms.orders.keys.filter fun id => decide (p.statusOf id = some status)

/-- The monitoring has recorded a list of settled orders, no order twice, and
these are the orders that are in the status recorded for them. -/
structure SettledOnce (monitoring : Option Monitoring) (p : UserStreamProcessor)
    (settled : List (OrderStatus × ExecutionReport)) : Prop where
  once : (settled.map fun s => s.2.clientOrderId).Nodup
  complete : ∀ id status, (∃ event, (status, event) ∈ settled ∧ event.clientOrderId = id) ↔
    status ≠ .new ∧ p.statusOf id = some status
  recorded : p.monitoring = monitoring.map (recordedAll settled)

section Settled
variable {monitoring : Option Monitoring} {p : UserStreamProcessor} {settled : List (OrderStatus × ExecutionReport)}

/-- What keeps the monitoring and the terminal statuses keeps the record. -/
theorem SettledOnce.keep {q : UserStreamProcessor} (once : SettledOnce monitoring p settled)
    (same : q.monitoring = p.monitoring)
    (statuses : ∀ id status, status ≠ .new → (q.statusOf id = some status ↔ p.statusOf id = some status)) :
    SettledOnce monitoring q settled where
  once := once.once
  complete id status := by
    rw [once.complete]
    exact and_congr_right fun terminal => (statuses id status terminal).symm
  recorded := by rw [same, once.recorded]

/-- An order that is settled is added to the record. -/
theorem SettledOnce.settle (once : SettledOnce monitoring p settled) {order : Order} {target : OrderStatus}
    {event : ExecutionReport} (terminal : terminalOf event.orderStatus = some target)
    (isNew : p.statusOf event.clientOrderId = some .new) :
    SettledOnce monitoring (p.settledBy order target event) (settled ++ [(target, event)]) where
  once := by
    rw [List.map_append]
    refine List.Nodup.append once.once (List.nodup_singleton _) fun id before here => ?_
    obtain ⟨⟨status, earlier⟩, member, same⟩ := List.mem_map.mp before
    obtain rfl := List.mem_singleton.mp here
    obtain ⟨settledBefore, stored⟩ := (once.complete _ status).mp ⟨earlier, member, same⟩
    rw [isNew] at stored
    exact settledBefore (Option.some.inj stored).symm
  complete id status := by
    have fresh : target ≠ .new := fun same => terminalOf_ne_new event.orderStatus (same ▸ terminal)
    rw [statusOf_settledBy]
    simp only [List.mem_append, List.mem_singleton, Prod.mk.injEq, or_and_right, exists_or, once.complete]
    by_cases own : id = event.clientOrderId
    · subst own
      rw [if_pos rfl, isNew]
      constructor
      · rintro (⟨settledBefore, stored⟩ | ⟨other, ⟨rfl, rfl⟩, -⟩)
        · exact absurd (Option.some.inj stored).symm settledBefore
        · exact ⟨fresh, rfl⟩
      · rintro ⟨-, same⟩
        exact .inr ⟨event, ⟨(Option.some.inj same).symm, rfl⟩, rfl⟩
    · rw [if_neg own]
      refine or_iff_left ?_
      rintro ⟨other, ⟨-, rfl⟩, same⟩
      exact own same.symm
  recorded := by
    show p.monitoring.map _ = _
    rw [once.recorded, Option.map_map]
    congr 1
    funext m
    simp only [recordedAll, List.foldl_append, List.foldl_cons, List.foldl_nil, Function.comp_apply]

/-- A call keeps the record, or adds the order that it settles. -/
theorem SettledOnce.next (once : SettledOnce monitoring p settled) (c : StreamCall) :
    ∃ settled, SettledOnce monitoring (stream.next p c) settled := by
  cases c with
  | submit clientOrderId symbol qty =>
    refine ⟨settled, once.keep rfl fun id status terminal => ?_⟩
    rw [statusOf_next]
    cases p.statusOf id with
    | none =>
      simp only [nextStatus]
      split <;> simp [Ne.symm terminal]
    | some status => cases status <;> simp [nextStatus, StreamCall.terminalFor]
  | report event =>
    show ∃ settled, SettledOnce monitoring (p.onExecutionReport event).2 settled
    have outcome := onExecutionReport_processed p event
    generalize p.onExecutionReport event = result at outcome
    cases outcome with
    | settled order target found terminal isNew =>
      exact ⟨_, once.settle terminal (by rw [statusOf, found, ← isNew]; rfl)⟩
    | _ => exact ⟨settled, once⟩

/-- The settled orders of a status are the stored orders of that status. -/
theorem SettledOnce.count (once : SettledOnce monitoring p settled) {status : OrderStatus} (terminal : status ≠ .new) :
    settled.countP (fun s => decide (s.1 = status)) = (p.held status).length := by
  have names : ((settled.filter fun s => decide (s.1 = status)).map fun s => s.2.clientOrderId).Nodup :=
    once.once.sublist (List.filter_sublist.map _)
  have ids : (p.held status).Nodup := p.oms.orders.nodup_keys.sublist List.filter_sublist
  rw [List.countP_eq_length_filter, ← List.length_map (fun s => s.2.clientOrderId)]
  refine ((List.perm_ext_iff_of_nodup names ids).mpr fun id => ?_).length_eq
  have stored : p.statusOf id = some status → id ∈ p.oms.orders.keys := fun same => by
    obtain ⟨order, found, -⟩ := Option.map_eq_some_iff.mp same
    exact Py.Dict.mem_keys_iff.mpr ⟨order, found⟩
  have complete := once.complete id status
  simp only [List.mem_map, List.mem_filter, decide_eq_true_eq, held]
  constructor
  · rintro ⟨⟨s, event⟩, ⟨member, rfl⟩, same⟩
    have settledAs := (complete.mp ⟨event, member, same⟩).2
    exact ⟨stored settledAs, settledAs⟩
  · rintro ⟨-, settledAs⟩
    obtain ⟨event, member, same⟩ := complete.mpr ⟨terminal, settledAs⟩
    exact ⟨(status, event), ⟨member, rfl⟩, same⟩

/-- The counters of the monitoring count the filled and the rejected orders. -/
theorem counters_recordedAll (settled : List (OrderStatus × ExecutionReport)) (m : Monitoring) :
    (recordedAll settled m).orders = m.orders + settled.countP (fun s => decide (s.1 = .filled)) ∧
      (recordedAll settled m).rejects = m.rejects + settled.countP (fun s => decide (s.1 = .rejected)) := by
  induction settled using List.reverseRecOn with
  | nil => exact ⟨rfl, rfl⟩
  | append_singleton settled s ih =>
    obtain ⟨target, event⟩ := s
    rw [List.countP_append, List.countP_append, ← add_assoc, ← add_assoc, ← ih.1, ← ih.2]
    simp only [recordedAll, List.foldl_append, List.foldl_cons, List.foldl_nil]
    cases target <;>
      simp [UserStreamProcessor.recorded, Monitoring.recordOrderFilled, Monitoring.recordOrderRejected]

end Settled

theorem statusOf_after (monitoring : Option Monitoring) (calls : List StreamCall) (id : String) :
    (stream.after ⟨OMS.init, monitoring⟩ calls).statusOf id = expectedStatus id calls := by
  induction calls using List.reverseRecOn with
  | nil => rfl
  | append_singleton calls c ih => rw [Run.Machine.after_snoc, statusOf_next, ih, expectedStatus_snoc]

/-- After the calls, every order has the status of its first terminal report, a
report that raises changes nothing, and the monitoring has recorded each filled
and each rejected order once. -/
structure FirstTerminalWins (monitoring : Option Monitoring) (calls : List StreamCall) (p : UserStreamProcessor) :
    Prop where
  status : ∀ id, p.statusOf id = expectedStatus id calls
  refused : ∀ event e, (p.onExecutionReport event).1 = .error e → (p.onExecutionReport event).2 = p
  recorded : ∃ settled, SettledOnce monitoring p settled
  counted : ∀ m, monitoring = some m → ∃ m', p.monitoring = some m' ∧
    m'.orders = m.orders + (p.held .filled).length ∧ m'.rejects = m.rejects + (p.held .rejected).length

/-- **The first terminal report wins**, after any run of submissions and reports
on a new order management system. -/
theorem first_terminal_wins (monitoring : Option Monitoring) (calls : List StreamCall) :
    FirstTerminalWins monitoring calls (stream.after ⟨OMS.init, monitoring⟩ calls) := by
  have kept : ∃ settled, SettledOnce monitoring (stream.after ⟨OMS.init, monitoring⟩ calls) settled := by
    refine stream.always (P := fun p => ∃ settled, SettledOnce monitoring p settled) ⟨[], ?_⟩
      (fun p c ⟨settled, once⟩ => once.next c) calls
    refine ⟨List.nodup_nil, fun id status => ?_, ?_⟩
    · simp [statusOf, OMS.get, OMS.init, Py.Dict.get?, Py.Dict.empty]
    · cases monitoring <;> rfl
  refine ⟨statusOf_after monitoring calls, fun event e raised => ?_, kept, fun m started => ?_⟩
  · generalize stream.after _ calls = p at raised ⊢
    have outcome := onExecutionReport_processed p event
    generalize p.onExecutionReport event = result at outcome raised ⊢
    cases outcome with
    | settled => cases raised
    | _ => rfl
  · obtain ⟨settled, once⟩ := kept
    obtain ⟨filled, rejected⟩ := counters_recordedAll settled m
    refine ⟨recordedAll settled m, by rw [once.recorded, started]; rfl, ?_, ?_⟩
    · rw [filled, once.count (by decide)]
    · rw [rejected, once.count (by decide)]

end UserStreamProcessor

end CryptoQuant
