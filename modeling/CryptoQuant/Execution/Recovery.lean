import CryptoQuant.Execution.Reports
import Mathlib.Data.List.TakeWhile

/-!
# Recovery after a restart

`execution/recovery.py`: the state at boot time, from a snapshot and the events
of the user stream after it. The latest event of an order wins, where live
processing keeps the first terminal one, so the two agree except on an order
whose last event is a late `NEW`.
-/

namespace CryptoQuant
set_option autoImplicit false

/-- How floats and strings are read and printed. -/
structure PyText where
  /-- `str(x)` -/
  ofFloat : ℚ → String
  /-- `float(s)`; raises when the text is no number -/
  toFloat : String → Except PyError ℚ
  /-- `repr(s)` -/
  repr : String → String

/-- `OrderStatus.value`. -/
def OrderStatus.value : OrderStatus → String
  | .new => "NEW"
  | .filled => "FILLED"
  | .canceled => "CANCELED"
  | .rejected => "REJECTED"

/-- `OrderStatus(value)`. -/
def OrderStatus.ofValue (texts : PyText) (value : String) : Except PyError OrderStatus :=
  match [OrderStatus.new, .filled, .canceled, .rejected].find? fun s => decide (s.value = value) with
  | some status => .ok status
  | none => .error (.valueError s!"{texts.repr value} is not a valid OrderStatus")

@[simp] theorem OrderStatus.ofValue_value (texts : PyText) (status : OrderStatus) :
    OrderStatus.ofValue texts status.value = .ok status := by
  cases status <;> rfl

/-- A report of a status settles an order exactly when the status is terminal. -/
theorem terminalOf_value (status : OrderStatus) :
    terminalOf status.value = if status = .new then none else some status := by
  cases status <;> decide

/-- `RecoverySnapshot`. -/
structure RecoverySnapshot where
  positions : Py.Dict String ℚ
  orders : Py.Dict String OrderStatus

/-- `UserStreamEvent.value`: a float, an `OrderStatus`, or the text of one. -/
inductive EventValue
  | number (x : ℚ)
  | status (s : OrderStatus)
  | text (s : String)

/-- `UserStreamEvent`. -/
structure UserStreamEvent where
  kind : String
  key : String
  value : EventValue

/-- `RecoveredState`. -/
structure RecoveredState where
  positions : Py.Dict String ℚ
  orders : Py.Dict String OrderStatus

section Recover
variable (texts : PyText)

/-- `float(event.value)`. -/
def EventValue.toFloat : EventValue → Except PyError ℚ
  | .number x => .ok x
  | .status s => .error (.valueError s!"could not convert string to float: <{s.text}: '{s.value}'>")
  | .text s => texts.toFloat s

/-- `event.value`, or `OrderStatus(str(event.value))` when it is no `OrderStatus`. -/
def EventValue.toStatus : EventValue → Except PyError OrderStatus
  | .number x => OrderStatus.ofValue texts (texts.ofFloat x)
  | .status s => .ok s
  | .text s => OrderStatus.ofValue texts s

/-- One event of the loop of `recover_state`. -/
def overlay (state : RecoveredState) (event : UserStreamEvent) : Except PyError RecoveredState :=
  if event.kind = "position" then do
    let x ← event.value.toFloat texts
    return { state with positions := state.positions.set event.key x }
  else if event.kind = "order" then do
    let status ← event.value.toStatus texts
    return { state with orders := state.orders.set event.key status }
  else .error (.valueError s!"unsupported user stream event kind={event.kind}")

/-- `recover_state`. -/
def recoverState (snapshot : RecoverySnapshot) (userStreamEvents : List UserStreamEvent) :
    Except PyError RecoveredState :=
  userStreamEvents.foldlM (overlay texts) ⟨snapshot.positions, snapshot.orders⟩

end Recover

/-! ## Deliveries -/

/-- A delivery of the user stream: the status of an order, for live processing a
report and for recovery an event, which carries the status itself or its text. -/
structure Delivery where
  clientOrderId : String
  status : OrderStatus
  rejectReason : Option String := none
  asText : Bool := false

namespace Delivery

def report (d : Delivery) : ExecutionReport := ⟨d.clientOrderId, d.status.value, d.rejectReason⟩

def event (d : Delivery) : UserStreamEvent :=
  ⟨"order", d.clientOrderId, if d.asText then .text d.status.value else .status d.status⟩

/-- An order event overwrites the status of its order. -/
theorem overlay_event (texts : PyText) (state : RecoveredState) (d : Delivery) :
    overlay texts state d.event = .ok { state with orders := state.orders.set d.clientOrderId d.status } := by
  obtain ⟨id, status, reason, asText⟩ := d
  cases asText with
  | false => rfl
  | true => simp [overlay, event, EventValue.toStatus]

end Delivery

/-- The statuses delivered for an order, in order. -/
def deliveredFor (id : String) (deliveries : List Delivery) : List OrderStatus :=
  (deliveries.filter fun d => decide (d.clientOrderId = id)).map Delivery.status

theorem deliveredFor_snoc (id : String) (deliveries : List Delivery) (d : Delivery) :
    deliveredFor id (deliveries ++ [d]) =
      if d.clientOrderId = id then deliveredFor id deliveries ++ [d.status] else deliveredFor id deliveries := by
  unfold deliveredFor
  rw [List.filter_append, List.map_append]
  split <;> simp [*]

/-- The last delivery of the order is a `NEW` although a terminal one came before. -/
def LateNew (delivered : List OrderStatus) : Prop :=
  delivered.getLast? = some .new ∧ ∃ status ∈ delivered, status ≠ .new

/-- Recovery leaves every order in the status delivered last. -/
theorem recoverState_deliveries (texts : PyText) (snapshot : RecoverySnapshot) (deliveries : List Delivery) :
    ∃ recovered, recoverState texts snapshot (deliveries.map Delivery.event) = .ok recovered ∧
      ∀ id, recovered.orders.get? id = (deliveredFor id deliveries).getLast?.or (snapshot.orders.get? id) := by
  induction deliveries using List.reverseRecOn with
  | nil => exact ⟨_, rfl, fun id => rfl⟩
  | append_singleton deliveries d ih =>
    obtain ⟨recovered, run, statuses⟩ := ih
    refine ⟨{ recovered with orders := recovered.orders.set d.clientOrderId d.status }, ?_, fun id => ?_⟩
    · rw [List.map_append]
      exact Run.foldlM_snoc_ok.mpr ⟨recovered, run, d.overlay_event texts recovered⟩
    · rw [Py.Dict.get?_set, deliveredFor_snoc]
      by_cases own : d.clientOrderId = id
      · rw [if_pos own.symm, if_pos own, List.getLast?_concat]
        rfl
      · rw [if_neg (Ne.symm own), if_neg own]
        exact statuses id

namespace UserStreamProcessor

/-- A delivery that live processing handles without raising. -/
def deliver (p : UserStreamProcessor) (d : Delivery) : Except PyError UserStreamProcessor :=
  match p.onExecutionReport d.report with
  | (.ok (), p) => .ok p
  | (.error e, _) => .error e

section Deliver
variable {p q : UserStreamProcessor} {d : Delivery} {deliveries : List Delivery} {id : String}

/-- A delivery handled without raising is of no status but the one the order
has, unless the order is `NEW`. -/
theorem deliver_ok (done : p.deliver d = .ok q) :
    q = stream.next p (.report d.report) ∧
      ∀ status, p.statusOf d.clientOrderId = some status → status ≠ .new → d.status = .new ∨ d.status = status := by
  have outcome := onExecutionReport_processed p d.report
  unfold deliver at done
  show q = (p.onExecutionReport d.report).2 ∧ _
  have reported : ∀ target, terminalOf d.report.orderStatus = some target → d.status = target := fun target same => by
    have same := (terminalOf_value d.status).symm.trans same
    split at same
    · cases same
    · exact Option.some.inj same
  have stored_as : ∀ order, p.oms.get d.report.clientOrderId = some order → ∀ status,
      p.statusOf d.clientOrderId = some status → order.status = status := fun order found status stored => by
    have found : p.oms.get d.clientOrderId = some order := found
    rw [statusOf, found] at stored
    exact Option.some.inj stored
  generalize p.onExecutionReport d.report = result at outcome done
  cases outcome with
  | unknown missing =>
    cases done
    refine ⟨rfl, fun status stored => ?_⟩
    have missing : p.oms.get d.clientOrderId = none := missing
    rw [statusOf, missing] at stored
    cases stored
  | pending order found early =>
    cases done
    refine ⟨rfl, fun _ _ _ => .inl ?_⟩
    have early := (terminalOf_value d.status).symm.trans early
    by_contra terminal
    rw [if_neg terminal] at early
    cases early
  | repeated order found terminal =>
    cases done
    refine ⟨rfl, fun status stored _ => .inr ?_⟩
    exact (reported _ terminal).trans (stored_as order found status stored)
  | conflicting => cases done
  | settled order target found terminal isNew =>
    cases done
    refine ⟨rfl, fun status stored settled => ?_⟩
    exact absurd ((stored_as order found status stored).symm.trans isNew) settled

/-- What live processing has made of an order: its status is `NEW` or was
delivered, and no other terminal status was. -/
structure Settles (delivered : List OrderStatus) (status : OrderStatus) : Prop where
  among : status = .new ∨ status ∈ delivered
  only : ∀ other ∈ delivered, other = .new ∨ other = status

variable {status : OrderStatus}

theorem Settles.next (settles : Settles (deliveredFor id deliveries) status) (stored : p.statusOf id = some status)
    (done : p.deliver d = .ok q) :
    ∃ status', q.statusOf id = some status' ∧ Settles (deliveredFor id (deliveries ++ [d])) status' := by
  obtain ⟨rfl, agrees⟩ := deliver_ok done
  rw [statusOf_next, stored, deliveredFor_snoc]
  by_cases own : d.clientOrderId = id
  · subst own
    rw [if_pos rfl]
    have reported : StreamCall.terminalFor d.clientOrderId (.report d.report) =
        if d.status = .new then none else some d.status := by
      rw [← terminalOf_value]
      exact if_pos rfl
    by_cases isNew : status = .new
    · subst isNew
      refine ⟨d.status, ?_, .inr (List.mem_append_right _ (List.mem_singleton_self _)), fun other member => ?_⟩
      · simp only [StreamCall.nextStatus, reported]
        split <;> simp [*]
      · rcases List.mem_append.mp member with earlier | here
        · exact .inl ((settles.only other earlier).elim id id)
        · exact .inr (List.mem_singleton.mp here)
    · refine ⟨status, ?_, ?_, fun other member => ?_⟩
      · cases status <;> first | rfl | exact absurd rfl isNew
      · exact settles.among.imp_right fun member => List.mem_append_left _ member
      · rcases List.mem_append.mp member with earlier | here
        · exact settles.only other earlier
        · rw [List.mem_singleton.mp here]
          exact agrees status stored isNew
  · rw [if_neg own]
    refine ⟨status, ?_, settles⟩
    have silent : StreamCall.terminalFor id (.report d.report) = none := if_neg own
    cases status <;> simp [StreamCall.nextStatus, silent]

/-- Live processing settles every order it holds. -/
theorem deliveries_settle {start : UserStreamProcessor} (isNew : start.statusOf id = some .new)
    (live : deliveries.foldlM deliver start = .ok p) :
    ∃ status, p.statusOf id = some status ∧ Settles (deliveredFor id deliveries) status := by
  refine Run.invariant (P := fun done p => ∃ status, UserStreamProcessor.statusOf p id = some status ∧
    Settles (deliveredFor id done) status) ⟨.new, isNew, .inl rfl, fun _ member => absurd member List.not_mem_nil⟩
    ?_ (List.append_nil deliveries).symm live
  rintro done d rest p q - ⟨status, stored, settles⟩ moved
  exact settles.next stored moved

/-- The last delivered status is the settled one, unless it is a late `NEW`. -/
theorem Settles.last_iff {delivered : List OrderStatus} (settles : Settles delivered status) :
    delivered.getLast?.getD .new = status ↔ ¬ LateNew delivered := by
  cases last : delivered.getLast? with
  | none =>
    obtain rfl := List.getLast?_eq_none_iff.mp last
    obtain rfl : status = .new := settles.among.resolve_right List.not_mem_nil
    exact iff_of_true rfl fun late => by cases late.1
  | some lastStatus =>
    have member : lastStatus ∈ delivered := List.mem_of_getLast? last
    rw [Option.getD_some]
    constructor
    · rintro rfl ⟨isNew, other, delivered, terminal⟩
      rw [last] at isNew
      rcases settles.only other delivered with same | same
      · exact terminal same
      · exact terminal (same.trans (Option.some.inj isNew))
    · intro timely
      by_cases isNew : lastStatus = .new
      · by_contra differs
        rw [isNew] at last differs
        have terminal : status ∈ delivered := settles.among.resolve_left (Ne.symm differs)
        exact timely ⟨last, status, terminal, Ne.symm differs⟩
      · exact (settles.only lastStatus member).resolve_left isNew

end Deliver

/-- The processor once orders have been submitted to its order management system. -/
def afterSubmitting (monitoring : Option Monitoring) (orders : List (String × String × ℚ)) : UserStreamProcessor :=
  stream.after ⟨OMS.init, monitoring⟩ (orders.map fun (id, symbol, qty) => .submit id symbol qty)

/-- The snapshot of the stored orders. -/
def snapshot (p : UserStreamProcessor) (positions : Py.Dict String ℚ) : RecoverySnapshot where
  positions
  orders := .ofKeys p.oms.orders.keys fun id => (p.statusOf id).getD .new

section Submitted
variable {monitoring : Option Monitoring} {orders : List (String × String × ℚ)} {id : String}

theorem statusOf_afterSubmitting (member : id ∈ orders.map Prod.fst) :
    (afterSubmitting monitoring orders).statusOf id = some .new := by
  unfold afterSubmitting
  rw [statusOf_after]
  unfold expectedStatus
  cases split : (orders.map fun (id, symbol, qty) => StreamCall.submit id symbol qty).dropWhile
      (fun c => !c.submits id) with
  | nil =>
    obtain ⟨⟨name, symbol, qty⟩, among, rfl⟩ := List.mem_map.mp member
    have missed := List.dropWhile_eq_nil_iff.mp split _ (List.mem_map_of_mem among)
    simp [StreamCall.submits] at missed
  | cons first later =>
    have rest : later.findSome? (StreamCall.terminalFor id) = none := by
      refine List.findSome?_eq_none_iff.mpr fun c among => ?_
      have among : c ∈ orders.map fun (id, symbol, qty) => StreamCall.submit id symbol qty :=
        (List.dropWhile_sublist _).subset (split ▸ List.mem_cons_of_mem _ among)
      obtain ⟨⟨name, symbol, qty⟩, -, rfl⟩ := List.mem_map.mp among
      rfl
    simp only [rest, Option.getD_none]

theorem get?_snapshot {p : UserStreamProcessor} {status : OrderStatus} (positions : Py.Dict String ℚ)
    (stored : p.statusOf id = some status) : (p.snapshot positions).orders.get? id = some status := by
  obtain ⟨order, found, -⟩ := Option.map_eq_some_iff.mp stored
  have member : id ∈ p.oms.orders.keys := Py.Dict.mem_keys_iff.mpr ⟨order, found⟩
  show (Py.Dict.ofKeys _ _).get? id = _
  rw [Py.Dict.get?_ofKeys, if_pos member, stored, Option.getD_some]

/-- **Recovery agrees with live processing** on every submitted order but those
whose last delivery is a late `NEW`; these are recovered as `NEW`. -/
theorem recovery_agrees (texts : PyText) (positions : Py.Dict String ℚ) (monitoring : Option Monitoring)
    (orders : List (String × String × ℚ)) (deliveries : List Delivery) {p : UserStreamProcessor}
    (live : deliveries.foldlM deliver (afterSubmitting monitoring orders) = .ok p) :
    ∃ recovered, recoverState texts ((afterSubmitting monitoring orders).snapshot positions)
        (deliveries.map Delivery.event) = .ok recovered ∧
      ∀ id ∈ orders.map Prod.fst,
        (recovered.orders.get? id = p.statusOf id ↔ ¬ LateNew (deliveredFor id deliveries)) ∧
        (LateNew (deliveredFor id deliveries) → recovered.orders.get? id = some .new) := by
  obtain ⟨recovered, run, statuses⟩ :=
    recoverState_deliveries texts ((afterSubmitting monitoring orders).snapshot positions) deliveries
  refine ⟨recovered, run, fun id member => ?_⟩
  have isNew : (afterSubmitting monitoring orders).statusOf id = some .new := statusOf_afterSubmitting member
  obtain ⟨status, stored, settles⟩ := deliveries_settle isNew live
  have overlaid : recovered.orders.get? id = some ((deliveredFor id deliveries).getLast?.getD .new) := by
    rw [statuses, get?_snapshot positions isNew]
    cases (deliveredFor id deliveries).getLast? <;> rfl
  rw [overlaid, stored, Option.some.injEq]
  refine ⟨settles.last_iff, fun late => ?_⟩
  rw [late.1]
  rfl

end Submitted

/-- A fill delivered twice, after the acknowledgement. -/
theorem recovery_agrees_duplicate :
    ∃ p, [⟨"o-1", .new, none, false⟩, ⟨"o-1", .filled, none, false⟩, ⟨"o-1", .filled, none, true⟩].foldlM deliver
        (afterSubmitting none [("o-1", "BTCUSDT", 1)]) = .ok p ∧
      ∃ recovered, recoverState ⟨toString, fun _ => .error .keyError, id⟩
          ((afterSubmitting none [("o-1", "BTCUSDT", 1)]).snapshot .empty)
          ([⟨"o-1", .new, none, false⟩, ⟨"o-1", .filled, none, false⟩, ⟨"o-1", .filled, none, true⟩].map
            Delivery.event) = .ok recovered ∧
        recovered.orders.get? "o-1" = p.statusOf "o-1" := by
  obtain ⟨p, live, -⟩ := Run.endsIn_iff.mp (show Run.endsIn
    ([⟨"o-1", .new, none, false⟩, ⟨"o-1", .filled, none, false⟩, ⟨"o-1", .filled, none, true⟩].foldlM deliver
      (afterSubmitting none [("o-1", "BTCUSDT", 1)])) (fun _ => true) = true by decide +kernel)
  obtain ⟨recovered, run, agree⟩ := recovery_agrees ⟨toString, fun _ => .error .keyError, id⟩ .empty none
    [("o-1", "BTCUSDT", 1)] [⟨"o-1", .new, none, false⟩, ⟨"o-1", .filled, none, false⟩, ⟨"o-1", .filled, none, true⟩] live
  refine ⟨p, live, recovered, run, (agree "o-1" (by simp)).1.mpr ?_⟩
  rintro ⟨last, -⟩
  exact absurd last (by decide)

/-- A fill and then an acknowledgement delivered late: the order stays filled,
and is recovered as `NEW`. -/
theorem recovery_misses_late :
    ¬ ∀ (orders : List (String × String × ℚ)) (deliveries : List Delivery) (p : UserStreamProcessor),
      deliveries.foldlM deliver (afterSubmitting none orders) = .ok p →
      ∃ recovered, recoverState ⟨toString, fun _ => .error .keyError, id⟩ ((afterSubmitting none orders).snapshot .empty)
          (deliveries.map Delivery.event) = .ok recovered ∧
        ∀ id ∈ orders.map Prod.fst, recovered.orders.get? id = p.statusOf id := by
  intro agree
  obtain ⟨p, live, check⟩ := Run.endsIn_iff.mp (show Run.endsIn
    ([⟨"o-1", .filled, none, false⟩, ⟨"o-1", .new, none, false⟩].foldlM deliver
      (afterSubmitting none [("o-1", "BTCUSDT", 1)])) (fun p => decide (p.statusOf "o-1" = some .filled)) = true by
        decide +kernel)
  obtain ⟨recovered, run, same⟩ := agree [("o-1", "BTCUSDT", 1)]
    [⟨"o-1", .filled, none, false⟩, ⟨"o-1", .new, none, false⟩] p live
  obtain ⟨again, rerun, isNew⟩ := Run.endsIn_iff.mp (show Run.endsIn
    (recoverState ⟨toString, fun _ => .error .keyError, id⟩ ((afterSubmitting none [("o-1", "BTCUSDT", 1)]).snapshot .empty)
      ([⟨"o-1", .filled, none, false⟩, ⟨"o-1", .new, none, false⟩].map Delivery.event))
    (fun recovered => decide (recovered.orders.get? "o-1" = some .new)) = true by decide +kernel)
  rw [run] at rerun
  cases rerun
  have filled := (same "o-1" (by simp)).trans (of_decide_eq_true check)
  rw [of_decide_eq_true isNew] at filled
  cases filled

end UserStreamProcessor

end CryptoQuant
