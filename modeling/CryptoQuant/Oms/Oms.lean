import CryptoQuant.Basic

/-!
# The order management system

`oms/models.py` and `oms/oms.py`: an order is created `NEW` by an idempotent
`submit` and leaves `NEW` at most once, to one of three terminal statuses.
-/

namespace CryptoQuant
set_option autoImplicit false

/-- `OrderStatus`. -/
inductive OrderStatus
  | new | filled | canceled | rejected
deriving DecidableEq, Repr

/-- `str(OrderStatus)`, as the error texts print it. -/
def OrderStatus.text : OrderStatus → String
  | .new => "OrderStatus.NEW"
  | .filled => "OrderStatus.FILLED"
  | .canceled => "OrderStatus.CANCELED"
  | .rejected => "OrderStatus.REJECTED"

/-- `Order`. -/
structure Order where
  clientOrderId : String
  symbol : String
  qty : ℚ
  status : OrderStatus := .new
  rejectReason : Option String := none
deriving DecidableEq

/-- The order after `order.status = target` and the write of its reject reason. -/
def Order.moveTo (order : Order) (target : OrderStatus) (reason : Option String → Option String) : Order :=
  { order with status := target, rejectReason := reason order.rejectReason }

/-- The order once a transition has been asked for: only a `NEW` order moves. -/
def Order.settle (order : Order) (target : OrderStatus) (reason : Option String → Option String) : Order :=
  if order.status = .new then order.moveTo target reason else order

/-- `OMS`. -/
structure OMS where
  orders : Py.Dict String Order

namespace OMS

/-- `OMS()`. -/
def init : OMS := ⟨.empty⟩

/-- `get`. -/
def get (oms : OMS) (clientOrderId : String) : Option Order := oms.orders.get? clientOrderId

/-- `submit`: a known id returns the stored order, whatever the payload. -/
def submit (oms : OMS) (clientOrderId symbol : String) (qty : ℚ) : Order × OMS :=
  match oms.get clientOrderId with
  | some order => (order, oms)
  | none =>
    let order : Order := { clientOrderId, symbol, qty }
    (order, { oms with orders := oms.orders.set clientOrderId order })

/-- `_transition`, followed by the write of a reject reason that `reject` makes;
`fill` and `cancel` keep the one stored. -/
def transition (oms : OMS) (clientOrderId : String) (target : OrderStatus)
    (reason : Option String → Option String := id) : Except PyError Order × OMS :=
  match oms.get clientOrderId with
  | none => (.error .keyError, oms)
  | some order =>
    if order.status ≠ .new then
      (.error (.valueError s!"invalid transition: {order.status.text} -> {target.text}"), oms)
    else
      let order := order.moveTo target reason
      (.ok order, { oms with orders := oms.orders.set clientOrderId order })

/-- `fill`. -/
def fill (oms : OMS) (clientOrderId : String) : Except PyError Order × OMS :=
  oms.transition clientOrderId .filled

/-- `cancel`. -/
def cancel (oms : OMS) (clientOrderId : String) : Except PyError Order × OMS :=
  oms.transition clientOrderId .canceled

/-- `reject`. -/
def reject (oms : OMS) (clientOrderId reason : String) : Except PyError Order × OMS :=
  oms.transition clientOrderId .rejected fun _ => some reason

section Submit
variable (oms : OMS) (id symbol : String) (qty : ℚ)

/-- The order `submit` answers is the one stored under the id. -/
theorem get_submit_self : (oms.submit id symbol qty).2.get id = some (oms.submit id symbol qty).1 := by
  unfold submit
  split
  · rename_i order found
    exact found
  · exact Py.Dict.get?_set_self _ _ _

theorem get_submit_ne {other : String} (h : other ≠ id) :
    (oms.submit id symbol qty).2.get other = oms.get other := by
  unfold submit
  split
  · rfl
  · exact Py.Dict.get?_set_ne _ _ h

/-- A stored order survives `submit` untouched. -/
theorem get_submit_of_some {other : String} {order : Order} (h : oms.get other = some order) :
    (oms.submit id symbol qty).2.get other = some order := by
  by_cases same : other = id
  · subst same
    simp only [submit, h]
  · rw [get_submit_ne oms id symbol qty same, h]

/-- What `submit` leaves under every id. -/
theorem get_submit_eq (other : String) :
    (oms.submit id symbol qty).2.get other = if other = id then some (oms.submit id symbol qty).1 else oms.get other := by
  by_cases own : other = id
  · subst own
    rw [if_pos rfl, get_submit_self]
  · rw [if_neg own, get_submit_ne _ _ _ _ own]

theorem submit_of_some {order : Order} (h : oms.get id = some order) :
    oms.submit id symbol qty = (order, oms) := by
  simp only [submit, h]

/-- A fresh id is stored as a `NEW` order with the payload given. -/
theorem submit_of_none (h : oms.get id = none) :
    oms.submit id symbol qty =
      ({ clientOrderId := id, symbol, qty },
        { oms with orders := oms.orders.set id { clientOrderId := id, symbol, qty } }) := by
  simp only [submit, h]

end Submit

section Transition
variable {oms : OMS} {id : String} {target : OrderStatus} {reason : Option String → Option String}

theorem get_transition_ne {other : String} (h : other ≠ id) :
    (oms.transition id target reason).2.get other = oms.get other := by
  unfold transition
  split
  · rfl
  · split
    · rfl
    · exact Py.Dict.get?_set_ne _ _ h

/-- A transition keeps the payload of every stored order, and only a `NEW`
order can change its status. -/
theorem get_transition {other : String} {order : Order} (h : oms.get other = some order) :
    ∃ order', (oms.transition id target reason).2.get other = some order' ∧
      order'.symbol = order.symbol ∧ order'.qty = order.qty ∧
      (order'.status = order.status ∨ order.status = .new) := by
  by_cases same : other = id
  · subst same
    unfold transition
    simp only [h]
    split
    · exact ⟨order, h, rfl, rfl, .inl rfl⟩
    · rename_i isNew
      exact ⟨_, Py.Dict.get?_set_self _ _ _, rfl, rfl, .inr (not_not.mp isNew)⟩
  · exact ⟨order, by rw [get_transition_ne same, h], rfl, rfl, .inl rfl⟩

/-- A transition out of `NEW` succeeds and stores its target. -/
theorem transition_of_new {order : Order} (h : oms.get id = some order) (isNew : order.status = .new) :
    oms.transition id target reason =
      (.ok (order.moveTo target reason),
        { oms with orders := oms.orders.set id (order.moveTo target reason) }) := by
  simp only [transition, h, isNew, ne_eq, not_true_eq_false, if_false]

/-- What a transition leaves under every id. -/
theorem get_transition_eq (oms : OMS) (id : String) (target : OrderStatus) (reason : Option String → Option String)
    (other : String) :
    (oms.transition id target reason).2.get other =
      if other = id then (oms.get id).map (·.settle target reason) else oms.get other := by
  by_cases own : other = id
  · subst own
    rw [if_pos rfl]
    cases found : oms.get other with
    | none => simp only [transition, found, Option.map_none]
    | some order =>
      by_cases isNew : order.status = .new
      · rw [transition_of_new found isNew, Option.map_some, Order.settle, if_pos isNew]
        exact Py.Dict.get?_set_self _ _ _
      · simp only [transition, found, ne_eq, isNew, not_false_eq_true, if_true, Option.map_some, Order.settle, if_false]
  · rw [if_neg own, get_transition_ne own]

end Transition

end OMS

end CryptoQuant
