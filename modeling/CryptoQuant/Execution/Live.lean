import CryptoQuant.Lib.Run
import CryptoQuant.Execution.BinanceGateway
import CryptoQuant.Execution.UserStream
import CryptoQuant.Risk.KillSwitch

/-!
# The live executor

`execution/live.py`, among the parties it shares objects with: the order
management system is also moved by a user stream and by other owners, the kill
switch is engaged and released by anybody. Every gateway call is logged with its
outcome; the gateway may behave differently at every call.
-/

namespace CryptoQuant.Live
set_option autoImplicit false

/-- `LiveOrderRequest`. -/
structure LiveOrderRequest where
  clientOrderId : String
  symbol : String
  qty : ℚ
deriving DecidableEq

/-- `OrderGateway.place_market_order`, as it behaves at one call: the symbol, the
quantity and the client order id are given. -/
abbrev OrderGateway := String → ℚ → String → Except PyError LiveOrderAck

/-- A call of `place_market_order` and its outcome. -/
structure GatewayCall where
  symbol : String
  qty : ℚ
  clientOrderId : String
  outcome : Except PyError LiveOrderAck

/-- `LiveExecutor`, with the log of its gateway calls. -/
structure LiveExecutor where
  oms : OMS
  killSwitch : Option KillSwitch := none
  acks : Py.Dict String LiveOrderAck := .empty
  calls : List GatewayCall := []

namespace LiveExecutor

/-- `kill_switch.assert_allows_execution()`, when there is a kill switch. -/
def assertAllowsExecution (ex : LiveExecutor) : Except PyError Unit :=
  match ex.killSwitch with
  | none => .ok ()
  | some ks => ks.assertAllowsExecution none none

/-- `execute_market`, from the gateway call on. -/
def send (ex : LiveExecutor) (req : LiveOrderRequest) (gateway : OrderGateway) :
    Except PyError LiveOrderAck × LiveExecutor :=
  let outcome := gateway req.symbol req.qty req.clientOrderId
  let ex := { ex with calls := ex.calls ++ [⟨req.symbol, req.qty, req.clientOrderId, outcome⟩] }
  match outcome with
  | .error e => (.error e, ex)
  | .ok ack => (.ok ack, { ex with acks := ex.acks.set req.clientOrderId ack })

/-- `execute_market`, from the submit to the order management system on. -/
def submitAndSend (ex : LiveExecutor) (req : LiveOrderRequest) (gateway : OrderGateway) :
    Except PyError LiveOrderAck × LiveExecutor :=
  let (order, oms) := ex.oms.submit req.clientOrderId req.symbol req.qty
  let ex := { ex with oms }
  if order.status ≠ .new then
    (.error (.valueError s!"cannot send live order in status={order.status.text}"), ex)
  else ex.send req gateway

/-- `execute_market`. -/
def executeMarket (ex : LiveExecutor) (req : LiveOrderRequest) (gateway : OrderGateway) :
    Except PyError LiveOrderAck × LiveExecutor :=
  if req.qty = 0 then (.error (.valueError "qty must be non-zero"), ex)
  else match ex.assertAllowsExecution with
  | .error e => (.error e, ex)
  | .ok () =>
  match ex.acks.get? req.clientOrderId with
  | some cached => (.ok cached, ex)
  | none => ex.submitAndSend req gateway

/-- `get_ack`. -/
def getAck (ex : LiveExecutor) (clientOrderId : String) : Option LiveOrderAck := ex.acks.get? clientOrderId

end LiveExecutor

/-- A live executor and a user stream over one order management system. -/
structure LiveSession where
  executor : LiveExecutor
  monitoring : Option Monitoring := none

namespace LiveSession

/-- The processor of the user stream: its order management system is the executor's. -/
def processor (s : LiveSession) : UserStreamProcessor := ⟨s.executor.oms, s.monitoring⟩

/-- The session once the processor has worked on the shared order management system. -/
def withProcessor (s : LiveSession) (p : UserStreamProcessor) : LiveSession where
  executor := { s.executor with oms := p.oms }
  monitoring := p.monitoring

/-- The session once somebody has worked on the order management system. -/
def withOms (s : LiveSession) (oms : OMS) : LiveSession := { s with executor := { s.executor with oms } }

/-- The session once the kill switch, if there is one, has been worked on. -/
def withSwitch (s : LiveSession) (f : KillSwitch → KillSwitch) : LiveSession :=
  { s with executor := { s.executor with killSwitch := s.executor.killSwitch.map f } }

end LiveSession

/-- What can happen in a session. -/
inductive Action
  | execute (req : LiveOrderRequest) (gateway : OrderGateway)
  | report (event : ExecutionReport)
  | submit (clientOrderId symbol : String) (qty : ℚ)
  | fill (clientOrderId : String)
  | cancel (clientOrderId : String)
  | reject (clientOrderId reason : String)
  | engage (reason : String) (scope : KillSwitchScope) (accountId strategyId : Option String)
  | release (scope : KillSwitchScope) (accountId strategyId : Option String)

/-- One action: the answer of an `execute_market` call, and the session after it. -/
def act (s : LiveSession) : Action → Option (Except PyError LiveOrderAck) × LiveSession
  | .execute req gateway =>
    let (answer, executor) := s.executor.executeMarket req gateway
    (some answer, { s with executor })
  | .report event => (none, s.withProcessor (s.processor.onExecutionReport event).2)
  | .submit clientOrderId symbol qty => (none, s.withOms (s.executor.oms.submit clientOrderId symbol qty).2)
  | .fill clientOrderId => (none, s.withOms (s.executor.oms.fill clientOrderId).2)
  | .cancel clientOrderId => (none, s.withOms (s.executor.oms.cancel clientOrderId).2)
  | .reject clientOrderId reason => (none, s.withOms (s.executor.oms.reject clientOrderId reason).2)
  | .engage reason scope accountId strategyId =>
    (none, s.withSwitch fun ks => (ks.engage reason scope accountId strategyId).2)
  | .release scope accountId strategyId => (none, s.withSwitch fun ks => (ks.release scope accountId strategyId).2)

/-- The session among its surroundings. -/
def machine : Run.Machine LiveSession Action (Option (Except PyError LiveOrderAck)) := ⟨act⟩

/-! ## What one request can do -/

/-- The gateway call of a request. -/
def callOf (req : LiveOrderRequest) (gateway : OrderGateway) : GatewayCall :=
  ⟨req.symbol, req.qty, req.clientOrderId, gateway req.symbol req.qty req.clientOrderId⟩

namespace LiveExecutor

/-- The request passes every gate before its order is submitted. -/
structure Passes (ex : LiveExecutor) (req : LiveOrderRequest) : Prop where
  qty : req.qty ≠ 0
  allowed : ex.assertAllowsExecution = .ok ()
  unacked : ex.acks.get? req.clientOrderId = none
  new : ∀ order, ex.oms.get req.clientOrderId = some order → order.status = .new

/-- The executor once the request has been submitted and sent. -/
def sent (ex : LiveExecutor) (req : LiveOrderRequest) (gateway : OrderGateway) : LiveExecutor :=
  { ex with
    oms := (ex.oms.submit req.clientOrderId req.symbol req.qty).2
    calls := ex.calls ++ [callOf req gateway] }

/-- **What `execute_market` can do**: it changes something only by sending, and
then every gate was open. -/
inductive Executed (ex : LiveExecutor) (req : LiveOrderRequest) (gateway : OrderGateway) :
    Except PyError LiveOrderAck × LiveExecutor → Prop
  | zero (e : PyError) (zero : req.qty = 0) : Executed ex req gateway (.error e, ex)
  | halted (e : PyError) (qty : req.qty ≠ 0) (halted : ex.assertAllowsExecution = .error e) :
      Executed ex req gateway (.error e, ex)
  | repeated (ack : LiveOrderAck) (qty : req.qty ≠ 0) (allowed : ex.assertAllowsExecution = .ok ())
      (found : ex.acks.get? req.clientOrderId = some ack) : Executed ex req gateway (.ok ack, ex)
  | closed (e : PyError) (order : Order) (qty : req.qty ≠ 0) (allowed : ex.assertAllowsExecution = .ok ())
      (unacked : ex.acks.get? req.clientOrderId = none) (found : ex.oms.get req.clientOrderId = some order)
      (moved : order.status ≠ .new) : Executed ex req gateway (.error e, ex)
  | failed (e : PyError) (passes : Passes ex req)
      (raised : gateway req.symbol req.qty req.clientOrderId = .error e) :
      Executed ex req gateway (.error e, ex.sent req gateway)
  | acked (ack : LiveOrderAck) (passes : Passes ex req)
      (accepted : gateway req.symbol req.qty req.clientOrderId = .ok ack) :
      Executed ex req gateway
        (.ok ack, { ex.sent req gateway with acks := ex.acks.set req.clientOrderId ack })

theorem executeMarket_executed (ex : LiveExecutor) (req : LiveOrderRequest) (gateway : OrderGateway) :
    Executed ex req gateway (ex.executeMarket req gateway) := by
  unfold executeMarket
  by_cases zero : req.qty = 0
  · rw [if_pos zero]
    exact .zero _ zero
  rw [if_neg zero]
  cases allowed : ex.assertAllowsExecution with
  | error e => exact .halted e zero allowed
  | ok passed =>
    cases unacked : ex.acks.get? req.clientOrderId with
    | some ack => exact .repeated ack zero allowed unacked
    | none =>
      simp only
      unfold submitAndSend
      simp only
      by_cases moved : (ex.oms.submit req.clientOrderId req.symbol req.qty).1.status ≠ .new
      · rw [if_pos moved]
        -- only an order stored before can have left `NEW`, and `submit` leaves it as it is
        cases found : ex.oms.get req.clientOrderId with
        | some order =>
          rw [OMS.submit_of_some _ _ _ _ found] at moved ⊢
          exact .closed _ order zero allowed unacked found moved
        | none =>
          rw [OMS.submit_of_none _ _ _ _ found] at moved
          exact absurd rfl moved
      · rw [if_neg moved]
        have passes : Passes ex req := ⟨zero, allowed, unacked, fun order found => by
          rw [OMS.submit_of_some _ _ _ _ found] at moved
          exact not_not.mp moved⟩
        unfold send
        cases outcome : gateway req.symbol req.qty req.clientOrderId with
        | error e =>
          have sent := Executed.failed e passes outcome
          rw [LiveExecutor.sent, callOf, outcome] at sent
          exact sent
        | ok ack =>
          have sent := Executed.acked ack passes outcome
          rw [LiveExecutor.sent, callOf, outcome] at sent
          exact sent

/-- The gate of the kill switch is its global level: a block of an account or of
a strategy does not stop the executor. -/
theorem assertAllowsExecution_iff (ex : LiveExecutor) :
    ex.assertAllowsExecution = .ok () ↔ ∀ ks, ex.killSwitch = some ks → ks.globalReason = none := by
  unfold assertAllowsExecution
  cases ex.killSwitch with
  | none => simp
  | some ks =>
    simp only [Option.some.injEq, forall_eq']
    unfold KillSwitch.assertAllowsExecution
    rw [KillSwitch.resolveBlock_global]
    cases ks.globalReason <;> simp

end LiveExecutor

end CryptoQuant.Live
