import CryptoQuant.Lib.Run
import CryptoQuant.Compliance.Audit
import CryptoQuant.Compliance.Rules
import CryptoQuant.Execution.BinanceGateway
import CryptoQuant.Execution.UserStream
import CryptoQuant.Risk.KillSwitch
import Mathlib.Logic.Function.Basic

/-!
# The multi-account live executor

`execution/multi_account.py`. The order management systems are objects the
executor shares with others, so it holds references into a heap of them, and two
accounts may share one. A run interleaves `execute_market` with whatever the
owners of the kill switch, of the order management systems and of a user stream
do. Every gateway call is logged with its outcome.
-/

namespace CryptoQuant.MultiAccount
set_option autoImplicit false

/-- A reference to an order management system. -/
abbrev OmsRef := ℕ

/-- `MultiAccountOrderRequest`. -/
structure MultiAccountOrderRequest where
  accountId : String
  clientOrderId : String
  symbol : String
  qty : ℚ
deriving DecidableEq

namespace MultiAccountOrderRequest

/-- `cache_key`. -/
def cacheKey (req : MultiAccountOrderRequest) : String × String := (req.accountId, req.clientOrderId)

/-- `req_fingerprint`. -/
def fingerprint (req : MultiAccountOrderRequest) : String × ℚ := (req.symbol, req.qty)

end MultiAccountOrderRequest

/-- The id an order of an account has in its order management system. -/
def scopedId (accountId clientOrderId : String) : String := s!"{accountId}:{clientOrderId}"

/-- `scoped_client_order_id`. -/
def MultiAccountOrderRequest.scopedClientOrderId (req : MultiAccountOrderRequest) : String :=
  scopedId req.accountId req.clientOrderId

/-- A call of the gateway's `place_market_order` and its outcome. -/
structure GatewayCall where
  accountId : String
  symbol : String
  qty : ℚ
  clientOrderId : String
  outcome : Except PyError LiveOrderAck

/-- The account and the id the call was made for. -/
def GatewayCall.key (call : GatewayCall) : String × String := (call.accountId, call.clientOrderId)

/-- `MultiAccountLiveExecutor`, with the objects it shares and the log of its
gateway calls. -/
structure MultiAccountLiveExecutor where
  omsByAccount : Py.Dict String OmsRef
  gateway : MultiAccountBinanceGateway
  killSwitch : Option KillSwitch := none
  complianceChecker : Option OrderComplianceChecker := none
  auditTrail : Option AuditTrail := none
  acks : Py.Dict (String × String) LiveOrderAck := .empty
  requestFingerprintByKey : Py.Dict (String × String) (String × ℚ) := .empty
  heap : OmsRef → OMS
  calls : List GatewayCall := []

/-- The executor right after its construction. -/
structure MultiAccountLiveExecutor.Fresh (ex : MultiAccountLiveExecutor) : Prop where
  acks : ex.acks = .empty
  fingerprints : ex.requestFingerprintByKey = .empty
  calls : ex.calls = []

namespace MultiAccountLiveExecutor

/-- `_audit`. -/
def audit (ex : MultiAccountLiveExecutor) (eventType : String) (payload : List (String × Value)) :
    MultiAccountLiveExecutor :=
  { ex with auditTrail := ex.auditTrail.map fun trail =>
      (trail.append eventType "multi_account_live_executor" (.mapping payload)).2 }

/-- The payload fields that name the order of a request. -/
def orderFields (req : MultiAccountOrderRequest) : List (String × Value) :=
  [("account_id", .text req.accountId), ("client_order_id", .text req.clientOrderId),
    ("symbol", .text req.symbol), ("qty", .float (.finite req.qty))]

/-- `kill_switch.assert_allows_execution(account_id=...)`, when there is a kill switch. -/
def assertAllowsExecution (ex : MultiAccountLiveExecutor) (accountId : String) : Except PyError Unit :=
  match ex.killSwitch with
  | none => .ok ()
  | some ks => ks.assertAllowsExecution (some accountId) none

/-- The decision of the compliance checker, when there is one. -/
def checkOrder (ex : MultiAccountLiveExecutor) (req : MultiAccountOrderRequest) : ComplianceDecision :=
  match ex.complianceChecker with
  | none => { allowed := true }
  | some checker => checker req.accountId req.symbol req.qty

/-- `execute_market`, from the gateway call on. -/
def send (ex : MultiAccountLiveExecutor) (req : MultiAccountOrderRequest) (exchange : Exchange) :
    Except PyError LiveOrderAck × MultiAccountLiveExecutor :=
  let outcome := ex.gateway.placeMarketOrder exchange req.accountId req.symbol req.qty req.clientOrderId
  let ex := { ex with calls := ex.calls ++ [⟨req.accountId, req.symbol, req.qty, req.clientOrderId, outcome⟩] }
  match outcome with
  | .error e => (.error e, ex)
  | .ok ack =>
    let ex := { ex with acks := ex.acks.set req.cacheKey ack,
                        requestFingerprintByKey := ex.requestFingerprintByKey.set req.cacheKey req.fingerprint }
    (.ok ack, ex.audit "execution.order_acknowledged"
      [("account_id", .text req.accountId), ("client_order_id", .text req.clientOrderId),
        ("exchange_order_id", .text ack.exchangeOrderId), ("accepted_at", .text ack.acceptedAt.isoformat)])

/-- `execute_market`, from the submit to the order management system on. -/
def submitAndSend (ex : MultiAccountLiveExecutor) (req : MultiAccountOrderRequest) (exchange : Exchange)
    (ref : OmsRef) : Except PyError LiveOrderAck × MultiAccountLiveExecutor :=
  let (order, oms) := (ex.heap ref).submit req.scopedClientOrderId req.symbol req.qty
  let ex := { ex with heap := Function.update ex.heap ref oms }
  if order.status ≠ .new then
    (.error (.valueError s!"cannot send live order in status={order.status.text}"), ex)
  else (ex.audit "execution.order_submitted" (orderFields req)).send req exchange

/-- `execute_market`, for a request without an ack. -/
def executeFresh (ex : MultiAccountLiveExecutor) (req : MultiAccountOrderRequest) (exchange : Exchange) :
    Except PyError LiveOrderAck × MultiAccountLiveExecutor :=
  let decision := ex.checkOrder req
  if decision.allowed = false then
    (.error (.valueError ("compliance violation: " ++ "; ".intercalate decision.reasons)),
      ex.audit "compliance.order_blocked"
        (orderFields req ++ [("reasons", .list (decision.reasons.map Value.text))]))
  else
    match ex.omsByAccount.get? req.accountId with
    | none => (.error (.valueError s!"unknown account_id={req.accountId}"), ex)
    | some ref => ex.submitAndSend req exchange ref

/-- `execute_market`. -/
def executeMarket (ex : MultiAccountLiveExecutor) (req : MultiAccountOrderRequest) (exchange : Exchange) :
    Except PyError LiveOrderAck × MultiAccountLiveExecutor :=
  if req.qty = 0 then (.error (.valueError "qty must be non-zero"), ex)
  else match ex.assertAllowsExecution req.accountId with
  | .error e => (.error e, ex)
  | .ok () =>
  match ex.acks.get? req.cacheKey with
  | none => ex.executeFresh req exchange
  | some cached =>
    if ex.requestFingerprintByKey.get? req.cacheKey ≠ some req.fingerprint then
      (.error (.valueError "conflicting payload for existing account_id + client_order_id"), ex)
    else (.ok cached, ex.audit "execution.idempotent_return" (orderFields req))

/-- `get_ack`. -/
def getAck (ex : MultiAccountLiveExecutor) (accountId clientOrderId : String) : Option LiveOrderAck :=
  ex.acks.get? (accountId, clientOrderId)

end MultiAccountLiveExecutor

/-- What can happen in a run. -/
inductive Action
  | execute (req : MultiAccountOrderRequest) (exchange : Exchange)
  | engage (reason : String) (scope : KillSwitchScope) (accountId strategyId : Option String)
  | release (scope : KillSwitchScope) (accountId strategyId : Option String)
  | transition (ref : OmsRef) (clientOrderId : String) (target : OrderStatus)
      (reason : Option String → Option String)
  | report (ref : OmsRef) (event : ExecutionReport)

open MultiAccountLiveExecutor in
/-- One action: the answer of an `execute_market` call, and the state after it.
A kill-switch call reaches the switch of the executor, if it has one; a
transition of an order is `fill`, `cancel` or `reject` by its target. -/
def act (ex : MultiAccountLiveExecutor) : Action → Option (Except PyError LiveOrderAck) × MultiAccountLiveExecutor
  | .execute req exchange =>
    let (answer, ex) := ex.executeMarket req exchange
    (some answer, ex)
  | .engage reason scope accountId strategyId =>
    (none, { ex with killSwitch := ex.killSwitch.map fun ks => (ks.engage reason scope accountId strategyId).2 })
  | .release scope accountId strategyId =>
    (none, { ex with killSwitch := ex.killSwitch.map fun ks => (ks.release scope accountId strategyId).2 })
  | .transition ref clientOrderId target reason =>
    let oms := ((ex.heap ref).transition clientOrderId target reason).2
    (none, { ex with heap := Function.update ex.heap ref oms })
  | .report ref event =>
    let oms := (UserStreamProcessor.onExecutionReport ⟨ex.heap ref, none⟩ event).2.oms
    (none, { ex with heap := Function.update ex.heap ref oms })

/-- The executor among its surroundings. -/
def machine : Run.Machine MultiAccountLiveExecutor Action (Option (Except PyError LiveOrderAck)) := ⟨act⟩

end CryptoQuant.MultiAccount
