import CryptoQuant.Oms.Oms
import CryptoQuant.Monitoring.Alerts

/-!
# The user stream

`execution/user_stream.py`: execution reports of the exchange applied to an
order management system. A report for an id the system does not hold is ignored.
-/

namespace CryptoQuant
set_option autoImplicit false

/-- `ExecutionReport`. -/
structure ExecutionReport where
  clientOrderId : String
  orderStatus : String
  rejectReason : Option String := none

/-- `UserStreamProcessor`. -/
structure UserStreamProcessor where
  oms : OMS
  monitoring : Option Monitoring := none

namespace UserStreamProcessor

/-- `event.reject_reason or "exchange rejected"`. -/
def reasonOf (event : ExecutionReport) : String :=
  match event.rejectReason with
  | some reason => if reason = "" then "exchange rejected" else reason
  | none => "exchange rejected"

/-- A transition of the order management system and, if it succeeds, the record
of it in the monitoring. -/
def settle (p : UserStreamProcessor) (transition : Except PyError Order × OMS)
    (record : Monitoring → Monitoring) : Except PyError Unit × UserStreamProcessor :=
  match transition with
  | (.error e, oms) => (.error e, { p with oms })
  | (.ok _, oms) => (.ok (), { p with oms, monitoring := p.monitoring.map record })

/-- `on_execution_report`. -/
def onExecutionReport (p : UserStreamProcessor) (event : ExecutionReport) :
    Except PyError Unit × UserStreamProcessor :=
  match p.oms.get event.clientOrderId with
  | none => (.ok (), p)
  | some order =>
    let status := strUpper event.orderStatus
    if status ∈ ["NEW", "ACK", "PARTIALLY_FILLED"] then (.ok (), p)
    else if status = "FILLED" then
      if order.status = .filled then (.ok (), p)
      else p.settle (p.oms.fill event.clientOrderId) fun m => m.recordOrderFilled event.clientOrderId
    else if status ∈ ["CANCELED", "EXPIRED"] then
      if order.status = .canceled then (.ok (), p)
      else p.settle (p.oms.cancel event.clientOrderId) id
    else if status = "REJECTED" then
      if order.status = .rejected then (.ok (), p)
      else p.settle (p.oms.reject event.clientOrderId (reasonOf event)) fun m =>
        m.recordOrderRejected event.clientOrderId (reasonOf event)
    else (.ok (), p)

end UserStreamProcessor

end CryptoQuant
