import CryptoQuant.Lib.Ledger
import CryptoQuant.Oms.Oms
import CryptoQuant.Risk.KillSwitch

/-!
# The paper executor

`execution/paper.py`: market orders against a mark price with slippage and a
fee, idempotent in the client order id.
-/

namespace CryptoQuant
set_option autoImplicit false

/-- `Fill`. -/
structure Fill where
  clientOrderId : String
  symbol : String
  qty : ℚ
  requestedPrice : ℚ
  fillPrice : ℚ
  slippageCost : ℚ
  fee : ℚ
  notional : ℚ
  ts : DateTime
deriving DecidableEq

/-- A fill as a trade of the cash ledger. -/
def Fill.trade (f : Fill) : Ledger.Trade String ℚ := ⟨f.symbol, f.qty, f.fillPrice, f.fee⟩

/-- `PaperExecutor`. -/
structure PaperExecutor where
  oms : OMS
  killSwitch : Option KillSwitch
  feeRate : ℚ
  slippageRate : ℚ
  fills : Py.Dict String Fill
  positionQty : Py.Dict String ℚ

/-- The arguments of one `execute_market` call. -/
structure MarketOrder where
  clientOrderId : String
  symbol : String
  qty : ℚ
  markPrice : ℚ
  ts : DateTime
  reduceOnly : Bool := false

namespace PaperExecutor

/-- `PaperExecutor(oms, fee_bps, slippage_bps, kill_switch)`. -/
def new (oms : OMS) (feeBps slippageBps : ℚ) (killSwitch : Option KillSwitch := none) :
    Except PyError PaperExecutor :=
  if feeBps < 0 ∨ slippageBps < 0 then
    .error (.valueError "fee/slippage bps must be non-negative")
  else
    .ok { oms, killSwitch, feeRate := feeBps / 10000, slippageRate := slippageBps / 10000,
          fills := .empty, positionQty := .empty }

/-- `position_qty`. -/
def position (ex : PaperExecutor) (symbol : String) : ℚ := ex.positionQty.getD symbol 0

/-- The price a quantity is filled at: the mark price moved against it. -/
def fillPrice (ex : PaperExecutor) (qty markPrice : ℚ) : ℚ :=
  markPrice * (1 + (if 0 < qty then 1 else -1) * ex.slippageRate)

/-- The fill of an order that is executed. -/
def fillOf (ex : PaperExecutor) (o : MarketOrder) : Fill where
  clientOrderId := o.clientOrderId
  symbol := o.symbol
  qty := o.qty
  requestedPrice := o.markPrice
  fillPrice := ex.fillPrice o.qty o.markPrice
  slippageCost := |o.qty| * |ex.fillPrice o.qty o.markPrice - o.markPrice|
  fee := |o.qty| * ex.fillPrice o.qty o.markPrice * ex.feeRate
  notional := |o.qty| * ex.fillPrice o.qty o.markPrice
  ts := o.ts

/-- The reduce-only checks. -/
def checkReduceOnly (ex : PaperExecutor) (o : MarketOrder) : Except PyError Unit :=
  let currentQty := ex.position o.symbol
  if o.reduceOnly then
    if currentQty = 0 ∨ 0 ≤ currentQty * o.qty then
      .error (.valueError "reduce-only order must reduce an existing position")
    else if |currentQty| < |o.qty| then
      .error (.valueError "reduce-only order cannot exceed current position size")
    else .ok ()
  else .ok ()

/-- `kill_switch.assert_allows_execution()`, when there is a kill switch. -/
def assertAllowsExecution (ex : PaperExecutor) : Except PyError Unit :=
  match ex.killSwitch with
  | none => .ok ()
  | some ks => ks.assertAllowsExecution none none

/-- `execute_market`, from the submit to the order management system on. -/
def submitAndFill (ex : PaperExecutor) (o : MarketOrder) : Except PyError Fill × PaperExecutor :=
  let (order, oms) := ex.oms.submit o.clientOrderId o.symbol o.qty
  let ex := { ex with oms }
  match order.status with
  | .filled => (getItem ex.fills o.clientOrderId, ex)
  | .canceled | .rejected =>
    (.error (.valueError s!"cannot execute order in status={order.status.text}"), ex)
  | .new =>
    let fill := ex.fillOf o
    let ex := { ex with fills := ex.fills.set o.clientOrderId fill,
                        positionQty := ex.positionQty.set o.symbol (ex.position o.symbol + o.qty) }
    match ex.oms.fill o.clientOrderId with
    | (.error e, oms) => (.error e, { ex with oms })
    | (.ok _, oms) => (.ok fill, { ex with oms })

/-- `execute_market`. -/
def executeMarket (ex : PaperExecutor) (o : MarketOrder) : Except PyError Fill × PaperExecutor :=
  if o.qty = 0 then (.error (.valueError "qty must be non-zero"), ex)
  else if o.markPrice ≤ 0 then (.error (.valueError "mark_price must be positive"), ex)
  else match ex.assertAllowsExecution with
  | .error e => (.error e, ex)
  | .ok () =>
  match ex.fills.get? o.clientOrderId with
  | some existing => (.ok existing, ex)
  | none =>
  match ex.checkReduceOnly o with
  | .error e => (.error e, ex)
  | .ok () => ex.submitAndFill o

/-- `execute_to_target`. -/
def executeToTarget (ex : PaperExecutor) (clientOrderIdPrefix symbol : String)
    (currentQty targetQty markPrice : ℚ) (ts : DateTime) : Except PyError (List Fill) × PaperExecutor :=
  if currentQty = targetQty then (.ok [], ex)
  else if currentQty = 0 ∨ targetQty = 0 ∨ 0 < currentQty * targetQty then
    match ex.executeMarket
      { clientOrderId := s!"{clientOrderIdPrefix}-single", symbol, qty := targetQty - currentQty, markPrice, ts } with
    | (.error e, ex) => (.error e, ex)
    | (.ok fill, ex) => (.ok [fill], ex)
  else
    let tracked := ex.positionQty.get? symbol
    let reduceOnly := decide (tracked ≠ none ∧ tracked ≠ some 0)
    match ex.executeMarket
      { clientOrderId := s!"{clientOrderIdPrefix}-close", symbol, qty := -currentQty, markPrice, ts, reduceOnly } with
    | (.error e, ex) => (.error e, ex)
    | (.ok closeFill, ex) =>
      match ex.executeMarket
        { clientOrderId := s!"{clientOrderIdPrefix}-open", symbol, qty := targetQty, markPrice, ts } with
      | (.error e, ex) => (.error e, ex)
      | (.ok openFill, ex) => (.ok [closeFill, openFill], ex)

end PaperExecutor

end CryptoQuant
