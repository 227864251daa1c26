import CryptoQuant.Basic

/-!
# The Binance order gateway

`execution/binance_gateway.py` and `LiveOrderAck` of `execution/live.py`. The
exchange is a parameter of each call: it receives the parameters of the order
and replies or raises.
-/

namespace CryptoQuant
set_option autoImplicit false

/-- `LiveOrderAck`. -/
structure LiveOrderAck where
  clientOrderId : String
  exchangeOrderId : String
  acceptedAt : DateTime
deriving DecidableEq, Repr

/-- `BinanceGatewayConfig`. -/
structure BinanceGatewayConfig where
  apiKey : String
  apiSecret : String
  baseUrl : String := "https://fapi.binance.com"
  recvWindowMs : ℤ := 5000

/-- `params`. -/
structure OrderParams where
  symbol : String
  side : String
  type : String := "MARKET"
  quantity : ℚ
  newClientOrderId : String
  recvWindow : ℤ
  timestamp : ℤ

/-- The reply of the exchange: `str(payload.get("orderId", ""))` and its time fields. -/
structure ExchangePayload where
  orderId : String
  updateTime : Option ℤ := none
  transactTime : Option ℤ := none

/-- The outside of one gateway call: the signed post of the parameters with the
credentials of a configuration, and the readings of the clock in order. -/
structure Exchange where
  post : BinanceGatewayConfig → OrderParams → Except PyError ExchangePayload
  timestampMs : ℕ → ℤ

/-- `x or y`, for an optional number. -/
def orElse (x : Option ℤ) (y : ℤ) : ℤ :=
  match x with
  | some n => if n = 0 then y else n
  | none => y

/-- `place_market_order` of `BinanceFuturesOrderGateway`. -/
def BinanceGatewayConfig.placeMarketOrder (config : BinanceGatewayConfig) (exchange : Exchange)
    (symbol : String) (qty : ℚ) (clientOrderId : String) : Except PyError LiveOrderAck := do
  raiseIf (qty = 0) (.valueError "qty must be non-zero")
  let params : OrderParams :=
    { symbol, side := if 0 < qty then "BUY" else "SELL", quantity := |qty|,
      newClientOrderId := clientOrderId, recvWindow := config.recvWindowMs,
      timestamp := exchange.timestampMs 0 }
  let payload ← exchange.post config params
  raiseIf (payload.orderId = "") (.valueError "missing orderId from Binance response")
  let tsMs := orElse payload.updateTime (orElse payload.transactTime (exchange.timestampMs 1))
  pure { clientOrderId, exchangeOrderId := payload.orderId, acceptedAt := tsMs * 1000 }

/-- `MultiAccountBinanceGateway`. -/
structure MultiAccountBinanceGateway where
  accounts : Py.Dict String BinanceGatewayConfig

/-- `place_market_order` of `MultiAccountBinanceGateway`. -/
def MultiAccountBinanceGateway.placeMarketOrder (gateway : MultiAccountBinanceGateway) (exchange : Exchange)
    (accountId symbol : String) (qty : ℚ) (clientOrderId : String) : Except PyError LiveOrderAck :=
  match gateway.accounts.get? accountId with
  | none => .error (.valueError s!"unknown account_id={accountId}")
  | some config => config.placeMarketOrder exchange symbol qty clientOrderId

end CryptoQuant
