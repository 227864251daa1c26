import CryptoQuant.Basic

/-!
# Order monitoring

`monitoring/alerts.py`: counters of filled and rejected orders, and the alerts
emitted for them.
-/

namespace CryptoQuant
set_option autoImplicit false

/-- `AlertLevel`. -/
inductive AlertLevel
  | info | warn | error
deriving DecidableEq, Repr

/-- `Alert`. -/
structure Alert where
  level : AlertLevel
  code : String
  message : String
deriving DecidableEq, Repr

/-- `Monitoring`. The sink is the list of the alerts it has received. -/
structure Monitoring where
  sink : List Alert := []
  rejectWarnThreshold : ℤ := 3
  orders : ℕ := 0
  rejects : ℕ := 0

namespace Monitoring

/-- `record_order_filled`. -/
def recordOrderFilled (m : Monitoring) (clientOrderId : String) : Monitoring :=
  { m with orders := m.orders + 1,
           sink := m.sink ++ [⟨.info, "order.filled", s!"order filled: {clientOrderId}"⟩] }

/-- `record_order_rejected`. -/
def recordOrderRejected (m : Monitoring) (clientOrderId reason : String) : Monitoring :=
  let rejects := m.rejects + 1
  let level := if m.rejectWarnThreshold ≤ rejects then AlertLevel.warn else AlertLevel.info
  { m with rejects,
           sink := m.sink ++ [⟨level, "order.rejected", s!"order rejected: {clientOrderId} ({reason})"⟩] }

end Monitoring

end CryptoQuant
