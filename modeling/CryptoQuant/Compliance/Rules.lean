import CryptoQuant.Basic

/-!
# Compliance rules

`compliance/rules.py`: the decision a checker makes about an order, and the
rule-based checker. How a quantity is printed in a reason is a parameter.
-/

namespace CryptoQuant
set_option autoImplicit false

/-- `ComplianceDecision`. -/
structure ComplianceDecision where
  allowed : Bool
  reasons : List String := []
deriving DecidableEq

/-- `OrderComplianceChecker`: `check_order` of an account, a symbol and a quantity. -/
abbrev OrderComplianceChecker := String → String → ℚ → ComplianceDecision

/-- `ComplianceRuleSet`. -/
structure ComplianceRuleSet where
  blockedSymbols : List String := []
  allowedAccounts : List String := []
  maxAbsQty : Option ℚ := none

/-- `check_order` of `RuleBasedComplianceChecker`. -/
def ComplianceRuleSet.checkOrder (rules : ComplianceRuleSet) (showQty : ℚ → String) :
    OrderComplianceChecker := fun accountId symbol qty =>
  let reasons :=
    (if accountId = "" then ["account_id must not be empty"] else []) ++
    (if symbol ∈ rules.blockedSymbols then [s!"symbol {symbol} is blocked"] else []) ++
    (if rules.allowedAccounts ≠ [] ∧ accountId ∉ rules.allowedAccounts then
      [s!"account_id {accountId} is not in allowlist"] else []) ++
    (match rules.maxAbsQty with
      | some limit => if limit < |qty| then
          [s!"abs(qty) exceeds max_abs_qty: abs(qty)={showQty |qty|} > {showQty limit}"] else []
      | none => [])
  { allowed := reasons.isEmpty, reasons }

end CryptoQuant
