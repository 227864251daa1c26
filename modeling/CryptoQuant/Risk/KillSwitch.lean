import CryptoQuant.Basic

/-!
# The layered kill switch

`risk/kill_switch.py`: blocks at global, account and strategy scope, resolved
in that order.
-/

namespace CryptoQuant
set_option autoImplicit false

/-- `KillSwitchScope`. -/
inductive KillSwitchScope
  | global | account | strategy
deriving DecidableEq, Repr

/-- `scope.value`. -/
def KillSwitchScope.value : KillSwitchScope → String
  | .global => "global"
  | .account => "account"
  | .strategy => "strategy"

/-- `KillSwitchBlock`. -/
structure KillSwitchBlock where
  scope : KillSwitchScope
  reason : String
deriving DecidableEq, Repr

/-- `KillSwitch`. -/
structure KillSwitch where
  globalReason : Option String
  accountReasons : Py.Dict String String
  strategyReasons : Py.Dict (Option String × String) String

namespace KillSwitch

/-- `KillSwitch()`. -/
def init : KillSwitch := ⟨none, .empty, .empty⟩

/-- `engage`. -/
def engage (ks : KillSwitch) (reason : String) (scope : KillSwitchScope)
    (accountId strategyId : Option String) : Except PyError Unit × KillSwitch :=
  match scope with
  | .global => (.ok (), { ks with globalReason := some reason })
  | .account =>
    match accountId with
    | none => (.error (.valueError "account_id is required for account kill switch"), ks)
    | some account => (.ok (), { ks with accountReasons := ks.accountReasons.set account reason })
  | .strategy =>
    match strategyId with
    | none => (.error (.valueError "strategy_id is required for strategy kill switch"), ks)
    | some strategy =>
      (.ok (), { ks with strategyReasons := ks.strategyReasons.set (accountId, strategy) reason })

/-- `release`. -/
def release (ks : KillSwitch) (scope : KillSwitchScope) (accountId strategyId : Option String) :
    Except PyError Unit × KillSwitch :=
  match scope with
  | .global => (.ok (), { ks with globalReason := none })
  | .account =>
    match accountId with
    | none => (.error (.valueError "account_id is required for account kill switch"), ks)
    | some account => (.ok (), { ks with accountReasons := ks.accountReasons.erase account })
  | .strategy =>
    match strategyId with
    | none => (.error (.valueError "strategy_id is required for strategy kill switch"), ks)
    | some strategy =>
      (.ok (), { ks with strategyReasons := ks.strategyReasons.erase (accountId, strategy) })

/-- The strategy-level part of `resolve_block`. -/
def resolveStrategy (ks : KillSwitch) (accountId : Option String) (strategy : String) :
    Option KillSwitchBlock :=
  let own := accountId.bind fun account => ks.strategyReasons.get? (some account, strategy)
  (own <|> ks.strategyReasons.get? (none, strategy)).map (⟨.strategy, ·⟩)

/-- `resolve_block`. -/
def resolveBlock (ks : KillSwitch) (accountId strategyId : Option String) : Option KillSwitchBlock :=
  match ks.globalReason with
  | some reason => some ⟨.global, reason⟩
  | none =>
    match accountId.bind ks.accountReasons.get? with
    | some reason => some ⟨.account, reason⟩
    | none => strategyId.bind (ks.resolveStrategy accountId)

/-- `active`. -/
def active (ks : KillSwitch) : Bool :=
  ks.globalReason.isSome || !ks.accountReasons.items.isEmpty || !ks.strategyReasons.items.isEmpty

/-- `reason`. -/
def reason (ks : KillSwitch) : Option String := (ks.resolveBlock none none).map KillSwitchBlock.reason

/-- `assert_allows_execution`. -/
def assertAllowsExecution (ks : KillSwitch) (accountId strategyId : Option String) :
    Except PyError Unit :=
  match ks.resolveBlock accountId strategyId with
  | none => .ok ()
  | some block => .error (.runtimeError s!"kill switch active[{block.scope.value}]: {block.reason}")

/-- Only a call at global scope touches the global level. -/
theorem engage_globalReason (ks : KillSwitch) (reason : String) (scope : KillSwitchScope)
    (accountId strategyId : Option String) :
    (ks.engage reason scope accountId strategyId).2.globalReason =
      if scope = .global then some reason else ks.globalReason := by
  cases scope with
  | global => rfl
  | account => cases accountId <;> rfl
  | strategy => cases strategyId <;> rfl

theorem release_globalReason (ks : KillSwitch) (scope : KillSwitchScope) (accountId strategyId : Option String) :
    (ks.release scope accountId strategyId).2.globalReason = if scope = .global then none else ks.globalReason := by
  cases scope with
  | global => rfl
  | account => cases accountId <;> rfl
  | strategy => cases strategyId <;> rfl

/-- Without an account and a strategy only the global level is looked at. -/
theorem resolveBlock_global (ks : KillSwitch) :
    ks.resolveBlock none none = ks.globalReason.map fun reason => ⟨.global, reason⟩ := by
  unfold resolveBlock
  cases ks.globalReason <;> rfl

/-- A call without an account is stopped exactly by a global block. -/
theorem assertAllowsExecution_global (ks : KillSwitch) :
    (∃ e, ks.assertAllowsExecution none none = .error e) ↔ ks.globalReason ≠ none := by
  unfold assertAllowsExecution
  rw [resolveBlock_global]
  cases ks.globalReason <;> simp

/-- An order of an account passes exactly when neither the global level nor
that account is blocked. -/
theorem assertAllowsExecution_account (ks : KillSwitch) (account : String) :
    ks.assertAllowsExecution (some account) none = .ok () ↔
      ks.globalReason = none ∧ ks.accountReasons.get? account = none := by
  unfold assertAllowsExecution resolveBlock
  cases ks.globalReason with
  | some reason => simp
  | none => cases h : ks.accountReasons.get? account <;> simp [h]

end KillSwitch

end CryptoQuant
