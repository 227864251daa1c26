import CryptoQuant.Risk.KillSwitch
import CryptoQuant.Lib.Run

/-!
# The history of a kill switch

A kill switch has a level for all orders, one for each account, and one for each strategy
of an account or of any. What blocks an order after any calls is the first of the levels
that concern it whose last call engaged it.
-/

namespace CryptoQuant.KillSwitch
set_option autoImplicit false

/-- A call of `engage` or `release`. -/
inductive SwitchCall
  | engage (reason : String) (scope : KillSwitchScope) (accountId strategyId : Option String)
  | release (scope : KillSwitchScope) (accountId strategyId : Option String)

/-- The switch, call by call. -/
def machine : Run.Machine KillSwitch SwitchCall (Except PyError Unit) where
  call ks
    | .engage reason scope accountId strategyId => ks.engage reason scope accountId strategyId
    | .release scope accountId strategyId => ks.release scope accountId strategyId

/-- What can be blocked. -/
inductive Level
  | global
  | account (accountId : String)
  | strategy (accountId : Option String) (strategyId : String)
deriving DecidableEq

def Level.scope : Level → KillSwitchScope
  | .global => .global
  | .account _ => .account
  | .strategy .. => .strategy

/-- The level that the arguments of a call name, if they name one. -/
def Level.named (scope : KillSwitchScope) (accountId strategyId : Option String) : Option Level :=
  match scope with
  | .global => some .global
  | .account => accountId.map .account
  | .strategy => strategyId.map (.strategy accountId)

/-- The levels that concern an order, in the order in which they are looked at. -/
def Level.concerning (accountId strategyId : Option String) : List Level :=
  .global :: (accountId.map .account).toList ++
    ((accountId.bind fun account => strategyId.map (.strategy (some account))).toList ++
      (strategyId.map (.strategy none)).toList)

/-- The reason for which the level is blocked. -/
def reasonAt (ks : KillSwitch) : Level → Option String
  | .global => ks.globalReason
  | .account accountId => ks.accountReasons.get? accountId
  | .strategy accountId strategyId => ks.strategyReasons.get? (accountId, strategyId)

/-- What a call makes of the level, if it is about it. -/
def SwitchCall.sets (level : Level) : SwitchCall → Option (Option String)
  | .engage reason scope accountId strategyId =>
    if Level.named scope accountId strategyId = some level then some (some reason) else none
  | .release scope accountId strategyId => if Level.named scope accountId strategyId = some level then some none else none

/-- The reason given by the last call about the level, if that engaged it. -/
def lastReason (level : Level) (calls : List SwitchCall) : Option String :=
  (calls.reverse.findSome? (SwitchCall.sets level)).getD none

variable (ks : KillSwitch)

theorem reasonAt_engage (reason : String) (scope : KillSwitchScope) (accountId strategyId : Option String) (level : Level) :
    (ks.engage reason scope accountId strategyId).2.reasonAt level =
      if Level.named scope accountId strategyId = some level then some reason else ks.reasonAt level := by
  cases scope with
  | global => cases level <;> simp [engage, reasonAt, Level.named]
  | account =>
    cases accountId with
    | none => simp [engage, Level.named]
    | some account =>
      cases level <;> simp [engage, reasonAt, Level.named, Py.Dict.get?_set, eq_comm]
  | strategy =>
    cases strategyId with
    | none => simp [engage, Level.named]
    | some strategy =>
      cases level <;> simp [engage, reasonAt, Level.named, Py.Dict.get?_set, eq_comm]

theorem reasonAt_release (scope : KillSwitchScope) (accountId strategyId : Option String) (level : Level) :
    (ks.release scope accountId strategyId).2.reasonAt level =
      if Level.named scope accountId strategyId = some level then none else ks.reasonAt level := by
  cases scope with
  | global => cases level <;> simp [release, reasonAt, Level.named]
  | account =>
    cases accountId with
    | none => simp [release, Level.named]
    | some account =>
      cases level <;> simp [release, reasonAt, Level.named, Py.Dict.get?_erase, eq_comm]
  | strategy =>
    cases strategyId with
    | none => simp [release, Level.named]
    | some strategy =>
      cases level <;> simp [release, reasonAt, Level.named, Py.Dict.get?_erase, eq_comm]

/-- **Step lemma**: a call sets the level that it names and leaves the others. -/
theorem reasonAt_next (level : Level) (call : SwitchCall) :
    (machine.next ks call).reasonAt level = (call.sets level).getD (ks.reasonAt level) := by
  cases call with
  | engage reason scope accountId strategyId =>
    refine (reasonAt_engage ks reason scope accountId strategyId level).trans ?_
    rw [SwitchCall.sets]
    split <;> rfl
  | release scope accountId strategyId =>
    refine (reasonAt_release ks scope accountId strategyId level).trans ?_
    rw [SwitchCall.sets]
    split <;> rfl

/-- **Run lemma**: a level is blocked as its last call left it. -/
theorem reasonAt_after (level : Level) (calls : List SwitchCall) :
    (machine.after .init calls).reasonAt level = lastReason level calls := by
  have keep (ks : KillSwitch) (call : SwitchCall) := ks.reasonAt_next level call
  refine (machine.register (f := (reasonAt · level)) keep .init calls).trans ?_
  cases level <;> rfl

/-- `resolve_block` looks at the levels one after the other. -/
theorem resolveBlock_eq_findSome? (accountId strategyId : Option String) :
    ks.resolveBlock accountId strategyId =
      (Level.concerning accountId strategyId).findSome? fun level => (ks.reasonAt level).map (⟨level.scope, ·⟩) := by
  unfold resolveBlock resolveStrategy Level.concerning
  cases global : ks.globalReason with
  | some reason => simp [reasonAt, global, Level.scope]
  | none =>
    cases accountId with
    | none => cases strategyId <;> simp [reasonAt, global, Level.scope]
    | some account =>
      cases blocked : ks.accountReasons.get? account with
      | some reason => simp [reasonAt, global, blocked, Level.scope]
      | none =>
        cases strategyId with
        | none => simp [reasonAt, global, blocked, Level.scope]
        | some strategy =>
          cases own : ks.strategyReasons.get? (some account, strategy) <;>
            simp [reasonAt, global, blocked, own, Level.scope]

/-- The switch is active exactly when some level is blocked. -/
theorem active_iff : ks.active = true ↔ ∃ level, ks.reasonAt level ≠ none := by
  have some_ {κ : Type} [DecidableEq κ] (d : Py.Dict κ String) : (!d.items.isEmpty) = true ↔ ∃ k, d.get? k ≠ none := by
    rw [← d.items_ne_nil_iff, Bool.not_eq_true', List.isEmpty_eq_false_iff]
  unfold active
  rw [Bool.or_eq_true, Bool.or_eq_true, some_, some_]
  constructor
  · rintro ((global | ⟨account, blocked⟩) | ⟨⟨account, strategy⟩, blocked⟩)
    · exact ⟨.global, Option.isSome_iff_ne_none.mp global⟩
    · exact ⟨.account account, blocked⟩
    · exact ⟨.strategy account strategy, blocked⟩
  · rintro ⟨level, blocked⟩
    cases level with
    | global => exact .inl (.inl (Option.isSome_iff_ne_none.mpr blocked))
    | account account => exact .inl (.inr ⟨account, blocked⟩)
    | strategy account strategy => exact .inr ⟨(account, strategy), blocked⟩

/-- **What a kill switch blocks**, after any calls of `engage` and `release` at any scope,
those that raise included: an order is stopped by the first of the levels that
concern it whose last call engaged it, for the reason of that call; the switch is
active exactly when some level is left engaged; and its `reason` is that of the
global level alone. -/
theorem kill_switch_history (calls : List SwitchCall) :
    let ks := machine.after .init calls
    (∀ accountId strategyId, ks.resolveBlock accountId strategyId =
      (Level.concerning accountId strategyId).findSome? fun level => (lastReason level calls).map (⟨level.scope, ·⟩)) ∧
    (ks.active = true ↔ ∃ level, lastReason level calls ≠ none) ∧ ks.reason = lastReason .global calls := by
  intro ks
  have reasons (level : Level) : ks.reasonAt level = lastReason level calls := reasonAt_after level calls
  refine ⟨fun accountId strategyId => ?_, ?_, ?_⟩
  · simp only [resolveBlock_eq_findSome?, reasons]
  · simp only [active_iff, reasons]
  · rw [reason, resolveBlock_global, Option.map_map, ← reasons .global]
    exact Option.map_id_apply

end CryptoQuant.KillSwitch
