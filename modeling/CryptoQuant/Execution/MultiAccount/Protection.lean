import CryptoQuant.Execution.MultiAccount.Sends
import CryptoQuant.Risk.HaltOwnership

/-!
# Trading under automatic protection

The multi-account executor and a degradation controller over one kill switch. As
long as nobody else works its global level, nothing is sent from a critical breach
of the health metrics until the controller is back to `NORMAL`, and whatever
passes the other gates is sent at any other time.
-/

namespace CryptoQuant.MultiAccount
set_option autoImplicit false

open MultiAccountLiveExecutor

/-- A controller and an executor that were given the same kill switch. -/
structure ProtectedExecutor where
  controller : AutoDegradationController
  executor : MultiAccountLiveExecutor

/-- What can happen under protection. -/
inductive ProtectedAction
  | sample (sample : ExecutionHealthSample)
  | live (action : Action)

/-- One action; the kill switch is one object. -/
def protectedAct (p : ProtectedExecutor) :
    ProtectedAction → Option (Except PyError LiveOrderAck) × ProtectedExecutor
  | .sample sample =>
    let (_, controller, killSwitch) := p.controller.recordSample p.executor.killSwitch sample
    (none, { controller, executor := { p.executor with killSwitch } })
  | .live action => (machine.answer p.executor action, { p with executor := machine.next p.executor action })

/-- The protected executor among its surroundings. -/
def protectedMachine : Run.Machine ProtectedExecutor ProtectedAction (Option (Except PyError LiveOrderAck)) :=
  ⟨protectedAct⟩

namespace ProtectedAction

/-- The action does not work the global level of the switch. -/
def HandsOff : ProtectedAction → Prop
  | live (.engage _ scope _ _) => scope ≠ .global
  | live (.release scope _ _) => scope ≠ .global
  | _ => True

/-- The sample is accepted, and with it a metric is at a critical level. -/
def Trips (p : ProtectedExecutor) : ProtectedAction → Prop
  | sample s => AutoDegradationController.Valid s ∧ p.controller.breachesAt s .critical ≠ []
  | live _ => False

/-- The sample takes the controller back to `NORMAL`. -/
def Recovers (p : ProtectedExecutor) : ProtectedAction → Prop
  | sample s => p.controller.Recovers s
  | live _ => False

end ProtectedAction

/-- There has been a critical breach, and no recovery since. -/
def Tripped (p : ProtectedExecutor) (actions : List ProtectedAction) : Prop :=
  protectedMachine.Since ProtectedAction.Trips ProtectedAction.Recovers p actions

/-- The global level of the switch is blocked. -/
def Blocked (p : ProtectedExecutor) : Prop :=
  ∃ ks, p.executor.killSwitch = some ks ∧ ks.globalReason ≠ none

/-- A global block of the switch is the one the controller remembers. -/
structure Guarded (p : ProtectedExecutor) (ks : KillSwitch) : Prop where
  switch : p.executor.killSwitch = some ks
  owned : p.controller.autoHaltReason = ks.globalReason

section Controller
open AutoDegradationController
variable {ctl : AutoDegradationController} {ks : KillSwitch} {sample : ExecutionHealthSample}

variable (ks) in
/-- A sample that is not critical neither blocks nor, unless it recovers, releases. -/
theorem recordSample_uncritical (uncritical : ctl.breachesAt sample .critical = []) (stays : ¬ ctl.Recovers sample) :
    (ctl.recordSample (some ks) sample).2.2 = some ks ∧
      (ctl.recordSample (some ks) sample).2.1.autoHaltReason = ctl.autoHaltReason := by
  unfold recordSample
  by_cases latency : sample.latencyMs < 0
  · rw [if_pos latency]
    exact ⟨rfl, rfl⟩
  rw [if_neg latency]
  by_cases slippage : sample.slippageBps < 0
  · rw [if_pos slippage]
    exact ⟨rfl, rfl⟩
  rw [if_neg slippage]
  have noted := ctl.noted_control sample
  have auto : (ctl.noted sample).autoHaltReason = ctl.autoHaltReason := congrArg Control.autoHaltReason noted
  -- the alert of a mode change touches neither
  have announced (c : AutoDegradationController) (previous : ProtectionMode) (alert : RiskAlert) :
      (if previous ≠ c.mode then c.emitAlert alert else c).autoHaltReason = c.autoHaltReason :=
    congrArg Control.autoHaltReason (announce_control c previous alert)
  by_cases warn : ctl.breachesAt sample .warn ≠ []
  · have seen : ctl.observe (some ks) sample = (_, { ctl.noted sample with mode := .degraded, healthyCount := 0 }, some ks) :=
      (if_neg (not_not.mpr uncritical)).trans (if_pos warn)
    rw [seen]
    exact ⟨rfl, (announced _ _ _).trans auto⟩
  · have seen : ctl.observe (some ks) sample = ([], (ctl.noted sample).heal (some ks)) :=
      (if_neg (not_not.mpr uncritical)).trans (if_neg warn)
    have few : ¬ ctl.recoverHealthySamples ≤ ctl.healthyCount + 1 := fun enough =>
      stays ⟨⟨not_lt.mp latency, not_lt.mp slippage⟩, not_or.mpr ⟨not_not.mpr uncritical, warn⟩, enough⟩
    have count : (ctl.noted sample).healthyCount = ctl.healthyCount := congrArg Control.healthyCount noted
    have needed : (ctl.noted sample).recoverHealthySamples = ctl.recoverHealthySamples :=
      congrArg Control.recoverHealthySamples noted
    rw [seen, heal_few (by rw [needed, count]; exact few)]
    exact ⟨rfl, (announced _ _ _).trans auto⟩

variable (sample) in
/-- **Step lemma of a sample**, while the block of the switch is the one remembered:
it stays so, and the level is blocked by a critical sample, free after a recovery,
and as before otherwise. -/
theorem recordSample_owned (owned : ctl.autoHaltReason = ks.globalReason) :
    ∃ ks', (ctl.recordSample (some ks) sample).2.2 = some ks' ∧
      (ctl.recordSample (some ks) sample).2.1.autoHaltReason = ks'.globalReason ∧
      ks'.accountReasons = ks.accountReasons ∧
      (ks'.globalReason ≠ none ↔ (Valid sample ∧ ctl.breachesAt sample .critical ≠ []) ∨
        ks.globalReason ≠ none ∧ ¬ ctl.Recovers sample) := by
  by_cases critical : Valid sample ∧ ctl.breachesAt sample .critical ≠ []
  · obtain ⟨valid, critical⟩ := critical
    have breached : ctl.Breached sample := .inl critical
    have outcome := ctl.recordSample_sampled ks sample
    generalize ctl.recordSample (some ks) sample = result at outcome
    cases outcome with
    | refused e invalid => exact absurd valid invalid
    | engaged snap ctl' reasons valid breached free control =>
      exact ⟨_, rfl, congrArg Control.autoHaltReason control, rfl, by simp [valid, critical]⟩
    | halted snap ctl' auto valid breached blocked adopted control =>
      have remembered : auto = ks.globalReason := by
        rcases adopted with same | ⟨reasons, -, same⟩
        · rw [same, owned]
        · exact same
      refine ⟨ks, rfl, (congrArg Control.autoHaltReason control).trans remembered, rfl, ?_⟩
      exact ⟨fun _ => .inl ⟨valid, critical⟩, fun _ => blocked⟩
    | degraded snap ctl' valid breached uncritical control => exact absurd uncritical critical
    | healing snap ctl' valid healthy few control => exact absurd breached healthy
    | released snap ctl' releases control => exact absurd breached releases.recovers.healthy
    | recovered snap ctl' recovers foreign control => exact absurd breached recovers.healthy
  by_cases recovers : ctl.Recovers sample
  · have outcome := ctl.recordSample_sampled ks sample
    generalize ctl.recordSample (some ks) sample = result at outcome
    have free (ks' : KillSwitch) (none_ : ks'.globalReason = none) :
        ks'.globalReason ≠ none ↔ (Valid sample ∧ ctl.breachesAt sample .critical ≠ []) ∨
          ks.globalReason ≠ none ∧ ¬ ctl.Recovers sample := by
      simp only [none_, critical, recovers, not_true_eq_false, and_false, or_self, ne_eq]
    cases outcome with
    | refused e invalid => exact absurd recovers.valid invalid
    | engaged snap ctl' reasons valid breached free control => exact absurd breached recovers.healthy
    | halted snap ctl' auto valid breached blocked adopted control => exact absurd breached recovers.healthy
    | degraded snap ctl' valid breached uncritical control => exact absurd breached recovers.healthy
    | healing snap ctl' valid healthy few control => exact absurd recovers.enough few
    | released snap ctl' releases control =>
      exact ⟨_, rfl, congrArg Control.autoHaltReason control, rfl, free _ rfl⟩
    | recovered snap ctl' recovers foreign control =>
      -- nothing is remembered, or the block would be released
      have none_ : ks.globalReason = none := by
        cases block : ks.globalReason with
        | none => rfl
        | some reason => exact absurd ⟨recovers, reason, owned.trans block, block⟩ foreign
      exact ⟨ks, rfl, (congrArg Control.autoHaltReason control).trans none_.symm, rfl, free ks none_⟩
  · by_cases valid : Valid sample
    · have uncritical : ctl.breachesAt sample .critical = [] := not_not.mp fun some => critical ⟨valid, some⟩
      obtain ⟨switch, auto⟩ := recordSample_uncritical ks uncritical recovers
      refine ⟨ks, switch, auto.trans owned, rfl, ?_⟩
      simp only [critical, recovers, not_false_eq_true, and_true, false_or]
    · have outcome := ctl.recordSample_sampled ks sample
      generalize ctl.recordSample (some ks) sample = result at outcome
      have kept : ks.globalReason ≠ none ↔ (Valid sample ∧ ctl.breachesAt sample .critical ≠ []) ∨
          ks.globalReason ≠ none ∧ ¬ ctl.Recovers sample := by
        simp only [critical, recovers, not_false_eq_true, and_true, false_or]
      cases outcome with
      | refused e invalid => exact ⟨ks, rfl, owned, rfl, kept⟩
      | released snap ctl' releases control => exact absurd releases.recovers.valid valid
      | recovered snap ctl' recovers foreign control => exact absurd recovers.valid valid
      | _ => contradiction

end Controller

section Run
variable {p : ProtectedExecutor} {ks : KillSwitch}

/-- What an action of the executor and its surroundings makes of the switch. -/
theorem killSwitch_next (ex : MultiAccountLiveExecutor) (action : Action) :
    (machine.next ex action).killSwitch = ex.killSwitch.map fun ks =>
      match action with
      | .engage reason scope accountId strategyId => (ks.engage reason scope accountId strategyId).2
      | .release scope accountId strategyId => (ks.release scope accountId strategyId).2
      | _ => ks := by
  cases action with
  | execute req exchange =>
    show (ex.executeMarket req exchange).2.killSwitch = ex.killSwitch.map fun ks => ks
    rw [Option.map_id']
    have outcome := @executeMarket_executed ex req exchange
    generalize ex.executeMarket req exchange = result at outcome
    cases outcome with
    | refused e ex' same => exact same.killSwitch
    | repeated ack ex' same => exact same.killSwitch
    | failed ref e ex' passes new same => exact same.killSwitch
    | acked ref ack ex' passes new same => exact same.killSwitch
  | engage reason scope accountId strategyId => rfl
  | release scope accountId strategyId => rfl
  | transition ref clientOrderId target reason => exact Option.map_id'.symm
  | report ref event => exact Option.map_id'.symm

/-- **Step lemma**: the block stays the one remembered, and is latched by critical
breaches and recoveries. -/
theorem Guarded.step (guarded : Guarded p ks) {action : ProtectedAction} (handsOff : action.HandsOff) :
    ∃ ks', Guarded (protectedMachine.next p action) ks' ∧
      (ks'.globalReason ≠ none ↔ action.Trips p ∨ ks.globalReason ≠ none ∧ ¬ action.Recovers p) := by
  cases action with
  | sample s =>
    obtain ⟨ks', switch, owned, -, latched⟩ := recordSample_owned s guarded.owned
    rw [← guarded.switch] at switch owned
    exact ⟨ks', ⟨switch, owned⟩, latched⟩
  | live action =>
    have switch := killSwitch_next p.executor action
    rw [guarded.switch, Option.map_some] at switch
    refine ⟨_, ⟨switch, ?_⟩, ?_⟩
    · show p.controller.autoHaltReason = _
      rw [guarded.owned]
      cases action with
      | engage reason scope accountId strategyId => rw [KillSwitch.engage_globalReason, if_neg handsOff]
      | release scope accountId strategyId => rw [KillSwitch.release_globalReason, if_neg handsOff]
      | _ => rfl
    · simp only [ProtectedAction.Trips, ProtectedAction.Recovers, not_false_eq_true, and_true, false_or]
      cases action with
      | engage reason scope accountId strategyId => rw [KillSwitch.engage_globalReason, if_neg handsOff]
      | release scope accountId strategyId => rw [KillSwitch.release_globalReason, if_neg handsOff]
      | _ => exact Iff.rfl

theorem Guarded.blocked_iff (guarded : Guarded p ks) : Blocked p ↔ ks.globalReason ≠ none := by
  constructor
  · rintro ⟨ks', switch, blocked⟩
    obtain rfl := Option.some.inj (guarded.switch.symm.trans switch)
    exact blocked
  · exact fun blocked => ⟨ks, guarded.switch, blocked⟩

/-- **Run lemma**: the level is blocked exactly since a critical breach without a
recovery. -/
theorem Guarded.after (guarded : Guarded p ks) (free : ks.globalReason = none) (actions : List ProtectedAction)
    (handsOff : ∀ action ∈ actions, action.HandsOff) :
    ∃ ks', Guarded (protectedMachine.after p actions) ks' ∧ (ks'.globalReason ≠ none ↔ Tripped p actions) := by
  have reached : ∀ {done rest : List ProtectedAction}, actions = done ++ rest →
      ∃ ks', Guarded (protectedMachine.after p done) ks' := by
    intro done rest split
    refine protectedMachine.invariant (P := fun _ p => ∃ ks', Guarded p ks') ⟨ks, guarded⟩ ?_ split
    rintro done action rest t cut - ⟨ks', here⟩
    obtain ⟨next, guardedNext, -⟩ := here.step (handsOff action (by rw [cut]; simp))
    exact ⟨next, guardedNext⟩
  have latched : Blocked (protectedMachine.after p actions) ↔ Tripped p actions := by
    refine protectedMachine.latch (P := Blocked) ?_ ?_ (List.append_nil actions).symm
    · rw [guarded.blocked_iff]
      exact not_not.mpr free
    · intro done action rest cut
      obtain ⟨ks', here⟩ := reached cut
      obtain ⟨next, guardedNext, latched⟩ := here.step (handsOff action (by rw [cut]; simp))
      rw [guardedNext.blocked_iff, here.blocked_iff, latched]
  obtain ⟨ks', here⟩ := reached (List.append_nil actions).symm
  exact ⟨ks', here, here.blocked_iff.symm.trans latched⟩

/-- A request that passes every gate is sent. -/
theorem sent_of_passes {ex : MultiAccountLiveExecutor} {req : MultiAccountOrderRequest} {ref : OmsRef}
    (passes : Passes ex req ref)
    (new : ∀ order, (ex.heap ref).get req.scopedClientOrderId = some order → order.status = .new) (exchange : Exchange) :
    ∃ outcome, (ex.executeMarket req exchange).2.calls = ex.calls ++ [callOf req outcome] := by
  have exit := @executeMarket_exit ex req exchange
  generalize ex.executeMarket req exchange = result at exit
  cases exit with
  | zero e zero => exact absurd zero passes.qty
  | halted e halted => exact absurd (halted.symm.trans passes.allowed) (by simp)
  | conflicting e ack found payload => exact absurd (found.symm.trans passes.unacked) (by simp)
  | repeated ack found payload => exact absurd (found.symm.trans passes.unacked) (by simp)
  | denied e qty allowed unacked denied => exact absurd (denied.symm.trans passes.compliant) (by simp)
  | unknown e compliant missing => exact absurd (missing.symm.trans passes.account) (by simp)
  | closed ref' e order passes' found moved =>
    obtain rfl := Option.some.inj (passes'.account.symm.trans passes.account)
    exact absurd (new order found) moved
  | sent ref' passes' new' =>
    refine ⟨ex.gateway.placeMarketOrder exchange req.accountId req.symbol req.qty req.clientOrderId, ?_⟩
    unfold send
    simp only
    split <;> rfl

/-- What a request needs besides a switch that lets it pass. -/
structure Ready (ex : MultiAccountLiveExecutor) (req : MultiAccountOrderRequest) (ref : OmsRef) : Prop where
  qty : req.qty ≠ 0
  unacked : ex.acks.get? req.cacheKey = none
  compliant : (ex.checkOrder req).allowed = true
  account : ex.omsByAccount.get? req.accountId = some ref
  new : ∀ order, (ex.heap ref).get req.scopedClientOrderId = some order → order.status = .new

/-- **Protection is exact.** A controller and an executor share a kill switch that is
free at the start, and in a run nobody else works its global level. Then after
every such run an action makes a gateway call only if there has been no critical
breach since the last recovery, and if there has been none, every request that is
ready and whose account is not blocked is sent. -/
theorem protected_sends (guarded : Guarded p ks) (free : ks.globalReason = none) (actions : List ProtectedAction)
    (handsOff : ∀ action ∈ actions, action.HandsOff) :
    (∀ action : ProtectedAction, (protectedMachine.next (protectedMachine.after p actions) action).executor.calls ≠
        (protectedMachine.after p actions).executor.calls → ¬ Tripped p actions) ∧
    (¬ Tripped p actions → ∀ req ref exchange, Ready (protectedMachine.after p actions).executor req ref →
      (∀ ks, (protectedMachine.after p actions).executor.killSwitch = some ks →
        ks.accountReasons.get? req.accountId = none) →
      ∃ outcome, (protectedMachine.next (protectedMachine.after p actions) (.live (.execute req exchange))).executor.calls =
        (protectedMachine.after p actions).executor.calls ++ [callOf req outcome]) := by
  obtain ⟨ks', here, latched⟩ := guarded.after free actions handsOff
  generalize protectedMachine.after p actions = p' at here
  refine ⟨fun action called => ?_, fun calm req ref exchange ready clear => ?_⟩
  · rw [← latched, not_not]
    cases action with
    | sample s => exact absurd rfl called
    | live action =>
      obtain ⟨req, exchange, outcome, rfl, gates, -⟩ := calls_of_next action called
      exact (gates.unblocked ks' here.switch).1
  · rw [← latched, not_not] at calm
    have allowed : p'.executor.assertAllowsExecution req.accountId = .ok () := by
      rw [assertAllowsExecution, here.switch]
      exact (ks'.assertAllowsExecution_account req.accountId).mpr ⟨calm, clear ks' here.switch⟩
    exact sent_of_passes ⟨ready.qty, allowed, ready.unacked, ready.compliant, ready.account⟩ ready.new exchange

end Run

/-- `desk` under a controller that looks at one sample at a time. -/
def protectedDesk : ProtectedExecutor where
  controller :=
    { thresholds := latencyLimits, window := .empty 1, recoverHealthySamples := 1,
      alertSink := none, mode := .normal, healthyCount := 0, activeAnomalies := [], autoHaltReason := none }
  executor := desk

/-- A critical latency stops the next order. -/
theorem protected_sends_incident :
    (protectedMachine.next (protectedMachine.after protectedDesk [.sample (latency 250)])
        (.live (.execute (buy 1) accepting))).executor.calls =
      (protectedMachine.after protectedDesk [.sample (latency 250)]).executor.calls := by
  by_contra called
  refine (protected_sends (show Guarded protectedDesk .init from ⟨rfl, rfl⟩) rfl
    [.sample (latency 250)] ?_).1 _ called ?_
  · simp [ProtectedAction.HandsOff]
  · refine ⟨[], _, [], rfl, ⟨by decide +kernel, ?_⟩, fun done j rest cut => absurd cut (by simp)⟩
    intro calm
    have count := congrArg List.length calm
    revert count
    decide +kernel

end CryptoQuant.MultiAccount
