import CryptoQuant.Risk.AlertSink
import CryptoQuant.Risk.Envelope
import CryptoQuant.Risk.TrailingStop

/-!
# The alerts of the risk manager are edge-triggered

Three alerts of `apply` are held back while the condition they report lasts. Each
has a flag, which every call that gets past the daily stop sets to its condition; a
call that the daily stop rejects returns before. As long as no such rejection finds
the flag of an alert up, the alert is emitted exactly where its condition begins to
show.
-/

namespace CryptoQuant.RiskManager
set_option autoImplicit false

/-- The alerts that are held back while they last. -/
inductive HeldAlert
  | notional | leverage | enforced
deriving DecidableEq, Repr

/-- The daily stop rejects the request: it is triggered once it is up to date, and
the target opens new risk. -/
def stoppedOut (mgr : RiskManager) (call : RiskInput × ℤ) : Bool :=
  (mgr.refreshed call.1 call.2).dailyStopTriggered && isOpeningNewRisk call.1.currentQty call.1.targetQty

/-- The call force-flattens its target: it gets past the daily stop, and the
dynamic stop, once it is up to date, is triggered against the target. -/
def flattens (mgr : RiskManager) (call : RiskInput × ℤ) : Bool :=
  !mgr.stoppedOut call && (mgr.refreshed call.1 call.2).dynamicStopTriggered &&
    isMaintainingOrAddingRisk call.1.currentQty call.1.targetQty

namespace HeldAlert

/-- The code of the alert. -/
def code : HeldAlert → String
  | notional => "risk.notional.near_cap"
  | leverage => "risk.leverage.near_cap"
  | enforced => "risk.dynamic_stop.enforced"

/-- The flag of the alert. -/
def active (kind : HeldAlert) (mgr : RiskManager) : Bool :=
  match kind with
  | notional => mgr.notionalWarnActive
  | leverage => mgr.leverageWarnActive
  | enforced => mgr.dynamicStopEnforcedAlertActive

/-- The condition of the alert shows at the call: in the utilization of the result
it returns, or in that it force-flattens. -/
def shows (kind : HeldAlert) (mgr : RiskManager) (call : RiskInput × ℤ) : Bool :=
  match kind with
  | notional =>
    decide (mgr.limits.warnUtilizationPct ≤ (machine.answer mgr call).estimatedNotional / mgr.limits.notionalCap)
  | leverage =>
    decide (mgr.limits.warnUtilizationPct ≤ (machine.answer mgr call).estimatedLeverage / mgr.limits.leverageCap)
  | enforced => mgr.flattens call

/-- The sink is told the alert at the call. -/
def Emitted (kind : HeldAlert) (mgr : RiskManager) (call : RiskInput × ℤ) : Prop :=
  kind.code ∈ newCodes mgr.alertSink (machine.next mgr call).alertSink

instance (kind : HeldAlert) (mgr : RiskManager) (call : RiskInput × ℤ) : Decidable (kind.Emitted mgr call) :=
  inferInstanceAs (Decidable (_ ∈ _))

end HeldAlert

/-! ## What each piece of `apply` tells the sink -/

section Pieces
variable (mgr : RiskManager) (req : RiskInput) (today : ℤ)

theorem emitAlert_told (alert : RiskAlert) : Told mgr.alertSink (mgr.emitAlert alert).alertSink [alert.code] :=
  .one _ alert

/-- The refresh of the daily state tells of a stop at most. -/
theorem refreshDailyState_told : ∃ codes, Told mgr.alertSink (mgr.refreshDailyState req today).alertSink codes ∧
    codes ⊆ ["risk.daily_stop.triggered"] := by
  have silent : ∃ codes, Told mgr.alertSink mgr.alertSink codes ∧ codes ⊆ ["risk.daily_stop.triggered"] :=
    ⟨[], .refl _, List.nil_subset _⟩
  unfold refreshDailyState
  cases mgr.limits.dailyStopDrawdownPct with
  | none => exact silent
  | some stopPct =>
    simp only
    split
    · exact silent
    · cases mgr.dailyAnchorEquity with
      | none => exact silent
      | some anchor =>
        simp only
        split
        · exact silent
        · split
          · exact ⟨_, emitAlert_told _ _, fun _ h => h⟩
          · exact silent

theorem refreshDynamicStopState_told :
    ∃ codes, Told mgr.alertSink (mgr.refreshDynamicStopState req).alertSink codes ∧
      codes ⊆ ["risk.dynamic_stop.triggered"] := by
  have silent : ∃ codes, Told mgr.alertSink mgr.alertSink codes ∧ codes ⊆ ["risk.dynamic_stop.triggered"] :=
    ⟨[], .refl _, List.nil_subset _⟩
  unfold refreshDynamicStopState
  cases mgr.limits.dynamicStop with
  | none => exact silent
  | some conf =>
    simp only
    split
    · exact silent
    · split
      · exact silent
      · cases mgr.trackedExtremePrice with
        | none => exact silent
        | some tracked =>
          simp only
          split <;> split
          · exact ⟨_, emitAlert_told _ _, fun _ h => h⟩
          · exact silent
          · exact ⟨_, emitAlert_told _ _, fun _ h => h⟩
          · exact silent

/-- The code of an alert whose condition shows and whose flag is down. -/
def rising (shows active : Bool) (code : String) : List String := if shows && !active then [code] else []

/-- The three flags. -/
structure HeldFlags where
  notional : Bool
  leverage : Bool
  enforced : Bool

/-- The flags of a manager. -/
def heldFlags : HeldFlags :=
  ⟨mgr.notionalWarnActive, mgr.leverageWarnActive, mgr.dynamicStopEnforcedAlertActive⟩

/-- Bringing the stops up to date leaves the flags alone. -/
theorem refreshed_heldFlags : (mgr.refreshed req today).heldFlags = mgr.heldFlags := by
  have daily : (mgr.refreshDailyState req today).heldFlags = mgr.heldFlags := by
    unfold refreshDailyState
    cases mgr.limits.dailyStopDrawdownPct with
    | none => rfl
    | some stopPct =>
      simp only
      split
      · rfl
      · cases mgr.dailyAnchorEquity with
        | none => rfl
        | some anchor =>
          simp only
          split
          · rfl
          · split <;> rfl
  refine Eq.trans ?_ daily
  unfold refreshed
  generalize mgr.refreshDailyState req today = dated
  unfold refreshDynamicStopState
  cases dated.limits.dynamicStop with
  | none => rfl
  | some conf =>
    simp only
    split
    · rfl
    · split
      · rfl
      · cases dated.trackedExtremePrice with
        | none => rfl
        | some tracked =>
          simp only
          split <;> split <;> rfl

/-- The dynamic stop tells of its enforcement when it begins, and sets its flag to it. -/
theorem enforceDynamicStop_told :
    let enforced := mgr.dynamicStopTriggered && isMaintainingOrAddingRisk req.currentQty req.targetQty
    Told mgr.alertSink (mgr.enforceDynamicStop req).2.alertSink
        (rising enforced mgr.dynamicStopEnforcedAlertActive "risk.dynamic_stop.enforced") ∧
      (mgr.enforceDynamicStop req).2.heldFlags = { mgr.heldFlags with enforced } := by
  intro enforced
  unfold enforceDynamicStop
  by_cases holds : mgr.dynamicStopTriggered = true ∧ isMaintainingOrAddingRisk req.currentQty req.targetQty = true
  · have up : enforced = true := by simp [enforced, holds]
    rw [if_pos holds, up]
    cases active : mgr.dynamicStopEnforcedAlertActive with
    | true => exact ⟨.refl _, rfl⟩
    | false => exact ⟨emitAlert_told _ _, rfl⟩
  · have down : enforced = false := by
      rw [not_and_or, Bool.not_eq_true, Bool.not_eq_true] at holds
      rcases holds with idle | free
      · simp [enforced, idle]
      · simp [enforced, free]
    rw [if_neg holds, down]
    exact ⟨.refl _, rfl⟩

theorem warnUtilization_told (util : ℚ) (active : Bool) (code text : String) :
    Told mgr.alertSink (mgr.warnUtilization util active code text).alertSink
        (rising (decide (mgr.limits.warnUtilizationPct ≤ util)) active code) ∧
      (mgr.warnUtilization util active code text).heldFlags = mgr.heldFlags := by
  unfold warnUtilization rising
  by_cases above : mgr.limits.warnUtilizationPct ≤ util
  · cases active with
    | true => simpa [above] using Told.refl mgr.alertSink
    | false =>
      simp only [above, decide_true, Bool.not_false, Bool.and_self, if_true, and_self]
      exact ⟨emitAlert_told _ _, rfl⟩
  · simpa [above] using Told.refl mgr.alertSink

/-- The utilization alerts are told when they begin, and their flags set. -/
theorem emitUtilizationAlerts_told (notional leverage : ℚ) :
    let above := decide (mgr.limits.warnUtilizationPct ≤ notional / mgr.limits.notionalCap)
    let levered := decide (mgr.limits.warnUtilizationPct ≤ leverage / mgr.limits.leverageCap)
    Told mgr.alertSink (mgr.emitUtilizationAlerts notional leverage).alertSink
        (rising above mgr.notionalWarnActive "risk.notional.near_cap" ++
          rising levered mgr.leverageWarnActive "risk.leverage.near_cap") ∧
      (mgr.emitUtilizationAlerts notional leverage).heldFlags = ⟨above, levered, mgr.dynamicStopEnforcedAlertActive⟩ := by
  intro above levered
  let notionalUtil := notional / mgr.limits.notionalCap
  let leverageUtil := leverage / mgr.limits.leverageCap
  let first := mgr.warnUtilization notionalUtil mgr.notionalWarnActive "risk.notional.near_cap"
    "notional utilization high: "
  have limits : first.limits = mgr.limits := (warnUtilization_frame _ _ _ _).limits
  let second : RiskManager :=
    { first with notionalWarnActive := decide (first.limits.warnUtilizationPct ≤ notionalUtil) }
  let third := second.warnUtilization leverageUtil second.leverageWarnActive "risk.leverage.near_cap"
    "leverage utilization high: "
  have frame : StopFrame second third := warnUtilization_frame _ _ _ _
  have limits' : third.limits = mgr.limits := frame.limits.trans limits
  obtain ⟨told, flags⟩ : Told mgr.alertSink first.alertSink _ ∧ first.heldFlags = mgr.heldFlags :=
    mgr.warnUtilization_told notionalUtil mgr.notionalWarnActive _ _
  obtain ⟨told', flags'⟩ : Told second.alertSink third.alertSink _ ∧ third.heldFlags = second.heldFlags :=
    second.warnUtilization_told leverageUtil second.leverageWarnActive _ _
  have same : second.limits.warnUtilizationPct = mgr.limits.warnUtilizationPct :=
    congrArg RiskLimits.warnUtilizationPct limits
  have untouched : second.leverageWarnActive = mgr.leverageWarnActive := congrArg HeldFlags.leverage flags
  rw [same, untouched] at told'
  refine ⟨told.trans told', ?_⟩
  have notional_ : third.notionalWarnActive = above :=
    (congrArg HeldFlags.notional flags').trans (by show decide _ = decide _; rw [limits])
  have enforced_ : third.dynamicStopEnforcedAlertActive = mgr.dynamicStopEnforcedAlertActive :=
    (congrArg HeldFlags.enforced flags').trans (congrArg HeldFlags.enforced flags)
  show HeldFlags.mk third.notionalWarnActive (decide (third.limits.warnUtilizationPct ≤ leverageUtil))
    third.dynamicStopEnforcedAlertActive = _
  rw [notional_, enforced_, limits']

end Pieces

/-! ## A call, and a run of calls -/

section Step
variable {mgr : RiskManager} {call : RiskInput × ℤ}

/-- The codes of the held alerts that a call past the daily stop tells. -/
def heldCodes (mgr : RiskManager) (call : RiskInput × ℤ) : List String :=
  rising (HeldAlert.enforced.shows mgr call) (HeldAlert.enforced.active mgr) HeldAlert.enforced.code ++
    (rising (HeldAlert.notional.shows mgr call) (HeldAlert.notional.active mgr) HeldAlert.notional.code ++
      rising (HeldAlert.leverage.shows mgr call) (HeldAlert.leverage.active mgr) HeldAlert.leverage.code)

/-- The refresh of both stops tells of the stops at most. -/
theorem refreshed_told (mgr : RiskManager) (req : RiskInput) (today : ℤ) :
    ∃ codes, Told mgr.alertSink (mgr.refreshed req today).alertSink codes ∧
      codes ⊆ ["risk.daily_stop.triggered", "risk.dynamic_stop.triggered"] := by
  obtain ⟨xs, daily, only⟩ := mgr.refreshDailyState_told req today
  obtain ⟨ys, dynamic, only'⟩ := (mgr.refreshDailyState req today).refreshDynamicStopState_told req
  refine ⟨xs ++ ys, daily.trans dynamic, List.append_subset.mpr ⟨fun c h => ?_, fun c h => ?_⟩⟩
  · exact List.mem_cons.mpr (.inl (List.mem_singleton.mp (only h)))
  · exact List.mem_cons_of_mem _ (only' h)

/-- **Step lemma, rejected by the daily stop**: the flags stay, and no held alert
is told. -/
theorem apply_of_stoppedOut (price : 0 < call.1.price) (equity : 0 < call.1.equity) (out : mgr.stoppedOut call = true) :
    (machine.next mgr call).heldFlags = mgr.heldFlags ∧
      machine.answer mgr call = ⟨0, 0, 0, "rejected: daily stop"⟩ ∧
      (machine.next mgr call).alertSink = (mgr.refreshed call.1 call.2).alertSink := by
  have rejected : mgr.apply call.1 call.2 = (⟨0, 0, 0, "rejected: daily stop"⟩, mgr.refreshed call.1 call.2) := by
    rw [apply_of_valid price equity]
    unfold approve
    exact if_pos ((Bool.and_eq_true _ _).mp out)
  refine ⟨?_, congrArg Prod.fst rejected, congrArg (fun r => r.2.alertSink) rejected⟩
  rw [← mgr.refreshed_heldFlags call.1 call.2]
  exact congrArg (fun r => r.2.heldFlags) rejected

/-- **Step lemma, past the daily stop**: every flag is set to its condition, and
the alerts told are those that begin to show. -/
theorem apply_of_passed (price : 0 < call.1.price) (equity : 0 < call.1.equity) (past : mgr.stoppedOut call = false) :
    (∀ kind : HeldAlert, kind.active (machine.next mgr call) = kind.shows mgr call) ∧
      Told (mgr.refreshed call.1 call.2).alertSink (machine.next mgr call).alertSink (heldCodes mgr call) := by
  let fresh := mgr.refreshed call.1 call.2
  have flags : fresh.heldFlags = mgr.heldFlags := mgr.refreshed_heldFlags call.1 call.2
  have limits : fresh.limits = mgr.limits := refreshed_limits call.1 call.2
  let held := (fresh.enforceDynamicStop call.1).2
  let result := machine.answer mgr call
  have through : ¬ (fresh.dailyStopTriggered = true ∧ isOpeningNewRisk call.1.currentQty call.1.targetQty = true) := by
    rw [← Bool.and_eq_true]
    exact (Bool.not_eq_true _).mpr past
  have approved : mgr.apply call.1 call.2 =
      (result, held.emitUtilizationAlerts result.estimatedNotional result.estimatedLeverage) := by
    have seen : mgr.apply call.1 call.2 = fresh.approve call.1 := apply_of_valid price equity
    have answered : result = (fresh.approve call.1).1 := congrArg Prod.fst seen
    rw [seen, answered]
    unfold approve
    rw [if_neg through]
  obtain ⟨enforced, enforcedFlags⟩ := fresh.enforceDynamicStop_told call.1
  obtain ⟨utilization, utilizationFlags⟩ :=
    held.emitUtilizationAlerts_told result.estimatedNotional result.estimatedLeverage
  have heldLimits : held.limits = mgr.limits := (enforceDynamicStop_cases fresh call.1).1.limits.trans limits
  have flattening : (fresh.dynamicStopTriggered && isMaintainingOrAddingRisk call.1.currentQty call.1.targetQty) =
      mgr.flattens call := by
    unfold flattens
    rw [past]
    rfl
  have next : machine.next mgr call =
      held.emitUtilizationAlerts result.estimatedNotional result.estimatedLeverage := congrArg Prod.snd approved
  have heldFlags_ : held.heldFlags = { mgr.heldFlags with enforced := mgr.flattens call } := by
    rw [enforcedFlags, flags, flattening]
  have notional_ : held.notionalWarnActive = mgr.notionalWarnActive := congrArg HeldFlags.notional heldFlags_
  have leverage_ : held.leverageWarnActive = mgr.leverageWarnActive := congrArg HeldFlags.leverage heldFlags_
  have enforced_ : held.dynamicStopEnforcedAlertActive = mgr.flattens call := congrArg HeldFlags.enforced heldFlags_
  have before : fresh.dynamicStopEnforcedAlertActive = mgr.dynamicStopEnforcedAlertActive :=
    congrArg HeldFlags.enforced flags
  rw [heldLimits, enforced_, ← next] at utilizationFlags
  rw [heldLimits, notional_, leverage_, ← next] at utilization
  rw [flattening, before] at enforced
  refine ⟨fun kind => ?_, enforced.trans utilization⟩
  cases kind with
  | notional => exact congrArg HeldFlags.notional utilizationFlags
  | leverage => exact congrArg HeldFlags.leverage utilizationFlags
  | enforced => exact congrArg HeldFlags.enforced utilizationFlags

/-- Rejected by the daily stop, no condition shows: the result has no utilization. -/
theorem HeldAlert.not_shows_of_stoppedOut (price : 0 < call.1.price) (equity : 0 < call.1.equity)
    (out : mgr.stoppedOut call = true) (kind : HeldAlert) : kind.shows mgr call = false := by
  obtain ⟨-, answered, -⟩ := apply_of_stoppedOut price equity out
  have positive : 0 < mgr.limits.warnUtilizationPct := by
    have checked := mgr.admitted
    unfold RiskLimits.check at checked
    by_contra sunk
    split at checked
    · cases checked
    · split at checked
      · cases checked
      · rw [if_pos fun h => sunk h.1] at checked
        cases checked
  cases kind with
  | notional => simp [HeldAlert.shows, answered, positive]
  | leverage => simp [HeldAlert.shows, answered, positive]
  | enforced => simp [HeldAlert.shows, flattens, out]

/-- A held alert is told at a call exactly when its condition shows and its flag
is down. -/
theorem HeldAlert.emitted_iff (sink : mgr.alertSink.isSome) (price : 0 < call.1.price) (equity : 0 < call.1.equity)
    (kind : HeldAlert) : kind.Emitted mgr call ↔ kind.shows mgr call = true ∧ kind.active mgr = false := by
  obtain ⟨stops, told, only⟩ := refreshed_told mgr call.1 call.2
  have foreign : kind.code ∉ stops := by
    intro member
    have listed := only member
    revert listed
    cases kind <;> decide
  cases out : mgr.stoppedOut call with
  | true =>
    rw [kind.not_shows_of_stoppedOut price equity out]
    obtain ⟨-, -, sink_⟩ := apply_of_stoppedOut price equity out
    unfold HeldAlert.Emitted
    rw [sink_, told.newCodes_eq sink]
    simpa using foreign
  | false =>
    obtain ⟨-, held⟩ := apply_of_passed price equity out
    unfold HeldAlert.Emitted
    rw [(told.trans held).newCodes_eq sink, List.mem_append, or_iff_right foreign]
    have mem (shows active : Bool) (c d : String) :
        c ∈ rising shows active d ↔ c = d ∧ shows = true ∧ active = false := by
      unfold rising
      split <;> simp_all
    unfold heldCodes
    rw [List.mem_append, List.mem_append, mem, mem, mem]
    cases kind <;> simp [HeldAlert.code]

/-- A call rejected by the daily stop while the flag of an alert is up: it returns
before the flag would have been taken down. -/
def silenced (kind : HeldAlert) (mgr : RiskManager) (call : RiskInput × ℤ) : Bool :=
  kind.active mgr && mgr.stoppedOut call

/-- The same flags make the same alerts active. -/
theorem active_congr {m m' : RiskManager} (flags : m.heldFlags = m'.heldFlags) (kind : HeldAlert) : kind.active m = kind.active m' := by
  cases kind with
  | notional => exact congrArg HeldFlags.notional flags
  | leverage => exact congrArg HeldFlags.leverage flags
  | enforced => exact congrArg HeldFlags.enforced flags

/-- Every other valid call sets the flag to its condition. -/
theorem active_next (price : 0 < call.1.price) (equity : 0 < call.1.equity) {kind : HeldAlert}
    (heard : silenced kind mgr call = false) : kind.active (machine.next mgr call) = kind.shows mgr call := by
  cases out : mgr.stoppedOut call with
  | false => exact (apply_of_passed price equity out).1 kind
  | true =>
    obtain ⟨flags, -, -⟩ := apply_of_stoppedOut price equity out
    have down : kind.active mgr = false := by simpa [silenced, out] using heard
    rw [active_congr flags, down, kind.not_shows_of_stoppedOut price equity out]

end Step

section Run
variable {mgr : RiskManager} {calls : List (RiskInput × ℤ)}

theorem new_alertSink {limits : RiskLimits} {alertSink : Option (List RiskAlert)}
    (built : RiskManager.new limits alertSink = .ok mgr) : mgr.alertSink = alertSink ∧ mgr.heldFlags = ⟨false, false, false⟩ := by
  unfold RiskManager.new at built
  split at built
  · cases built
  · cases built
    exact ⟨rfl, rfl⟩

/-- No call takes the sink away. -/
theorem alertSink_after (sink : mgr.alertSink.isSome) (valid : AllValid calls) :
    (machine.after mgr calls).alertSink.isSome := by
  refine machine.invariant (P := fun _ m => m.alertSink.isSome) sink ?_ (List.append_nil calls).symm
  rintro done call rest m split - there
  obtain ⟨price, equity⟩ := valid call (by rw [split]; simp)
  obtain ⟨_, told, -⟩ := refreshed_told m call.1 call.2
  have fresh := told.isSome there
  cases out : m.stoppedOut call with
  | true =>
    rw [(apply_of_stoppedOut price equity out).2.2]
    exact fresh
  | false => exact (apply_of_passed price equity out).2.isSome fresh

/-- **The held alerts are edge-triggered** over every run of valid calls in which
no rejection by the daily stop finds the flag of the alert up: the alert is told at a
call exactly when its condition shows there and did not show at the call before. -/
theorem held_alerts_edge_triggered {limits : RiskLimits} {alerts : List RiskAlert}
    (built : RiskManager.new limits (some alerts) = .ok mgr) (valid : AllValid calls) (kind : HeldAlert)
    (heard : ∀ done call rest, calls = done ++ call :: rest → silenced kind (machine.after mgr done) call = false) :
    ∀ done call rest, calls = done ++ call :: rest →
      (kind.Emitted (machine.after mgr done) call ↔
        kind.shows (machine.after mgr done) call = true ∧ machine.shownLast kind.shows mgr done = false) := by
  intro done call rest split
  obtain ⟨sink, flags⟩ := new_alertSink built
  obtain ⟨price, equity⟩ := valid call (by rw [split]; simp)
  have earlier : AllValid done := fun c member => valid c (by rw [split]; exact List.mem_append_left _ member)
  have remembered : kind.active (machine.after mgr done) = machine.shownLast kind.shows mgr done := by
    refine machine.flag_eq_shownLast ?_ ?_ split
    · cases kind with
      | notional => exact congrArg HeldFlags.notional flags
      | leverage => exact congrArg HeldFlags.leverage flags
      | enforced => exact congrArg HeldFlags.enforced flags
    · intro before c after cut
      obtain ⟨price, equity⟩ := valid c (by rw [cut]; simp)
      exact active_next price equity (heard before c after cut)
  rw [← remembered]
  exact kind.emitted_iff (alertSink_after (by rw [sink]; rfl) earlier) price equity

/-- Right after a silenced call no alert is told, whether the condition shows or not. -/
theorem HeldAlert.missed {kind : HeldAlert} {prev call : RiskInput × ℤ} (sink : mgr.alertSink.isSome)
    (valid : AllValid [prev, call]) (silent : silenced kind mgr prev = true) :
    kind.shows mgr prev = false ∧ ¬ kind.Emitted (machine.next mgr prev) call := by
  obtain ⟨price, equity⟩ := valid prev (by simp)
  obtain ⟨price', equity'⟩ := valid call (by simp)
  obtain ⟨up, out⟩ := (Bool.and_eq_true _ _).mp silent
  obtain ⟨flags, -, sink_⟩ := apply_of_stoppedOut price equity out
  refine ⟨kind.not_shows_of_stoppedOut price equity out, fun told => ?_⟩
  obtain ⟨_, refreshed, -⟩ := refreshed_told mgr prev.1 prev.2
  have there : (machine.next mgr prev).alertSink.isSome := by
    rw [sink_]
    exact refreshed.isSome sink
  have down := ((kind.emitted_iff there price' equity').mp told).2
  rw [active_congr flags, up] at down
  cases down

/-- From flat to half of the notional cap, then to nine tenths of it. -/
def rampUp : List (RiskInput × ℤ) := [(⟨100, 1000, 0, 5, none⟩, 0), (⟨100, 1000, 5, 9, none⟩, 0)]

theorem held_alerts_edge_triggered_rampUp : ∃ mgr, RiskManager.new fivePercent (some []) = .ok mgr ∧
    HeldAlert.notional.Emitted (machine.after mgr (rampUp.take 1)) (⟨100, 1000, 5, 9, none⟩, 0) := by
  obtain ⟨mgr, accepted, seen⟩ := Run.endsIn_iff.mp (show Run.endsIn (RiskManager.new fivePercent (some [])) (fun mgr =>
    decide (silenced .notional mgr (⟨100, 1000, 0, 5, none⟩, 0) = false ∧
      silenced .notional (machine.after mgr (rampUp.take 1)) (⟨100, 1000, 5, 9, none⟩, 0) = false ∧
      HeldAlert.notional.shows (machine.after mgr (rampUp.take 1)) (⟨100, 1000, 5, 9, none⟩, 0) = true ∧
      machine.shownLast HeldAlert.notional.shows mgr (rampUp.take 1) = false)) = true by decide +kernel)
  obtain ⟨first, second, shows, before⟩ := of_decide_eq_true seen
  have heard (done : List (RiskInput × ℤ)) (call : RiskInput × ℤ) (rest : List (RiskInput × ℤ))
      (split : rampUp = done ++ call :: rest) : silenced .notional (machine.after mgr done) call = false := by
    rcases done with _ | ⟨a, _ | ⟨b, done⟩⟩
    · cases split
      exact first
    · cases split
      exact second
    · simp [rampUp] at split
  have rule := held_alerts_edge_triggered accepted (by unfold AllValid; decide +kernel) .notional heard
    (rampUp.take 1) (⟨100, 1000, 5, 9, none⟩, 0) [] rfl
  exact ⟨mgr, accepted, rule.mpr ⟨shows, before⟩⟩

/-- Nine tenths of the notional cap, a drawdown whose addition the daily stop
rejects, and the held position asked for again. -/
def rejectedBetween : List (RiskInput × ℤ) :=
  [(⟨100, 1000, 0, 9, none⟩, 0), (⟨100, 900, 9, 10, none⟩, 0), (⟨100, 900, 9, 9, none⟩, 0)]

/-- The utilization is back over the warning level after a call without any, and no
alert is told. -/
theorem held_alert_missed_rejectedBetween : ∃ mgr, RiskManager.new fivePercent (some []) = .ok mgr ∧
    AllValid rejectedBetween ∧
    ¬ ∀ kind : HeldAlert, ∀ done call rest, rejectedBetween = done ++ call :: rest →
      (kind.Emitted (machine.after mgr done) call ↔
        kind.shows (machine.after mgr done) call = true ∧ machine.shownLast kind.shows mgr done = false) := by
  let asked : RiskInput × ℤ := (⟨100, 900, 9, 9, none⟩, 0)
  obtain ⟨mgr, accepted, seen⟩ := Run.endsIn_iff.mp (show Run.endsIn (RiskManager.new fivePercent (some [])) (fun mgr =>
    decide (HeldAlert.notional.shows (machine.after mgr (rejectedBetween.take 2)) asked = true ∧
      machine.shownLast HeldAlert.notional.shows mgr (rejectedBetween.take 2) = false ∧
      ¬ HeldAlert.notional.Emitted (machine.after mgr (rejectedBetween.take 2)) asked)) = true by decide +kernel)
  obtain ⟨shows, before, untold⟩ := of_decide_eq_true seen
  refine ⟨mgr, accepted, by unfold AllValid; decide +kernel, fun rule => ?_⟩
  exact untold ((rule .notional (rejectedBetween.take 2) asked [] rfl).mpr ⟨shows, before⟩)

end Run

end CryptoQuant.RiskManager
