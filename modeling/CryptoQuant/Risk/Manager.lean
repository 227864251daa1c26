import CryptoQuant.Lib.Run
import CryptoQuant.Basic

/-!
# The risk manager

`risk/manager.py`: position caps, the daily stop and the dynamic stop. A manager
carries the limits its constructor accepted. `date.today()`, which is read when a
request has no time of its own, is an input of the call.
-/

namespace CryptoQuant
set_option autoImplicit false

/-- `RiskAlertLevel`. -/
inductive RiskAlertLevel
  | info | warn | error
deriving DecidableEq, Repr

/-- `RiskAlert`. -/
structure RiskAlert where
  level : RiskAlertLevel
  code : String
  message : String
deriving DecidableEq, Repr

/-- `DynamicStopConfig`. -/
structure DynamicStopConfig where
  trailingPct : ℚ
deriving DecidableEq

/-- `RiskLimits`. -/
structure RiskLimits where
  notionalCap : ℚ
  leverageCap : ℚ
  dailyStopDrawdownPct : Option ℚ := none
  warnUtilizationPct : ℚ := 85 / 100
  dynamicStop : Option DynamicStopConfig := none
deriving DecidableEq

/-- `RiskInput`. -/
structure RiskInput where
  price : ℚ
  equity : ℚ
  currentQty : ℚ
  targetQty : ℚ
  asOf : Option DateTime := none
deriving DecidableEq

/-- `RiskResult`. -/
structure RiskResult where
  approvedQty : ℚ
  estimatedNotional : ℚ
  estimatedLeverage : ℚ
  reason : String
deriving DecidableEq

/-- `RiskStatus`. -/
structure RiskStatus where
  dailyStopTriggered : Bool
  dynamicStopTriggered : Bool
  trackedSide : ℤ
  trackedExtremePrice : Option ℚ
  dynamicStopPrice : Option ℚ

/-- The checks of the constructor. -/
def RiskLimits.check (limits : RiskLimits) : Except PyError Unit :=
  if limits.notionalCap ≤ 0 ∨ limits.leverageCap ≤ 0 then
    .error (.valueError "risk caps must be positive")
  else if limits.dailyStopDrawdownPct.any (· ≤ 0) then
    .error (.valueError "daily_stop_drawdown_pct must be positive")
  else if ¬ (0 < limits.warnUtilizationPct ∧ limits.warnUtilizationPct < 1) then
    .error (.valueError "warn_utilization_pct must be in (0, 1)")
  else if limits.dynamicStop.any fun conf => ¬ (0 < conf.trailingPct ∧ conf.trailingPct < 1) then
    .error (.valueError "dynamic_stop.trailing_pct must be in (0, 1)")
  else .ok ()

/-- `RiskManager`. The alert sink, when there is one, is the list of the alerts
it has received. -/
structure RiskManager where
  limits : RiskLimits
  admitted : limits.check = .ok ()
  alertSink : Option (List RiskAlert)
  dailyAnchorDay : Option ℤ
  dailyAnchorEquity : Option ℚ
  dailyStopTriggered : Bool
  trackedSide : ℤ
  trackedExtremePrice : Option ℚ
  dynamicStopTriggered : Bool
  dynamicStopEnforcedAlertActive : Bool
  notionalWarnActive : Bool
  leverageWarnActive : Bool

namespace RiskManager

/-- `RiskManager(limits, alert_sink=alert_sink)`. -/
def new (limits : RiskLimits) (alertSink : Option (List RiskAlert) := none) : Except PyError RiskManager :=
  match admitted : limits.check with
  | .error e => .error e
  | .ok () => .ok
      { limits, admitted, alertSink, dailyAnchorDay := none, dailyAnchorEquity := none,
        dailyStopTriggered := false, trackedSide := 0, trackedExtremePrice := none,
        dynamicStopTriggered := false, dynamicStopEnforcedAlertActive := false,
        notionalWarnActive := false, leverageWarnActive := false }

/-- `_emit_alert`. -/
def emitAlert (mgr : RiskManager) (alert : RiskAlert) : RiskManager :=
  { mgr with alertSink := mgr.alertSink.map (· ++ [alert]) }

/-- `_is_opening_new_risk`. -/
def isOpeningNewRisk (currentQty targetQty : ℚ) : Bool :=
  if targetQty = 0 then false
  else if currentQty = 0 then true
  else if currentQty * targetQty < 0 then true
  else decide (|currentQty| < |targetQty|)

/-- `_is_maintaining_or_adding_risk`. -/
def isMaintainingOrAddingRisk (currentQty targetQty : ℚ) : Bool :=
  if currentQty = 0 then false
  else if targetQty = 0 then false
  else if currentQty * targetQty < 0 then false
  else decide (|currentQty| ≤ |targetQty|)

/-- `_side`. -/
def side (qty : ℚ) : ℤ := if 0 < qty then 1 else if qty < 0 then -1 else 0

/-- The day of a request: its own, else today. -/
def dayOf (req : RiskInput) (today : ℤ) : ℤ := (req.asOf.map DateTime.date).getD today

/-- `_refresh_daily_state`. -/
def refreshDailyState (mgr : RiskManager) (req : RiskInput) (today : ℤ) : RiskManager :=
  match mgr.limits.dailyStopDrawdownPct with
  | none => mgr
  | some stopPct =>
    let day := dayOf req today
    if mgr.dailyAnchorDay ≠ some day then
      { mgr with dailyAnchorDay := some day, dailyAnchorEquity := some req.equity,
                 dailyStopTriggered := false }
    else
      match mgr.dailyAnchorEquity with
      | none => mgr
      | some anchor =>
        if anchor ≤ 0 then mgr
        else
          let drawdownPct := (anchor - req.equity) / anchor
          if stopPct ≤ drawdownPct ∧ mgr.dailyStopTriggered = false then
            { mgr with dailyStopTriggered := true }.emitAlert
              ⟨.error, "risk.daily_stop.triggered",
                s!"daily stop triggered at drawdown={formatPercent 2 drawdownPct}"⟩
          else mgr

/-- `stop_price` at an extreme price of the tracked side. -/
def stopPriceAt (conf : DynamicStopConfig) (side : ℤ) (extreme : ℚ) : ℚ :=
  if 0 < side then extreme * (1 - conf.trailingPct) else extreme * (1 + conf.trailingPct)

/-- `_refresh_dynamic_stop_state`. -/
def refreshDynamicStopState (mgr : RiskManager) (req : RiskInput) : RiskManager :=
  match mgr.limits.dynamicStop with
  | none => mgr
  | some conf =>
    let currentSide := side req.currentQty
    if currentSide = 0 then
      { mgr with trackedSide := 0, trackedExtremePrice := none, dynamicStopTriggered := false }
    else if mgr.trackedSide ≠ currentSide then
      { mgr with trackedSide := currentSide, trackedExtremePrice := some req.price,
                 dynamicStopTriggered := false }
    else
      match mgr.trackedExtremePrice with
      | none => { mgr with trackedExtremePrice := some req.price }
      | some tracked =>
        let extreme := if 0 < currentSide then max tracked req.price else min tracked req.price
        let stopPrice := stopPriceAt conf currentSide extreme
        let hit := if 0 < currentSide then decide (req.price ≤ stopPrice) else decide (stopPrice ≤ req.price)
        let sideText := if 0 < currentSide then "LONG" else "SHORT"
        let mgr := { mgr with trackedExtremePrice := some extreme }
        if hit ∧ mgr.dynamicStopTriggered = false then
          { mgr with dynamicStopTriggered := true }.emitAlert
            ⟨.warn, "risk.dynamic_stop.triggered",
              s!"dynamic stop triggered: side={sideText} price={formatFixed 6 req.price} stop={formatFixed 6 stopPrice}"⟩
        else mgr

/-- One of the two utilization alerts: emitted when `util` reaches the warning
level and the alert is not active. -/
def warnUtilization (mgr : RiskManager) (util : ℚ) (active : Bool) (code text : String) : RiskManager :=
  if mgr.limits.warnUtilizationPct ≤ util ∧ active = false then
    mgr.emitAlert ⟨.warn, code, s!"{text}{formatPercent 1 util}"⟩
  else mgr

/-- `_emit_utilization_alerts`. -/
def emitUtilizationAlerts (mgr : RiskManager) (notional leverage : ℚ) : RiskManager :=
  let notionalUtil := notional / mgr.limits.notionalCap
  let leverageUtil := leverage / mgr.limits.leverageCap
  let mgr := mgr.warnUtilization notionalUtil mgr.notionalWarnActive "risk.notional.near_cap"
    "notional utilization high: "
  let mgr := { mgr with notionalWarnActive := decide (mgr.limits.warnUtilizationPct ≤ notionalUtil) }
  let mgr := mgr.warnUtilization leverageUtil mgr.leverageWarnActive "risk.leverage.near_cap"
    "leverage utilization high: "
  { mgr with leverageWarnActive := decide (mgr.limits.warnUtilizationPct ≤ leverageUtil) }

/-- The enforcement of a triggered dynamic stop: the quantity it lets through. -/
def enforceDynamicStop (mgr : RiskManager) (req : RiskInput) : ℚ × RiskManager :=
  if mgr.dynamicStopTriggered ∧ isMaintainingOrAddingRisk req.currentQty req.targetQty then
    let alerted := if mgr.dynamicStopEnforcedAlertActive then mgr else
      mgr.emitAlert ⟨.error, "risk.dynamic_stop.enforced",
        "dynamic stop-loss enforced: force flatten target to zero"⟩
    (0, { alerted with dynamicStopEnforcedAlertActive := true })
  else (req.targetQty, { mgr with dynamicStopEnforcedAlertActive := false })

/-- `max_by_notional`. -/
def maxByNotional (mgr : RiskManager) (req : RiskInput) : ℚ := mgr.limits.notionalCap / req.price

/-- `max_by_leverage`. -/
def maxByLeverage (mgr : RiskManager) (req : RiskInput) : ℚ :=
  mgr.limits.leverageCap * req.equity / req.price

/-- The two-way clamp: the quantity within the caps and its reason. -/
def clamp (mgr : RiskManager) (req : RiskInput) (approved : ℚ) : ℚ × String :=
  let maxAbsQty := min (mgr.maxByNotional req) (mgr.maxByLeverage req)
  if maxAbsQty < |approved| then
    (if 0 < approved then maxAbsQty else -maxAbsQty,
      if mgr.maxByNotional req ≤ mgr.maxByLeverage req then "clamped: notional cap" else "clamped: leverage cap")
  else (approved, "approved")

/-- The manager with its daily and dynamic state brought up to date. -/
def refreshed (mgr : RiskManager) (req : RiskInput) (today : ℤ) : RiskManager :=
  (mgr.refreshDailyState req today).refreshDynamicStopState req

/-- `apply`, from the check of the daily stop on. -/
def approve (mgr : RiskManager) (req : RiskInput) : RiskResult × RiskManager :=
  if mgr.dailyStopTriggered ∧ isOpeningNewRisk req.currentQty req.targetQty then
    (⟨0, 0, 0, "rejected: daily stop"⟩, mgr)
  else
    let (passed, mgr) := mgr.enforceDynamicStop req
    let (approved, reason) := mgr.clamp req passed
    let notional := |approved| * req.price
    let leverage := notional / req.equity
    (⟨approved, notional, leverage, reason⟩, mgr.emitUtilizationAlerts notional leverage)

/-- `apply`, on the day `today`. -/
def apply (mgr : RiskManager) (req : RiskInput) (today : ℤ) : RiskResult × RiskManager :=
  if req.price ≤ 0 then (⟨0, 0, 0, "rejected: invalid price"⟩, mgr)
  else if req.equity ≤ 0 then (⟨0, 0, 0, "rejected: non-positive equity"⟩, mgr)
  else (mgr.refreshed req today).approve req

/-- `_dynamic_stop_price`. -/
def dynamicStopPrice (mgr : RiskManager) : Option ℚ :=
  match mgr.limits.dynamicStop, mgr.trackedExtremePrice with
  | some conf, some extreme => if mgr.trackedSide = 0 then none else some (stopPriceAt conf mgr.trackedSide extreme)
  | _, _ => none

/-- `status`. -/
def status (mgr : RiskManager) : RiskStatus :=
  ⟨mgr.dailyStopTriggered, mgr.dynamicStopTriggered, mgr.trackedSide, mgr.trackedExtremePrice,
    mgr.dynamicStopPrice⟩

/-- The manager as a component that answers `apply` calls, each with the day it
is made on. -/
def machine : Run.Machine RiskManager (RiskInput × ℤ) RiskResult := ⟨fun mgr call => mgr.apply call.1 call.2⟩

end RiskManager

end CryptoQuant
