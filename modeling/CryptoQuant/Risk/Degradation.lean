import CryptoQuant.Lib.Deque
import CryptoQuant.Risk.KillSwitch
import CryptoQuant.Risk.Manager
import Mathlib.Data.List.Sort

/-!
# Automatic degradation

`risk/degradation.py`: a controller watches averages over a sliding window of
execution samples, moves between three protection modes, and drives a kill
switch. The switch is shared with other callers, so it is an argument and a
result of the call.
-/

namespace CryptoQuant
set_option autoImplicit false

/-- `ProtectionMode`. -/
inductive ProtectionMode
  | normal | degraded | halted
deriving DecidableEq, Repr

/-- `mode.value`. -/
def ProtectionMode.value : ProtectionMode → String
  | .normal => "NORMAL"
  | .degraded => "DEGRADED"
  | .halted => "HALTED"

/-- `DegradationThresholds`. -/
structure DegradationThresholds where
  latencyWarnMs : ℚ
  latencyCriticalMs : ℚ
  rejectRateWarn : ℚ
  rejectRateCritical : ℚ
  slippageWarnBps : ℚ
  slippageCriticalBps : ℚ
deriving DecidableEq

/-- `__post_init__`. -/
def DegradationThresholds.check (t : DegradationThresholds) : Except PyError Unit :=
  if ¬ ((0 ≤ t.rejectRateWarn ∧ t.rejectRateWarn ≤ 1) ∧ 0 ≤ t.rejectRateCritical ∧ t.rejectRateCritical ≤ 1) then
    .error (.valueError "reject_rate thresholds must be in [0, 1]")
  else if t.latencyWarnMs ≤ 0 ∨ t.latencyCriticalMs ≤ 0 then
    .error (.valueError "latency thresholds must be positive")
  else if t.slippageWarnBps < 0 ∨ t.slippageCriticalBps < 0 then
    .error (.valueError "slippage thresholds must be non-negative")
  else if t.latencyCriticalMs ≤ t.latencyWarnMs then
    .error (.valueError "latency_warn_ms must be < latency_critical_ms")
  else if t.rejectRateCritical ≤ t.rejectRateWarn then
    .error (.valueError "reject_rate_warn must be < reject_rate_critical")
  else if t.slippageCriticalBps ≤ t.slippageWarnBps then
    .error (.valueError "slippage_warn_bps must be < slippage_critical_bps")
  else .ok ()

/-- The two severities a metric is checked at. -/
inductive Severity
  | warn | critical
deriving DecidableEq, Repr

/-- The severity, as the names of the anomalies spell it. -/
def Severity.text : Severity → String
  | .warn => "warn"
  | .critical => "critical"

/-- A metric at or above one of its thresholds. -/
structure Breach where
  metric : String
  severity : Severity
deriving DecidableEq, Repr

/-- The reason string of a breach. Its `rsplit("_", 1)` is the pair of fields. -/
def Breach.reason (b : Breach) : String := b.metric ++ "_" ++ b.severity.text

/-- `sorted(reasons)`. -/
def sortedBreaches (bs : List Breach) : List Breach := bs.insertionSort fun a b => a.reason ≤ b.reason

/-- `DegradationSnapshot`. -/
structure DegradationSnapshot where
  mode : ProtectionMode
  avgLatencyMs : ℚ
  rejectRate : ℚ
  avgSlippageBps : ℚ
  reasons : List String
deriving DecidableEq

/-- `ExecutionHealthSample`. -/
structure ExecutionHealthSample where
  latencyMs : ℚ
  rejected : Bool
  slippageBps : ℚ
deriving DecidableEq

/-- `AutoDegradationController`, without its kill switch. The alert sink, when
there is one, is the list of the alerts it has received. -/
structure AutoDegradationController where
  thresholds : DegradationThresholds
  window : Py.Deque ExecutionHealthSample
  recoverHealthySamples : ℤ
  alertSink : Option (List RiskAlert)
  mode : ProtectionMode
  healthyCount : ℕ
  activeAnomalies : List Breach
  autoHaltReason : Option String

namespace AutoDegradationController

/-- `AutoDegradationController(thresholds, ...)`; the thresholds were checked
when they were built. -/
def new (thresholds : DegradationThresholds) (windowSize recoverHealthySamples : ℤ)
    (alertSink : Option (List RiskAlert) := none) : Except PyError AutoDegradationController := do
  thresholds.check
  raiseIf (windowSize ≤ 0) (.valueError "window_size must be positive")
  raiseIf (recoverHealthySamples ≤ 0) (.valueError "recover_healthy_samples must be positive")
  pure { thresholds, window := .empty windowSize.toNat, recoverHealthySamples, alertSink, mode := .normal,
         healthyCount := 0, activeAnomalies := [], autoHaltReason := none }

/-- `_emit_alert`. -/
def emitAlert (ctl : AutoDegradationController) (alert : RiskAlert) : AutoDegradationController :=
  { ctl with alertSink := ctl.alertSink.map (· ++ [alert]) }

/-- `_mode_alert_level`. -/
def modeAlertLevel : ProtectionMode → RiskAlertLevel
  | .halted => .error
  | .degraded => .warn
  | .normal => .info

/-- The mean of a metric over the window. -/
def average (ctl : AutoDegradationController) (metric : ExecutionHealthSample → ℚ) : ℚ :=
  (ctl.window.items.map metric).sum / ctl.window.items.length

/-- `avg_latency_ms`. -/
def avgLatencyMs (ctl : AutoDegradationController) : ℚ := ctl.average ExecutionHealthSample.latencyMs

/-- `reject_rate`. -/
def rejectRate (ctl : AutoDegradationController) : ℚ := ctl.average fun s => if s.rejected then 1 else 0

/-- `avg_slippage_bps`. -/
def avgSlippageBps (ctl : AutoDegradationController) : ℚ := ctl.average ExecutionHealthSample.slippageBps

/-- `_collect_metric_breaches`, of the metrics of the window. -/
def collectMetricBreaches (ctl : AutoDegradationController) (severity : Severity) : List Breach :=
  let t := ctl.thresholds
  let (latencyThreshold, rejectThreshold, slippageThreshold) :=
    match severity with
    | .critical => (t.latencyCriticalMs, t.rejectRateCritical, t.slippageCriticalBps)
    | .warn => (t.latencyWarnMs, t.rejectRateWarn, t.slippageWarnBps)
  (if latencyThreshold ≤ ctl.avgLatencyMs then [⟨"latency", severity⟩] else []) ++
    (if rejectThreshold ≤ ctl.rejectRate then [⟨"reject_rate", severity⟩] else []) ++
    (if slippageThreshold ≤ ctl.avgSlippageBps then [⟨"slippage", severity⟩] else [])

/-- The alert of a new anomaly. -/
def anomalyAlert (b : Breach) : RiskAlert where
  level := match b.severity with
    | .critical => .error
    | .warn => .warn
  code := s!"risk.anomaly.{b.metric}.{b.severity.text}"
  message := s!"execution anomaly detected: {b.metric} ({b.severity.text})"

/-- `_emit_anomaly_alerts`. -/
def emitAnomalyAlerts (ctl : AutoDegradationController) (criticalReasons warnReasons : List Breach) :
    AutoDegradationController :=
  let active := criticalReasons ++ warnReasons
  let newReasons := active.filter fun b => b ∉ ctl.activeAnomalies
  (sortedBreaches newReasons).foldl (fun ctl b => ctl.emitAlert (anomalyAlert b))
    { ctl with activeAnomalies := active }

/-- How the reason of every automatic halt starts. -/
def haltPrefix : String := "auto-degradation critical: "

/-- The critical branch of `record_sample`, under the reason it halts for. -/
def halt (ctl : AutoDegradationController) (killSwitch : Option KillSwitch) (reason : String) :
    AutoDegradationController × Option KillSwitch :=
  let ctl := { ctl with mode := .halted, healthyCount := 0 }
  match killSwitch with
  | none => ({ ctl with autoHaltReason := some reason }, none)
  | some ks =>
    match ks.resolveBlock none none with
    | none => ({ ctl with autoHaltReason := some reason }, some (ks.engage reason .global none none).2)
    | some activeGlobal =>
      if activeGlobal.scope = .global ∧ activeGlobal.reason = reason then
        ({ ctl with autoHaltReason := some reason }, some ks)
      else (ctl, some ks)

/-- The healthy branch of `record_sample`. -/
def heal (ctl : AutoDegradationController) (killSwitch : Option KillSwitch) :
    AutoDegradationController × Option KillSwitch :=
  let ctl := { ctl with healthyCount := ctl.healthyCount + 1 }
  if ctl.recoverHealthySamples ≤ ctl.healthyCount then
    let ctl := { ctl with mode := .normal }
    match killSwitch, ctl.autoHaltReason with
    | some ks, some reason =>
      ({ ctl with autoHaltReason := none },
        match ks.resolveBlock none none with
        | some current => if current.reason = reason then some (ks.release .global none none).2 else some ks
        | none => some ks)
    | _, _ => (ctl, killSwitch)
  else (ctl, killSwitch)

/-- The alert of a mode change. -/
def modeAlert (mode previous : ProtectionMode) (reasons : List String) : RiskAlert where
  level := modeAlertLevel mode
  code := "risk.degradation.mode_changed"
  message := s!"mode={mode.value} prev={previous.value} " ++
    "reasons=" ++ (if reasons = [] then "healthy" else ", ".intercalate reasons)

/-- `record_sample`, of a sample that passed the checks: the window, the alerts
of new anomalies, then one of the three branches. -/
def observe (ctl : AutoDegradationController) (killSwitch : Option KillSwitch) (sample : ExecutionHealthSample) :
    List String × AutoDegradationController × Option KillSwitch :=
  let ctl := { ctl with window := ctl.window.append sample }
  let criticalReasons := ctl.collectMetricBreaches .critical
  let warnReasons := ctl.collectMetricBreaches .warn
  let ctl := ctl.emitAnomalyAlerts criticalReasons warnReasons
  if criticalReasons ≠ [] then
    let reasons := (sortedBreaches criticalReasons).map Breach.reason
    (reasons, ctl.halt killSwitch (haltPrefix ++ ", ".intercalate reasons))
  else if warnReasons ≠ [] then
    ((sortedBreaches warnReasons).map Breach.reason, { ctl with mode := .degraded, healthyCount := 0 }, killSwitch)
  else ([], ctl.heal killSwitch)

/-- `record_sample`. -/
def recordSample (ctl : AutoDegradationController) (killSwitch : Option KillSwitch) (sample : ExecutionHealthSample) :
    Except PyError DegradationSnapshot × AutoDegradationController × Option KillSwitch :=
  if sample.latencyMs < 0 then (.error (.valueError "latency_ms must be >= 0"), ctl, killSwitch)
  else if sample.slippageBps < 0 then (.error (.valueError "slippage_bps must be >= 0"), ctl, killSwitch)
  else
    let previousMode := ctl.mode
    let (reasons, ctl, killSwitch) := ctl.observe killSwitch sample
    let ctl := if previousMode ≠ ctl.mode then ctl.emitAlert (modeAlert ctl.mode previousMode reasons) else ctl
    (.ok ⟨ctl.mode, ctl.avgLatencyMs, ctl.rejectRate, ctl.avgSlippageBps, reasons⟩, ctl, killSwitch)

end AutoDegradationController

end CryptoQuant
