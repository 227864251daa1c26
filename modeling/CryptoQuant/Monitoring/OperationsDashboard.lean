import CryptoQuant.Monitoring.Performance
import Mathlib.Data.List.DropRight
import Mathlib.Data.List.Sort

/-!
# The operations dashboard

`monitoring/operations_dashboard.py`: performance snapshots, risk events and health samples
are recorded as they arrive, the last `max_samples` of each kind, and summarised over a
window of time. `str.upper` is the interpreter's.
-/

namespace CryptoQuant.OperationsDashboard
set_option autoImplicit false

open Performance (PerformanceSnapshot)

/-- `RiskEvent`. -/
structure RiskEvent where
  ts : DateTime
  level : String
  code : String
  message : String

/-- `StrategyHealthSample`. -/
structure StrategyHealthSample where
  ts : DateTime
  strategyId : String
  healthy : Bool
  latencyMs : ℚ
  errorRate : ℚ

/-- `PnLView`. -/
structure PnLView where
  ts : DateTime
  realizedPnl : ℚ
  unrealizedPnl : ℚ
  netPnl : ℚ
  maxDrawdown : ℚ

/-- `StrategyHealthView`. -/
structure StrategyHealthView where
  strategyId : String
  latestHealthy : Bool
  uptimeRatio : ℚ
  avgLatencyMs : ℚ
  avgErrorRate : ℚ

/-- `PerformanceSummary`. -/
structure PerformanceSummary where
  period : String
  fromTs : DateTime
  toTs : DateTime
  samples : ℕ
  netPnlOpen : ℚ
  netPnlClose : ℚ
  netPnlChange : ℚ
  netPnlAvg : ℚ
  netPnlMax : ℚ
  netPnlMin : ℚ
  riskEventCount : ℕ
  riskEventByLevel : Py.Dict String ℕ
  strategyHealth : Py.Dict String StrategyHealthView

/-- `OperationalDashboardView`. -/
structure OperationalDashboardView where
  pnl : PnLView
  riskEventTotal : ℕ
  riskEventByLevel : Py.Dict String ℕ
  strategyHealth : Py.Dict String StrategyHealthView

/-- `OperationalDashboard`. -/
structure OperationalDashboard where
  maxSamples : ℕ
  large : 10 ≤ maxSamples
  perfSamples : List PerformanceSnapshot := []
  riskEvents : List RiskEvent := []
  healthSamples : List StrategyHealthSample := []

/-- `_count_risk_levels`. -/
def countRiskLevels (events : List RiskEvent) : Py.Dict String ℕ :=
  events.foldl (fun out event => out.set event.level (out.getD event.level 0 + 1)) .empty

/-- The view of the samples of one strategy. -/
def healthView (strategyId : String) (strategySamples : List StrategyHealthSample) : StrategyHealthView :=
  let strategySamples := strategySamples.insertionSort fun s t => s.ts ≤ t.ts
  let healthyCount := (strategySamples.filter StrategyHealthSample.healthy).length
  { strategyId
    -- no strategy is listed without a sample
    latestHealthy := (strategySamples.getLast?.map StrategyHealthSample.healthy).getD false
    uptimeRatio := healthyCount / strategySamples.length
    avgLatencyMs := (strategySamples.map StrategyHealthSample.latencyMs).sum / strategySamples.length
    avgErrorRate := (strategySamples.map StrategyHealthSample.errorRate).sum / strategySamples.length }

/-- `grouped`, of `_aggregate_health`. -/
def grouped (samples : List StrategyHealthSample) : Py.Dict String (List StrategyHealthSample) :=
  samples.foldl (fun grouped sample => grouped.set sample.strategyId (grouped.getD sample.strategyId [] ++ [sample])) .empty

/-- `_aggregate_health`. -/
def aggregateHealth (samples : List StrategyHealthSample) : Py.Dict String StrategyHealthView :=
  match samples with
  | [] => .empty
  | _ :: _ => (grouped samples).mapValues healthView

/-- What was recorded from `start` to `anchor`. -/
def window {α : Type} (ts : α → DateTime) (start anchor : DateTime) (items : List α) : List α :=
  items.filter fun item => start ≤ ts item ∧ ts item ≤ anchor

/-- The summary of what a window holds. -/
def summary (period : String) (start anchor : DateTime) (perf : List PerformanceSnapshot) (risk : List RiskEvent)
    (health : List StrategyHealthSample) : Except PyError PerformanceSummary :=
  match perf.map PerformanceSnapshot.netPnl with
  | [] => .error (.valueError "no performance sample in requested period")
  | first :: rest =>
    let netValues := first :: rest
    let last := rest.getLastD first
    .ok {
      period
      fromTs := start
      toTs := anchor
      samples := perf.length
      netPnlOpen := first
      netPnlClose := last
      netPnlChange := last - first
      netPnlAvg := netValues.sum / netValues.length
      netPnlMax := rest.foldl max first
      netPnlMin := rest.foldl min first
      riskEventCount := risk.length
      riskEventByLevel := countRiskLevels risk
      strategyHealth := aggregateHealth health }

/-- Where the window of a period begins. -/
def periodStart (period : String) (anchor : DateTime) : DateTime :=
  if period = "daily" then anchor - 86400 * microsPerSecond else anchor - 7 * 86400 * microsPerSecond

namespace OperationalDashboard

/-- `__init__`. -/
def new (maxSamples : ℤ) : Except PyError OperationalDashboard :=
  if small : maxSamples < 10 then .error (.valueError "max_samples must be >= 10")
  else .ok { maxSamples := maxSamples.toNat, large := by omega }

/-- `trim`. -/
def trim {α : Type} (maxSamples : ℕ) (items : List α) : List α :=
  if items.length ≤ maxSamples then items else items.rtake maxSamples

/-- `_trim_if_needed`. -/
def trimIfNeeded (dash : OperationalDashboard) : OperationalDashboard :=
  { dash with
    perfSamples := trim dash.maxSamples dash.perfSamples
    riskEvents := trim dash.maxSamples dash.riskEvents
    healthSamples := trim dash.maxSamples dash.healthSamples }

/-- `live_view`. -/
def liveView (dash : OperationalDashboard) : Except PyError OperationalDashboardView :=
  match dash.perfSamples.getLast? with
  | none => .error (.valueError "no performance sample available")
  | some latest => .ok {
      pnl := {
        ts := latest.ts
        realizedPnl := latest.realizedPnl
        unrealizedPnl := latest.unrealizedPnl
        netPnl := latest.netPnl
        maxDrawdown := latest.maxDrawdown }
      riskEventTotal := dash.riskEvents.length
      riskEventByLevel := countRiskLevels dash.riskEvents
      strategyHealth := aggregateHealth dash.healthSamples }

/-- `summarize`. -/
def summarize (dash : OperationalDashboard) (period : String) (asOf : Option DateTime) (now : DateTime) :
    Except PyError PerformanceSummary :=
  if period ≠ "daily" ∧ period ≠ "weekly" then .error (.valueError "period must be one of: daily, weekly")
  else
    let anchor := asOf.getD now
    let start := periodStart period anchor
    summary period start anchor (window PerformanceSnapshot.ts start anchor dash.perfSamples)
      (window RiskEvent.ts start anchor dash.riskEvents) (window StrategyHealthSample.ts start anchor dash.healthSamples)

end OperationalDashboard

/-! ## Runs -/

/-- A record, with what the clock shows where it has no time of its own. -/
inductive Call
  | recordPerformance (snapshot : PerformanceSnapshot)
  | recordRiskEvent (level code message : String) (ts : Option DateTime) (now : DateTime)
  | recordStrategyHealth (strategyId : String) (healthy : Bool) (latencyMs errorRate : ℚ) (ts : Option DateTime)
      (now : DateTime)

variable (upper : String → String)

/-- `record_performance`, `record_risk_event` and `record_strategy_health`. -/
def call (dash : OperationalDashboard) : Call → Except PyError Unit × OperationalDashboard
  | .recordPerformance snapshot =>
    (.ok (), { dash with perfSamples := dash.perfSamples ++ [snapshot] }.trimIfNeeded)
  | .recordRiskEvent level code message ts now =>
    let event : RiskEvent := { ts := ts.getD now, level := upper level, code, message }
    (.ok (), { dash with riskEvents := dash.riskEvents ++ [event] }.trimIfNeeded)
  | .recordStrategyHealth strategyId healthy latencyMs errorRate ts now =>
    if latencyMs < 0 then (.error (.valueError "latency_ms must be non-negative"), dash)
    else if errorRate < 0 ∨ errorRate > 1 then (.error (.valueError "error_rate must be in [0, 1]"), dash)
    else
      let sample : StrategyHealthSample := { ts := ts.getD now, strategyId, healthy, latencyMs, errorRate }
      (.ok (), { dash with healthSamples := dash.healthSamples ++ [sample] }.trimIfNeeded)

/-- The dashboard as a component. -/
def machine : Run.Machine OperationalDashboard Call (Except PyError Unit) := ⟨call upper⟩

end CryptoQuant.OperationsDashboard
