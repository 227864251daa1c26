import CryptoQuant.Risk.AlertSink
import CryptoQuant.Risk.AutoHalt

/-!
# The alerts of the degradation controller are edge-triggered

The controller remembers the breaches of the last accepted sample and tells the ones
that are new. What it remembers is a function of the accepted samples alone: the
metrics that, averaged over the last of them, are at or above a threshold. So an
anomaly is told exactly when an average rises over its threshold.
-/

namespace CryptoQuant.AutoDegradationController
set_option autoImplicit false

/-- The metrics of a sample. -/
inductive HealthMetric
  | latency | rejectRate | slippage
deriving DecidableEq, Repr

namespace HealthMetric

/-- The metric, as the names of the anomalies spell it. -/
def name : HealthMetric → String
  | latency => "latency"
  | rejectRate => "reject_rate"
  | slippage => "slippage"

/-- What the metric reads off a sample. -/
def of : HealthMetric → ExecutionHealthSample → ℚ
  | latency => ExecutionHealthSample.latencyMs
  | rejectRate => fun s => if s.rejected then 1 else 0
  | slippage => ExecutionHealthSample.slippageBps

/-- The threshold of the metric at a severity. -/
def threshold (t : DegradationThresholds) : HealthMetric → Severity → ℚ
  | latency, .warn => t.latencyWarnMs
  | latency, .critical => t.latencyCriticalMs
  | rejectRate, .warn => t.rejectRateWarn
  | rejectRate, .critical => t.rejectRateCritical
  | slippage, .warn => t.slippageWarnBps
  | slippage, .critical => t.slippageCriticalBps

/-- The metric averaged over the last `n` of some samples. -/
def averageOver (metric : HealthMetric) (n : ℕ) (samples : List ExecutionHealthSample) : ℚ :=
  ((samples.rtake n).map metric.of).sum / (samples.rtake n).length

/-- There is a sample, and the metric averaged over the last `n` of them is at or
above its threshold. -/
def Over (metric : HealthMetric) (t : DegradationThresholds) (n : ℕ) (severity : Severity)
    (samples : List ExecutionHealthSample) : Prop :=
  samples ≠ [] ∧ metric.threshold t severity ≤ metric.averageOver n samples

instance (metric : HealthMetric) (t : DegradationThresholds) (n : ℕ) (severity : Severity)
    (samples : List ExecutionHealthSample) : Decidable (metric.Over t n severity samples) :=
  inferInstanceAs (Decidable (_ ∧ _))

/-- The code of the alert of the metric. -/
def alertCode (metric : HealthMetric) (severity : Severity) : String :=
  s!"risk.anomaly.{metric.name}.{severity.text}"

/-- A critical average is also over the warning threshold. -/
theorem Over.warn {metric : HealthMetric} {t : DegradationThresholds} {n : ℕ} {samples : List ExecutionHealthSample}
    (admitted : t.check = .ok ()) (above : metric.Over t n .critical samples) : metric.Over t n .warn samples := by
  have ordered : metric.threshold t .warn ≤ metric.threshold t .critical := by
    unfold DegradationThresholds.check at admitted
    split_ifs at admitted with _ _ _ latency rate slip
    cases metric with
    | latency => exact (not_le.mp latency).le
    | rejectRate => exact (not_le.mp rate).le
    | slippage => exact (not_le.mp slip).le
  exact ⟨above.1, ordered.trans above.2⟩

end HealthMetric

/-! ## The breaches of a window -/

section Breaches
variable {ctl : AutoDegradationController}

/-- The breaches of a severity are those of the metrics at or above its threshold. -/
theorem mem_collectMetricBreaches {severity : Severity} {b : Breach} : b ∈ ctl.collectMetricBreaches severity ↔
    ∃ metric : HealthMetric, b = ⟨metric.name, severity⟩ ∧
      metric.threshold ctl.thresholds severity ≤ ctl.average metric.of := by
  have metrics : (∃ metric : HealthMetric, b = ⟨metric.name, severity⟩ ∧
      metric.threshold ctl.thresholds severity ≤ ctl.average metric.of) ↔
      (b = ⟨"latency", severity⟩ ∧ HealthMetric.latency.threshold ctl.thresholds severity ≤ ctl.avgLatencyMs) ∨
      (b = ⟨"reject_rate", severity⟩ ∧ HealthMetric.rejectRate.threshold ctl.thresholds severity ≤ ctl.rejectRate) ∨
      (b = ⟨"slippage", severity⟩ ∧ HealthMetric.slippage.threshold ctl.thresholds severity ≤ ctl.avgSlippageBps) := by
    constructor
    · rintro ⟨metric, same, above⟩
      cases metric with
      | latency => exact .inl ⟨same, above⟩
      | rejectRate => exact .inr (.inl ⟨same, above⟩)
      | slippage => exact .inr (.inr ⟨same, above⟩)
    · rintro (⟨same, above⟩ | ⟨same, above⟩ | ⟨same, above⟩)
      · exact ⟨.latency, same, above⟩
      · exact ⟨.rejectRate, same, above⟩
      · exact ⟨.slippage, same, above⟩
  have item {p : Prop} [Decidable p] (x : Breach) : b ∈ (if p then [x] else []) ↔ b = x ∧ p := by
    by_cases h : p <;> simp [h]
  rw [metrics]
  unfold collectMetricBreaches
  cases severity with
  | warn =>
    simp only [List.mem_append, item, or_assoc]
    exact Iff.rfl
  | critical =>
    simp only [List.mem_append, item, or_assoc]
    exact Iff.rfl

/-- Two breaches of the metrics with one code are one. -/
theorem alertCode_injective {metric metric' : HealthMetric} {severity severity' : Severity}
    (same : metric.alertCode severity = metric'.alertCode severity') : metric = metric' ∧ severity = severity' := by
  revert same
  cases metric <;> cases metric' <;> cases severity <;> cases severity' <;> decide

theorem alertCode_ne_modeChanged (metric : HealthMetric) (severity : Severity) :
    metric.alertCode severity ≠ "risk.degradation.mode_changed" := by
  cases metric <;> cases severity <;> decide

end Breaches

/-! ## A sample -/

/-- The part of a controller that decides about its anomalies. -/
structure Notes where
  thresholds : DegradationThresholds
  window : Py.Deque ExecutionHealthSample
  alertSink : Option (List RiskAlert)
  activeAnomalies : List Breach

def notes (ctl : AutoDegradationController) : Notes :=
  ⟨ctl.thresholds, ctl.window, ctl.alertSink, ctl.activeAnomalies⟩

section Step
variable {ctl : AutoDegradationController} {killSwitch : Option KillSwitch} {sample : ExecutionHealthSample}

/-- The three branches after the anomalies leave the notes alone. -/
theorem halt_notes (ctl : AutoDegradationController) (killSwitch : Option KillSwitch) (reason : String) :
    (ctl.halt killSwitch reason).1.notes = ctl.notes := by
  unfold halt
  cases killSwitch with
  | none => rfl
  | some ks =>
    simp only
    cases ks.resolveBlock none none with
    | none => rfl
    | some current =>
      simp only
      split <;> rfl

theorem heal_notes (ctl : AutoDegradationController) (killSwitch : Option KillSwitch) :
    (ctl.heal killSwitch).1.notes = ctl.notes := by
  unfold heal
  simp only
  split
  · split <;> rfl
  · rfl

/-- The breaches of the window with the sample in it. -/
def activeAt (ctl : AutoDegradationController) (sample : ExecutionHealthSample) : List Breach :=
  ctl.breachesAt sample .critical ++ ctl.breachesAt sample .warn

theorem observe_notes (ctl : AutoDegradationController) (killSwitch : Option KillSwitch) (sample : ExecutionHealthSample) :
    (ctl.observe killSwitch sample).2.1.notes = (ctl.noted sample).notes := by
  by_cases critical : ctl.breachesAt sample .critical ≠ []
  · have seen : ctl.observe killSwitch sample = (_, (ctl.noted sample).halt killSwitch _) := if_pos critical
    rw [seen]
    exact halt_notes _ _ _
  · by_cases warn : ctl.breachesAt sample .warn ≠ []
    · have seen : ctl.observe killSwitch sample =
          (_, { ctl.noted sample with mode := .degraded, healthyCount := 0 }, killSwitch) :=
        (if_neg critical).trans (if_pos warn)
      rw [seen]
      rfl
    · have seen : ctl.observe killSwitch sample = ([], (ctl.noted sample).heal killSwitch) :=
        (if_neg critical).trans (if_neg warn)
      rw [seen]
      exact heal_notes _ _

/-- Alerts leave the rest of the notes alone, and tell the sink their codes. -/
theorem foldl_emitAlert (ctl : AutoDegradationController) (bs : List Breach) :
    (bs.foldl (fun ctl b => ctl.emitAlert (anomalyAlert b)) ctl).notes =
      { ctl.notes with alertSink := ctl.alertSink.map (· ++ bs.map anomalyAlert) } := by
  induction bs generalizing ctl with
  | nil =>
    have same : ctl.alertSink.map (· ++ []) = ctl.alertSink := by simp
    rw [List.foldl_nil, List.map_nil, same]
    rfl
  | cons b bs ih =>
    rw [List.foldl_cons, ih]
    simp [notes, emitAlert, Function.comp_def]

/-- The sample put into the window: its breaches become the active ones, and the
new ones among them are told. -/
theorem noted_notes (ctl : AutoDegradationController) (sample : ExecutionHealthSample) :
    (ctl.noted sample).notes =
      { thresholds := ctl.thresholds, window := ctl.window.append sample,
        alertSink := ctl.alertSink.map
          (· ++ (sortedBreaches ((ctl.activeAt sample).filter fun b => b ∉ ctl.activeAnomalies)).map anomalyAlert),
        activeAnomalies := ctl.activeAt sample } :=
  foldl_emitAlert _ _

/-- A rejected sample changes nothing. -/
theorem recordSample_of_invalid (ctl : AutoDegradationController) (killSwitch : Option KillSwitch)
    (invalid : ¬ Valid sample) :
    ∃ e, ctl.recordSample killSwitch sample = (.error e, ctl, killSwitch) := by
  unfold recordSample
  by_cases latency : sample.latencyMs < 0
  · exact ⟨_, if_pos latency⟩
  · have slippage : sample.slippageBps < 0 := by
      by_contra h
      exact invalid ⟨not_lt.mp latency, not_lt.mp h⟩
    exact ⟨_, (if_neg latency).trans (if_pos slippage)⟩

/-- The codes an accepted sample tells: those of its new breaches, and that of a
mode change. -/
def toldCodes (ctl : AutoDegradationController) (sample : ExecutionHealthSample) (mode : ProtectionMode) : List String :=
  (sortedBreaches ((ctl.activeAt sample).filter fun b => b ∉ ctl.activeAnomalies)).map (fun b => (anomalyAlert b).code) ++
    if ctl.mode ≠ mode then ["risk.degradation.mode_changed"] else []

/-- **Step lemma**: what an accepted sample does to the notes. -/
theorem recordSample_of_valid (ctl : AutoDegradationController) (killSwitch : Option KillSwitch)
    (valid : Valid sample) :
    let next := (ctl.recordSample killSwitch sample).2.1
    next.thresholds = ctl.thresholds ∧ next.window = ctl.window.append sample ∧
      next.activeAnomalies = ctl.activeAt sample ∧
      Told ctl.alertSink next.alertSink (ctl.toldCodes sample next.mode) := by
  intro next
  let seen := (ctl.observe killSwitch sample).2.1
  have recorded : next = if ctl.mode ≠ seen.mode then
      seen.emitAlert (modeAlert seen.mode ctl.mode (ctl.observe killSwitch sample).1) else seen := by
    show (ctl.recordSample killSwitch sample).2.1 = _
    unfold recordSample
    rw [if_neg (not_lt.mpr valid.1), if_neg (not_lt.mpr valid.2)]
  have notes_ : seen.notes = _ := (observe_notes ctl killSwitch sample).trans (noted_notes ctl sample)
  have anomalies : Told ctl.alertSink seen.alertSink
      ((sortedBreaches ((ctl.activeAt sample).filter fun b => b ∉ ctl.activeAnomalies)).map
        fun b => (anomalyAlert b).code) :=
    ⟨_, congrArg Notes.alertSink notes_, by simp⟩
  unfold toldCodes
  by_cases changed : ctl.mode ≠ seen.mode
  · rw [if_pos changed] at recorded
    have mode : next.mode = seen.mode := by rw [recorded]; rfl
    rw [mode, if_pos changed, recorded]
    exact ⟨congrArg Notes.thresholds notes_, congrArg Notes.window notes_, congrArg Notes.activeAnomalies notes_,
      anomalies.trans (.one _ _)⟩
  · rw [if_neg changed] at recorded
    rw [recorded, if_neg changed, List.append_nil]
    exact ⟨congrArg Notes.thresholds notes_, congrArg Notes.window notes_, congrArg Notes.activeAnomalies notes_,
      anomalies⟩

theorem mem_activeAt {b : Breach} : b ∈ ctl.activeAt sample ↔ ∃ (metric : HealthMetric) (severity : Severity),
    b = ⟨metric.name, severity⟩ ∧ metric.threshold ctl.thresholds severity ≤
      { ctl with window := ctl.window.append sample }.average metric.of := by
  unfold activeAt breachesAt
  rw [List.mem_append, mem_collectMetricBreaches, mem_collectMetricBreaches]
  constructor
  · rintro (⟨metric, same, above⟩ | ⟨metric, same, above⟩)
    · exact ⟨metric, .critical, same, above⟩
    · exact ⟨metric, .warn, same, above⟩
  · rintro ⟨metric, severity, same, above⟩
    cases severity with
    | warn => exact .inr ⟨metric, same, above⟩
    | critical => exact .inl ⟨metric, same, above⟩

end Step

/-! ## A run of samples -/

/-- The controller as a component that answers samples, each with what the kill
switch, which others share, is at that moment. -/
def recorder : Run.Machine AutoDegradationController (Option KillSwitch × ExecutionHealthSample)
    (Except PyError DegradationSnapshot) :=
  ⟨fun ctl call => ((ctl.recordSample call.1 call.2).1, (ctl.recordSample call.1 call.2).2.1)⟩

/-- The accepted samples of a run. -/
def acceptedSamples (calls : List (Option KillSwitch × ExecutionHealthSample)) : List ExecutionHealthSample :=
  (calls.map Prod.snd).filter fun sample => Valid sample

section Run
variable {t : DegradationThresholds} {n : ℕ} {samples : List ExecutionHealthSample} {ctl : AutoDegradationController}
  {killSwitch : Option KillSwitch} {sample : ExecutionHealthSample}

theorem acceptedSamples_snoc (calls : List (Option KillSwitch × ExecutionHealthSample))
    (call : Option KillSwitch × ExecutionHealthSample) : acceptedSamples (calls ++ [call]) =
      acceptedSamples calls ++ if Valid call.2 then [call.2] else [] := by
  unfold acceptedSamples
  rw [List.map_append, List.filter_append]
  by_cases valid : Valid call.2 <;> simp [valid]

/-- What the controller holds after some accepted samples: the last of them, and
the breaches of their averages. -/
structure Watches (t : DegradationThresholds) (n : ℕ) (samples : List ExecutionHealthSample)
    (ctl : AutoDegradationController) : Prop where
  thresholds : ctl.thresholds = t
  maxlen : ctl.window.maxlen = n
  items : ctl.window.items = samples.rtake n
  anomalies : ∀ (metric : HealthMetric) (severity : Severity),
    (⟨metric.name, severity⟩ : Breach) ∈ ctl.activeAnomalies ↔ metric.Over t n severity samples
  sink : ctl.alertSink.isSome

theorem HealthMetric.name_injective {metric metric' : HealthMetric} (same : metric.name = metric'.name) :
    metric = metric' := by
  revert same
  cases metric <;> cases metric' <;> decide

/-- The breaches of the window with one more sample in it are those of the samples. -/
theorem Watches.mem_activeAt (watches : Watches t n samples ctl) (metric : HealthMetric) (severity : Severity) :
    (⟨metric.name, severity⟩ : Breach) ∈ ctl.activeAt sample ↔ metric.Over t n severity (samples ++ [sample]) := by
  have average (metric : HealthMetric) : { ctl with window := ctl.window.append sample }.average metric.of =
      metric.averageOver n (samples ++ [sample]) := by
    have items : (ctl.window.append sample).items = (samples ++ [sample]).rtake n := by
      rw [Py.Deque.items_append (by rw [watches.maxlen]; exact watches.items), watches.maxlen]
    unfold HealthMetric.averageOver
    rw [← items]
    rfl
  rw [AutoDegradationController.mem_activeAt]
  constructor
  · rintro ⟨metric', severity', same, above⟩
    obtain ⟨name, rfl⟩ := Breach.mk.inj same
    cases HealthMetric.name_injective name
    rw [average, watches.thresholds] at above
    exact ⟨by simp, above⟩
  · rintro ⟨-, above⟩
    refine ⟨metric, severity, rfl, ?_⟩
    rw [average, watches.thresholds]
    exact above

/-- **Step lemma**: an accepted sample joins the ones the controller holds. -/
theorem Watches.step (watches : Watches t n samples ctl) (valid : Valid sample) :
    Watches t n (samples ++ [sample]) (ctl.recordSample killSwitch sample).2.1 := by
  obtain ⟨thresholds, window, anomalies, told⟩ := recordSample_of_valid ctl killSwitch valid
  refine ⟨thresholds.trans watches.thresholds, ?_, ?_, fun metric severity => ?_, told.isSome watches.sink⟩
  · rw [window, Py.Deque.maxlen_append]
    exact watches.maxlen
  · rw [window, Py.Deque.items_append (by rw [watches.maxlen]; exact watches.items), watches.maxlen]
  · rw [anomalies]
    exact watches.mem_activeAt metric severity

theorem watches_new {windowSize needed : ℤ} {alerts : List RiskAlert}
    (built : new t windowSize needed (some alerts) = .ok ctl) : Watches t windowSize.toNat [] ctl := by
  rw [new_eq built]
  refine ⟨rfl, rfl, (List.rtake_nil _).symm, fun metric severity => ?_, rfl⟩
  simp [HealthMetric.Over]

/-- **Run lemma.** -/
theorem watches_after (watches : Watches t n [] ctl) (calls : List (Option KillSwitch × ExecutionHealthSample)) :
    Watches t n (acceptedSamples calls) (recorder.after ctl calls) := by
  refine recorder.invariant (P := fun done ctl => Watches t n (acceptedSamples done) ctl) watches ?_
    (List.append_nil calls).symm
  intro done call rest ctl' _ _ held
  rw [acceptedSamples_snoc]
  by_cases valid : Valid call.2
  · rw [if_pos valid]
    exact held.step valid
  · rw [if_neg valid, List.append_nil]
    obtain ⟨e, unchanged⟩ := recordSample_of_invalid ctl' call.1 valid
    have same : recorder.next ctl' call = ctl' := congrArg (fun r => r.2.1) unchanged
    rw [same]
    exact held

/-- The alert of a metric is told where its average is over the threshold and was
not before. -/
theorem Watches.told_iff (watches : Watches t n samples ctl) (metric : HealthMetric) (severity : Severity)
    (mode : ProtectionMode) : metric.alertCode severity ∈ ctl.toldCodes sample mode ↔
      metric.Over t n severity (samples ++ [sample]) ∧ ¬ metric.Over t n severity samples := by
  have other : metric.alertCode severity ∉ if ctl.mode ≠ mode then ["risk.degradation.mode_changed"] else [] := by
    split
    · rw [List.mem_singleton]
      exact alertCode_ne_modeChanged metric severity
    · exact List.not_mem_nil
  unfold toldCodes
  rw [List.mem_append, or_iff_left other, List.mem_map, ← watches.mem_activeAt, ← watches.anomalies]
  constructor
  · rintro ⟨b, member, code⟩
    rw [sortedBreaches, List.mem_insertionSort, List.mem_filter] at member
    obtain ⟨active, fresh⟩ := member
    obtain ⟨metric', severity', rfl, -⟩ := AutoDegradationController.mem_activeAt.mp active
    have codes : metric'.alertCode severity' = metric.alertCode severity := code
    obtain ⟨rfl, rfl⟩ := alertCode_injective codes
    exact ⟨active, of_decide_eq_true fresh⟩
  · rintro ⟨active, fresh⟩
    refine ⟨⟨metric.name, severity⟩, ?_, rfl⟩
    rw [sortedBreaches, List.mem_insertionSort, List.mem_filter]
    exact ⟨active, decide_eq_true fresh⟩

theorem modeChanged_iff (ctl : AutoDegradationController) (sample : ExecutionHealthSample) (mode : ProtectionMode) :
    "risk.degradation.mode_changed" ∈ ctl.toldCodes sample mode ↔ mode ≠ ctl.mode := by
  have other : "risk.degradation.mode_changed" ∉ (sortedBreaches ((ctl.activeAt sample).filter
      fun b => b ∉ ctl.activeAnomalies)).map (fun b => (anomalyAlert b).code) := by
    rw [List.mem_map]
    rintro ⟨b, member, code⟩
    rw [sortedBreaches, List.mem_insertionSort, List.mem_filter] at member
    obtain ⟨metric, severity, rfl, -⟩ := AutoDegradationController.mem_activeAt.mp member.1
    exact alertCode_ne_modeChanged metric severity code
  unfold toldCodes
  rw [List.mem_append, or_iff_right other]
  by_cases changed : ctl.mode ≠ mode
  · simp [changed, changed.symm]
  · simp [not_not.mp changed]

/-- **The anomaly alerts are edge-triggered on the sliding window**, over every
run of samples: at an accepted sample the alert of a metric at a severity is told
exactly when the metric, averaged over the last accepted samples, is at or above its
threshold and was not at the accepted sample before; a critical average is also over
the warning threshold; and a mode change is told exactly when the mode changes. A
rejected sample leaves the controller as it is. -/
theorem anomaly_alerts_edge_triggered {windowSize needed : ℤ} {alerts : List RiskAlert}
    (built : new t windowSize needed (some alerts) = .ok ctl)
    (done : List (Option KillSwitch × ExecutionHealthSample)) (call : Option KillSwitch × ExecutionHealthSample) :
    let before := recorder.after ctl done
    let after := recorder.next before call
    let told := newCodes before.alertSink after.alertSink
    (Valid call.2 →
      (∀ (metric : HealthMetric) (severity : Severity), metric.alertCode severity ∈ told ↔
        metric.Over t windowSize.toNat severity (acceptedSamples done ++ [call.2]) ∧
          ¬ metric.Over t windowSize.toNat severity (acceptedSamples done)) ∧
      (∀ metric : HealthMetric, metric.Over t windowSize.toNat .critical (acceptedSamples done ++ [call.2]) →
        metric.Over t windowSize.toNat .warn (acceptedSamples done ++ [call.2])) ∧
      ("risk.degradation.mode_changed" ∈ told ↔ after.mode ≠ before.mode)) ∧
    (¬ Valid call.2 → after = before) := by
  intro before after told
  have watches : Watches t windowSize.toNat (acceptedSamples done) before := watches_after (watches_new built) done
  refine ⟨fun valid => ?_, fun invalid => ?_⟩
  · obtain ⟨-, -, -, heard⟩ := recordSample_of_valid before call.1 valid
    have told_ : told = before.toldCodes call.2 after.mode := heard.newCodes_eq watches.sink
    have admitted : t.check = .ok () := by
      obtain ⟨_, checked, -⟩ := Run.bind_ok.mp built
      exact checked
    rw [told_]
    exact ⟨fun metric severity => watches.told_iff metric severity _, fun metric above => above.warn admitted,
      modeChanged_iff before call.2 _⟩
  · obtain ⟨e, unchanged⟩ := recordSample_of_invalid before call.1 invalid
    exact congrArg (fun r => r.2.1) unchanged

/-- Latency limits of 80 and 200, and samples of latencies around the first. -/
def latencySteps (ms : ℚ) : Option KillSwitch × ExecutionHealthSample := (none, ⟨ms, false, 0⟩)

theorem anomaly_alerts_edge_triggered_again :
    ∃ ctl, new ⟨80, 200, 2 / 10, 5 / 10, 4, 12⟩ 1 3 (some []) = .ok ctl ∧
      let before := recorder.after ctl [latencySteps 100, latencySteps 110, latencySteps (-1), latencySteps 50]
      HealthMetric.latency.alertCode .warn ∈ newCodes before.alertSink (recorder.next before (latencySteps 100)).alertSink := by
  obtain ⟨ctl, built, -⟩ := Run.endsIn_iff.mp (show Run.endsIn
    (new ⟨80, 200, 2 / 10, 5 / 10, 4, 12⟩ 1 3 (some [])) (fun _ => true) = true by decide +kernel)
  have edges := (anomaly_alerts_edge_triggered built
    [latencySteps 100, latencySteps 110, latencySteps (-1), latencySteps 50] (latencySteps 100)).1 (by decide +kernel)
  exact ⟨ctl, built, (edges.1 .latency .warn).mpr (by decide +kernel)⟩

end Run

end CryptoQuant.AutoDegradationController
