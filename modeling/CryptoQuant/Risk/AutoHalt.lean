import CryptoQuant.Risk.Degradation

/-!
# What a sample does to the kill switch

A controller touches the switch in two places: it engages a free global level on
a critical breach, and on recovery it releases the global block that carries the
reason it remembers. From that follow what one controller promises an operator,
and when several controllers on one switch stay out of each other's way.
-/

namespace CryptoQuant
set_option autoImplicit false

namespace AutoDegradationController

/-- The part of a controller that decides about its mode and the switch. -/
structure Control where
  mode : ProtectionMode
  healthyCount : ℕ
  recoverHealthySamples : ℤ
  autoHaltReason : Option String

def control (ctl : AutoDegradationController) : Control :=
  ⟨ctl.mode, ctl.healthyCount, ctl.recoverHealthySamples, ctl.autoHaltReason⟩

/-- The sample passes the checks of `record_sample`. -/
def Valid (sample : ExecutionHealthSample) : Prop := 0 ≤ sample.latencyMs ∧ 0 ≤ sample.slippageBps

instance (sample : ExecutionHealthSample) : Decidable (Valid sample) := inferInstanceAs (Decidable (_ ∧ _))

/-- The breaches of a severity, once the sample is in the window. -/
def breachesAt (ctl : AutoDegradationController) (sample : ExecutionHealthSample) (severity : Severity) :
    List Breach :=
  { ctl with window := ctl.window.append sample }.collectMetricBreaches severity

/-- The sample is one with a breach. -/
def Breached (ctl : AutoDegradationController) (sample : ExecutionHealthSample) : Prop :=
  ctl.breachesAt sample .critical ≠ [] ∨ ctl.breachesAt sample .warn ≠ []

instance (ctl : AutoDegradationController) (sample : ExecutionHealthSample) : Decidable (ctl.Breached sample) :=
  inferInstanceAs (Decidable (_ ∨ _))

/-- The sample takes the controller back to `NORMAL`. -/
structure Recovers (ctl : AutoDegradationController) (sample : ExecutionHealthSample) : Prop where
  valid : Valid sample
  healthy : ¬ ctl.Breached sample
  enough : ctl.recoverHealthySamples ≤ ctl.healthyCount + 1

/-- The sample releases the global block of the switch: the controller recovers
and the block carries the reason it remembers. -/
structure Releases (ctl : AutoDegradationController) (ks : KillSwitch) (sample : ExecutionHealthSample) : Prop where
  recovers : ctl.Recovers sample
  owned : ∃ reason, ctl.autoHaltReason = some reason ∧ ks.globalReason = some reason

/-- **What a sample can do**, one constructor per branch of `record_sample`. -/
inductive Sampled (ctl : AutoDegradationController) (ks : KillSwitch) (sample : ExecutionHealthSample) :
    Except PyError DegradationSnapshot × AutoDegradationController × Option KillSwitch → Prop where
  | refused (e : PyError) (invalid : ¬ Valid sample) : Sampled ctl ks sample (.error e, ctl, some ks)
  | engaged (snap : DegradationSnapshot) (ctl' : AutoDegradationController) (reasons : String) (valid : Valid sample)
      (breached : ctl.Breached sample) (free : ks.globalReason = none)
      (control : ctl'.control =
        { ctl.control with mode := .halted, healthyCount := 0, autoHaltReason := some (haltPrefix ++ reasons) }) :
      Sampled ctl ks sample (.ok snap, ctl', some { ks with globalReason := some (haltPrefix ++ reasons) })
  | halted (snap : DegradationSnapshot) (ctl' : AutoDegradationController) (auto : Option String) (valid : Valid sample)
      (breached : ctl.Breached sample) (blocked : ks.globalReason ≠ none)
      (adopted : auto = ctl.autoHaltReason ∨ ∃ reasons, auto = some (haltPrefix ++ reasons) ∧ auto = ks.globalReason)
      (control : ctl'.control = { ctl.control with mode := .halted, healthyCount := 0, autoHaltReason := auto }) :
      Sampled ctl ks sample (.ok snap, ctl', some ks)
  | degraded (snap : DegradationSnapshot) (ctl' : AutoDegradationController) (valid : Valid sample)
      (breached : ctl.Breached sample) (uncritical : ctl.breachesAt sample .critical = [])
      (control : ctl'.control = { ctl.control with mode := .degraded, healthyCount := 0 }) :
      Sampled ctl ks sample (.ok snap, ctl', some ks)
  | healing (snap : DegradationSnapshot) (ctl' : AutoDegradationController) (valid : Valid sample)
      (healthy : ¬ ctl.Breached sample) (few : ¬ ctl.recoverHealthySamples ≤ ctl.healthyCount + 1)
      (control : ctl'.control = { ctl.control with healthyCount := ctl.healthyCount + 1 }) :
      Sampled ctl ks sample (.ok snap, ctl', some ks)
  | released (snap : DegradationSnapshot) (ctl' : AutoDegradationController) (releases : ctl.Releases ks sample)
      (control : ctl'.control =
        { ctl.control with mode := .normal, healthyCount := ctl.healthyCount + 1, autoHaltReason := none }) :
      Sampled ctl ks sample (.ok snap, ctl', some { ks with globalReason := none })
  | recovered (snap : DegradationSnapshot) (ctl' : AutoDegradationController) (recovers : ctl.Recovers sample)
      (foreign : ¬ ctl.Releases ks sample)
      (control : ctl'.control =
        { ctl.control with mode := .normal, healthyCount := ctl.healthyCount + 1, autoHaltReason := none }) :
      Sampled ctl ks sample (.ok snap, ctl', some ks)

section Step
variable {ctl : AutoDegradationController} {ks : KillSwitch} {sample : ExecutionHealthSample}

/-- What the constructor builds. -/
theorem new_eq {thresholds : DegradationThresholds} {windowSize needed : ℤ} {sink : Option (List RiskAlert)}
    (built : new thresholds windowSize needed sink = .ok ctl) :
    ctl = { thresholds, window := .empty windowSize.toNat, recoverHealthySamples := needed, alertSink := sink,
            mode := .normal, healthyCount := 0, activeAnomalies := [], autoHaltReason := none } := by
  obtain ⟨_, -, rest⟩ := Run.bind_ok.mp built
  obtain ⟨_, -, rest⟩ := Run.bind_ok.mp rest
  obtain ⟨_, -, rest⟩ := Run.bind_ok.mp rest
  exact (Except.ok.inj rest).symm

/-- Alerts leave the control alone. -/
theorem emitAlert_control (ctl : AutoDegradationController) (alert : RiskAlert) :
    (ctl.emitAlert alert).control = ctl.control := rfl

theorem emitAnomalyAlerts_control (ctl : AutoDegradationController) (criticalReasons warnReasons : List Breach) :
    (ctl.emitAnomalyAlerts criticalReasons warnReasons).control = ctl.control :=
  Run.foldl_frame control (fun ctl b => emitAlert_control ctl (anomalyAlert b)) _ _

/-- The alert of a mode change leaves the control alone. -/
theorem announce_control (ctl : AutoDegradationController) (previous : ProtectionMode) (alert : RiskAlert) :
    (if previous ≠ ctl.mode then ctl.emitAlert alert else ctl).control = ctl.control := by
  split
  · exact emitAlert_control ctl alert
  · rfl

/-- The controller with the sample in its window and its anomalies announced. -/
def noted (ctl : AutoDegradationController) (sample : ExecutionHealthSample) : AutoDegradationController :=
  { ctl with window := ctl.window.append sample }.emitAnomalyAlerts (ctl.breachesAt sample .critical)
    (ctl.breachesAt sample .warn)

theorem noted_control (ctl : AutoDegradationController) (sample : ExecutionHealthSample) :
    (ctl.noted sample).control = ctl.control :=
  emitAnomalyAlerts_control { ctl with window := ctl.window.append sample } _ _

/-- The critical branch: engage a free level, adopt an equal block, or leave a
foreign one. -/
theorem halt_control (ctl : AutoDegradationController) (ks : KillSwitch) (reasons : String) :
    (ks.globalReason = none ∧ ctl.halt (some ks) (haltPrefix ++ reasons) =
      ({ ctl with mode := .halted, healthyCount := 0, autoHaltReason := some (haltPrefix ++ reasons) },
        some { ks with globalReason := some (haltPrefix ++ reasons) })) ∨
    (ks.globalReason ≠ none ∧ ∃ auto, ctl.halt (some ks) (haltPrefix ++ reasons) =
        ({ ctl with mode := .halted, healthyCount := 0, autoHaltReason := auto }, some ks) ∧
      (auto = ctl.autoHaltReason ∨ ∃ reasons, auto = some (haltPrefix ++ reasons) ∧ auto = ks.globalReason)) := by
  unfold halt
  simp only [ks.resolveBlock_global]
  cases block : ks.globalReason with
  | none => exact .inl ⟨rfl, rfl⟩
  | some current =>
    refine .inr ⟨Option.some_ne_none current, ?_⟩
    by_cases same : current = haltPrefix ++ reasons
    · rw [same]
      exact ⟨some (haltPrefix ++ reasons), if_pos ⟨rfl, rfl⟩, .inr ⟨reasons, rfl, rfl⟩⟩
    · exact ⟨ctl.autoHaltReason, if_neg fun both => same both.2, .inl rfl⟩

/-- The healthy branch, when the controller does not recover yet. -/
theorem heal_few (few : ¬ ctl.recoverHealthySamples ≤ ctl.healthyCount + 1) :
    ctl.heal (some ks) = ({ ctl with healthyCount := ctl.healthyCount + 1 }, some ks) := by
  unfold heal
  exact if_neg (by push_cast; exact few)

/-- The healthy branch, when the controller recovers: it forgets its reason, and
releases the block that carries it. -/
theorem heal_enough (enough : ctl.recoverHealthySamples ≤ ctl.healthyCount + 1) :
    ctl.heal (some ks) =
      ({ ctl with mode := .normal, healthyCount := ctl.healthyCount + 1, autoHaltReason := none },
        if ∃ reason, ctl.autoHaltReason = some reason ∧ ks.globalReason = some reason then
          some { ks with globalReason := none }
        else some ks) := by
  unfold heal
  rw [if_pos (by push_cast; exact enough)]
  have resolved := ks.resolveBlock_global
  cases auto : ctl.autoHaltReason with
  | none => simp
  | some reason =>
    cases block : ks.globalReason with
    | none =>
      rw [block] at resolved
      simp [resolved]
    | some current =>
      rw [block] at resolved
      by_cases same : current = reason
      · simp [resolved, same, KillSwitch.release]
      · simp [resolved, same]

/-- **Step lemma**: every call of `record_sample` is one of the branches. -/
theorem recordSample_sampled (ctl : AutoDegradationController) (ks : KillSwitch) (sample : ExecutionHealthSample) :
    Sampled ctl ks sample (ctl.recordSample (some ks) sample) := by
  unfold recordSample
  by_cases latency : sample.latencyMs < 0
  · rw [if_pos latency]
    exact .refused _ fun valid => absurd valid.1 (not_le.mpr latency)
  rw [if_neg latency]
  by_cases slippage : sample.slippageBps < 0
  · rw [if_pos slippage]
    exact .refused _ fun valid => absurd valid.2 (not_le.mpr slippage)
  rw [if_neg slippage]
  have valid : Valid sample := ⟨not_lt.mp latency, not_lt.mp slippage⟩
  have noted := ctl.noted_control sample
  have count : (ctl.noted sample).healthyCount = ctl.healthyCount := congrArg Control.healthyCount noted
  have needed : (ctl.noted sample).recoverHealthySamples = ctl.recoverHealthySamples :=
    congrArg Control.recoverHealthySamples noted
  have auto : (ctl.noted sample).autoHaltReason = ctl.autoHaltReason := congrArg Control.autoHaltReason noted
  by_cases critical : ctl.breachesAt sample .critical ≠ []
  · let reasons := (sortedBreaches (ctl.breachesAt sample .critical)).map Breach.reason
    have seen : ctl.observe (some ks) sample =
        (reasons, (ctl.noted sample).halt (some ks) (haltPrefix ++ ", ".intercalate reasons)) := if_pos critical
    rw [seen]
    rcases (ctl.noted sample).halt_control ks (", ".intercalate reasons) with
      ⟨free, halted⟩ | ⟨blocked, auto', halted, adopted⟩
    · rw [halted]
      refine .engaged _ _ _ valid (.inl critical) free ?_
      rw [announce_control, ← noted]
      rfl
    · rw [halted]
      refine .halted _ _ auto' valid (.inl critical) blocked (auto ▸ adopted) ?_
      rw [announce_control, ← noted]
      rfl
  · have uncritical := not_not.mp critical
    by_cases warn : ctl.breachesAt sample .warn ≠ []
    · have seen : ctl.observe (some ks) sample =
          (_, { ctl.noted sample with mode := .degraded, healthyCount := 0 }, some ks) :=
        (if_neg critical).trans (if_pos warn)
      rw [seen]
      refine .degraded _ _ valid (.inr warn) uncritical ?_
      rw [announce_control, ← noted]
      rfl
    · have healthy : ¬ ctl.Breached sample := not_or.mpr ⟨critical, warn⟩
      have seen : ctl.observe (some ks) sample = ([], (ctl.noted sample).heal (some ks)) :=
        (if_neg critical).trans (if_neg warn)
      rw [seen]
      by_cases enough : ctl.recoverHealthySamples ≤ ctl.healthyCount + 1
      · rw [heal_enough (by rw [needed, count]; exact enough), auto, count]
        have recovers : ctl.Recovers sample := ⟨valid, healthy, enough⟩
        by_cases owned : ∃ reason, ctl.autoHaltReason = some reason ∧ ks.globalReason = some reason
        · rw [if_pos owned]
          refine .released _ _ ⟨recovers, owned⟩ ?_
          rw [announce_control, ← noted]
          rfl
        · rw [if_neg owned]
          refine .recovered _ _ recovers (fun releases => owned releases.owned) ?_
          rw [announce_control, ← noted]
          rfl
      · rw [heal_few (by rw [needed, count]; exact enough), count]
        refine .healing _ _ valid healthy enough ?_
        rw [announce_control, ← noted]
        rfl

end Step

end AutoDegradationController

end CryptoQuant
