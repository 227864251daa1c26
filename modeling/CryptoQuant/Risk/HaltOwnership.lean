import CryptoQuant.Risk.AutoHalt

/-!
# Whose block it is

One controller and an operator on one switch: the controller never touches a
block of the operator's, and keeps none of its own once it is back to `NORMAL`.
Several controllers on one switch: each of them releases the block it remembers,
also when another one is still halted behind it.
-/

namespace CryptoQuant
set_option autoImplicit false

open AutoDegradationController

/-- The reason is one a controller writes. -/
def IsAutoReason (reason : String) : Prop := ∃ reasons, reason = haltPrefix ++ reasons

/-- Thresholds at which a latency of 250 is critical and one of 20 healthy. -/
def latencyLimits : DegradationThresholds := ⟨80, 200, 2 / 10, 5 / 10, 4, 12⟩

/-- A sample with the given latency. -/
def latency (ms : ℚ) : ExecutionHealthSample := ⟨ms, false, 0⟩

/-! ## One controller and an operator -/

/-- Who engages blocks. -/
inductive Party
  | operator | controller
deriving DecidableEq, Repr

/-- A controller and its switch, with who engaged the global block and, sample
by sample, whether there was a breach. -/
structure Watch where
  ctl : AutoDegradationController
  killSwitch : KillSwitch
  engagedBy : Option Party
  breaches : List Bool

namespace Watch

/-- The calls that reach the two. -/
inductive Action
  | sample (sample : ExecutionHealthSample)
  | engage (reason : String) (scope : KillSwitchScope) (accountId strategyId : Option String)
  | release (scope : KillSwitchScope) (accountId strategyId : Option String)

/-- The operator's reasons are none of a controller's. -/
def Action.Manual : Action → Prop
  | .engage reason _ _ _ => ¬ IsAutoReason reason
  | _ => True

/-- Who engaged the global block after a call of the party. -/
def authorAfter (party : Party) (before after : KillSwitch) (engagedBy : Option Party) : Option Party :=
  if after.globalReason = before.globalReason then engagedBy else after.globalReason.map fun _ => party

/-- A call of the operator's. -/
def operate (w : Watch) (result : Except PyError Unit × KillSwitch) : Except PyError (Option DegradationSnapshot) × Watch :=
  (result.1.map fun _ => none,
    { w with killSwitch := result.2, engagedBy := authorAfter .operator w.killSwitch result.2 w.engagedBy })

/-- A call of `record_sample`. -/
def sample (w : Watch) (sample : ExecutionHealthSample) : Except PyError (Option DegradationSnapshot) × Watch :=
  let (answer, ctl, killSwitch) := w.ctl.recordSample (some w.killSwitch) sample
  let killSwitch := killSwitch.getD w.killSwitch
  (answer.map some,
    { ctl, killSwitch, engagedBy := authorAfter .controller w.killSwitch killSwitch w.engagedBy,
      breaches := if Valid sample then w.breaches ++ [decide (w.ctl.Breached sample)] else w.breaches })

/-- The two as a component that answers calls. -/
def machine : Run.Machine Watch Action (Except PyError (Option DegradationSnapshot)) where
  call w action :=
    match action with
    | .sample sample => w.sample sample
    | .engage reason scope accountId strategyId => w.operate (w.killSwitch.engage reason scope accountId strategyId)
    | .release scope accountId strategyId => w.operate (w.killSwitch.release scope accountId strategyId)

/-- Before the first call: what the switch already holds is the operator's. -/
def start (ctl : AutoDegradationController) (killSwitch : KillSwitch) : Watch where
  ctl
  killSwitch
  engagedBy := killSwitch.globalReason.map fun _ => .operator
  breaches := []

/-- **The invariant**: the remembered reason is the controller's, an operator's
block is not one of a controller's, a controller's block is the remembered one,
nothing is remembered in `NORMAL`, and the counted samples had no breach. -/
structure Sound (needed : ℤ) (c : Control) (block : Option String) (engagedBy : Option Party) (breaches : List Bool) :
    Prop where
  needed : c.recoverHealthySamples = needed
  remembered : ∀ reason, c.autoHaltReason = some reason → IsAutoReason reason
  unblocked : engagedBy = none ↔ block = none
  operator : engagedBy = some .operator → ∀ reason, block = some reason → ¬ IsAutoReason reason
  controller : engagedBy = some .controller → block = c.autoHaltReason
  normal : c.mode = .normal → c.autoHaltReason = none
  counted : c.healthyCount ≤ breaches.length
  healthy : ∀ b ∈ breaches.rtake c.healthyCount, b = false

/-- The invariant of the two. -/
def IsSound (needed : ℤ) (w : Watch) : Prop :=
  Sound needed w.ctl.control w.killSwitch.globalReason w.engagedBy w.breaches

section Step
variable {needed : ℤ} {c : Control} {block : Option String} {engagedBy : Option Party} {breaches : List Bool}

theorem authorAfter_same {party : Party} {before after : KillSwitch}
    (same : after.globalReason = before.globalReason) : authorAfter party before after engagedBy = engagedBy :=
  if_pos same

theorem authorAfter_ne {party : Party} {before after : KillSwitch}
    (moved : after.globalReason ≠ before.globalReason) :
    authorAfter party before after engagedBy = after.globalReason.map fun _ => party :=
  if_neg moved

/-- In `NORMAL` no block is the controller's. -/
theorem Sound.none_left (h : Sound needed c block engagedBy breaches) (normal : c.mode = .normal) :
    engagedBy ≠ some .controller := by
  intro own
  have free : block = none := (h.controller own).trans (h.normal normal)
  rw [h.unblocked.mpr free] at own
  cases own

/-- One more sample with a breach. -/
theorem Sound.breached (h : Sound needed c block engagedBy breaches) {mode : ProtectionMode} (halts : mode ≠ .normal) :
    Sound needed { c with mode, healthyCount := 0 } block engagedBy (breaches ++ [true]) where
  needed := h.needed
  remembered := h.remembered
  unblocked := h.unblocked
  operator := h.operator
  controller := h.controller
  normal := fun normal => absurd normal halts
  counted := Nat.zero_le _
  healthy := by simp

/-- One more sample without a breach. -/
theorem Sound.healed (h : Sound needed c block engagedBy breaches) :
    Sound needed { c with healthyCount := c.healthyCount + 1 } block engagedBy (breaches ++ [false]) where
  needed := h.needed
  remembered := h.remembered
  unblocked := h.unblocked
  operator := h.operator
  controller := h.controller
  normal := h.normal
  counted := by
    rw [List.length_append]
    exact Nat.add_le_add_right h.counted 1
  healthy := by
    intro b member
    rw [List.rtake_concat_succ, List.mem_append, List.mem_singleton] at member
    rcases member with before | rfl
    · exact h.healthy b before
    · rfl

/-- A block of the controller's in a free level. -/
theorem Sound.engaged (h : Sound needed c block engagedBy breaches) (reasons : String) (halts : c.mode ≠ .normal) :
    Sound needed { c with autoHaltReason := some (haltPrefix ++ reasons) } (some (haltPrefix ++ reasons))
      (some .controller) breaches where
  needed := h.needed
  remembered := by
    rintro _ ⟨⟩
    exact ⟨reasons, rfl⟩
  unblocked := by simp
  operator := by
    rintro ⟨⟩
  controller := fun _ => rfl
  normal := fun normal => absurd normal halts
  counted := h.counted
  healthy := h.healthy

/-- A block found in place that carries the reason of the halt. -/
theorem Sound.adopted (h : Sound needed c block engagedBy breaches) {auto : Option String} (halts : c.mode ≠ .normal)
    (adopted : auto = c.autoHaltReason ∨ ∃ reasons, auto = some (haltPrefix ++ reasons) ∧ auto = block) :
    Sound needed { c with autoHaltReason := auto } block engagedBy breaches := by
  rcases adopted with rfl | ⟨reasons, rfl, held⟩
  · exact h
  · refine ⟨h.needed, ?_, h.unblocked, h.operator, fun _ => held.symm, fun normal => absurd normal halts, h.counted,
      h.healthy⟩
    rintro _ ⟨⟩
    exact ⟨reasons, rfl⟩

/-- Back in `NORMAL` the reason is forgotten, and no block of the controller's is
left. -/
theorem Sound.forgotten (h : Sound needed c block engagedBy breaches) (foreign : engagedBy ≠ some .controller) :
    Sound needed { c with mode := .normal, autoHaltReason := none } block engagedBy breaches where
  needed := h.needed
  remembered := by
    rintro _ ⟨⟩
  unblocked := h.unblocked
  operator := h.operator
  controller := fun own => absurd own foreign
  normal := fun _ => rfl
  counted := h.counted
  healthy := h.healthy

/-- The block is released and the reason forgotten. -/
theorem Sound.released (h : Sound needed c block engagedBy breaches) :
    Sound needed { c with mode := .normal, autoHaltReason := none } none none breaches where
  needed := h.needed
  remembered := by
    rintro _ ⟨⟩
  unblocked := ⟨fun _ => rfl, fun _ => rfl⟩
  operator := by
    rintro ⟨⟩
  controller := by
    rintro ⟨⟩
  normal := fun _ => rfl
  counted := h.counted
  healthy := h.healthy

end Step

section Calls
variable {needed : ℤ} {w : Watch}

/-- **Step lemma**, for a call of the operator's that writes no reason of a
controller's. -/
theorem IsSound.operate (h : w.IsSound needed) (result : Except PyError Unit × KillSwitch)
    (manual : ∀ reason, result.2.globalReason = some reason →
      result.2.globalReason ≠ w.killSwitch.globalReason → ¬ IsAutoReason reason) : (w.operate result).2.IsSound needed := by
  show Sound needed w.ctl.control result.2.globalReason
    (authorAfter .operator w.killSwitch result.2 w.engagedBy) w.breaches
  by_cases same : result.2.globalReason = w.killSwitch.globalReason
  · rw [authorAfter_same same, same]
    exact h
  · rw [authorAfter_ne same]
    refine ⟨h.needed, h.remembered, by simp, fun _ reason found => manual reason found same, ?_, h.normal, h.counted,
      h.healthy⟩
    intro own
    obtain ⟨_, -, impossible⟩ := Option.map_eq_some_iff.mp own
    cases impossible

/-- **Step lemma**, for a sample. -/
theorem IsSound.sample (h : w.IsSound needed) (sample : ExecutionHealthSample) : (w.sample sample).2.IsSound needed := by
  have outcome := recordSample_sampled w.ctl w.killSwitch sample
  unfold Watch.sample
  generalize w.ctl.recordSample (some w.killSwitch) sample = result at outcome
  unfold IsSound
  cases outcome with
  | refused e invalid =>
    simp only [if_neg invalid, Option.getD_some, authorAfter_same]
    exact h
  | engaged snap ctl' reasons valid breached free control =>
    have moved : some (haltPrefix ++ reasons) ≠ w.killSwitch.globalReason := by
      rw [free]
      exact Option.some_ne_none _
    simp only [if_pos valid, Option.getD_some, decide_eq_true breached, control]
    rw [authorAfter_ne moved]
    exact (Sound.breached h (by decide)).engaged reasons (by simp)
  | halted snap ctl' auto valid breached blocked adopted control =>
    simp only [if_pos valid, Option.getD_some, decide_eq_true breached, control, authorAfter_same]
    exact (Sound.breached h (by decide)).adopted (by simp) adopted
  | degraded snap ctl' valid breached uncritical control =>
    simp only [if_pos valid, Option.getD_some, decide_eq_true breached, control, authorAfter_same]
    exact Sound.breached h (by decide)
  | healing snap ctl' valid healthy few control =>
    simp only [if_pos valid, Option.getD_some, decide_eq_false healthy, control, authorAfter_same]
    exact Sound.healed h
  | released snap ctl' releases control =>
    obtain ⟨reason, -, held⟩ := releases.owned
    have moved : (none : Option String) ≠ w.killSwitch.globalReason := by
      rw [held]
      exact (Option.some_ne_none _).symm
    simp only [if_pos releases.recovers.valid, Option.getD_some, decide_eq_false releases.recovers.healthy, control]
    rw [authorAfter_ne moved]
    exact (Sound.healed h).released
  | recovered snap ctl' recovers foreign control =>
    have other : w.engagedBy ≠ some .controller := by
      intro own
      have held : w.killSwitch.globalReason = w.ctl.autoHaltReason := Sound.controller h own
      have unblocked := Sound.unblocked h
      cases auto : w.ctl.autoHaltReason with
      | none =>
        rw [unblocked.mpr (held.trans auto)] at own
        cases own
      | some reason => exact foreign ⟨recovers, reason, auto, held.trans auto⟩
    simp only [if_pos recovers.valid, Option.getD_some, decide_eq_false recovers.healthy, control, authorAfter_same]
    exact (Sound.healed h).forgotten other

/-- **Step lemma.** -/
theorem IsSound.step (h : w.IsSound needed) (action : Action) (manual : action.Manual) :
    (machine.next w action).IsSound needed := by
  cases action with
  | sample sample => exact IsSound.sample h sample
  | engage reason scope accountId strategyId =>
    refine IsSound.operate h _ fun written found moved => ?_
    rw [KillSwitch.engage_globalReason] at found moved
    split at found
    · cases found
      exact manual
    · rename_i narrow
      rw [if_neg narrow] at moved
      exact absurd rfl moved
  | release scope accountId strategyId =>
    refine IsSound.operate h _ fun written found moved => ?_
    rw [KillSwitch.release_globalReason] at found moved
    split at found
    · cases found
    · rename_i narrow
      rw [if_neg narrow] at moved
      exact absurd rfl moved

/-- A new controller on a switch that holds no reason of a controller's. -/
theorem start_isSound {thresholds : DegradationThresholds} {windowSize : ℤ} {sink : Option (List RiskAlert)}
    {ctl : AutoDegradationController} {ks : KillSwitch} (built : new thresholds windowSize needed sink = .ok ctl)
    (manual : ∀ reason, ks.globalReason = some reason → ¬ IsAutoReason reason) : (start ctl ks).IsSound needed := by
  obtain rfl := new_eq built
  refine ⟨rfl, ?_, ?_, fun _ => manual, ?_, fun _ => rfl, le_rfl, ?_⟩
  · rintro _ ⟨⟩
  · exact Option.map_eq_none_iff
  · intro own
    obtain ⟨_, -, impossible⟩ := Option.map_eq_some_iff.mp own
    cases impossible
  · intro b member
    cases member

/-- What a sample leaves alone: blocks of other scopes, and a global block of the
operator's. -/
theorem IsSound.operator_kept (h : w.IsSound needed) (sample : ExecutionHealthSample) :
    (w.sample sample).2.killSwitch.accountReasons = w.killSwitch.accountReasons ∧
    (w.sample sample).2.killSwitch.strategyReasons = w.killSwitch.strategyReasons ∧
    (w.engagedBy = some .operator → (w.sample sample).2.killSwitch.globalReason = w.killSwitch.globalReason) := by
  have outcome := recordSample_sampled w.ctl w.killSwitch sample
  unfold Watch.sample
  generalize w.ctl.recordSample (some w.killSwitch) sample = result at outcome
  cases outcome with
  | engaged snap ctl' reasons valid breached free control =>
    refine ⟨rfl, rfl, fun own => ?_⟩
    rw [(Sound.unblocked h).mpr free] at own
    cases own
  | released snap ctl' releases control =>
    refine ⟨rfl, rfl, fun own => ?_⟩
    obtain ⟨reason, remembered, held⟩ := releases.owned
    exact absurd (Sound.remembered h reason remembered) (Sound.operator h own reason held)
  | refused | halted | degraded | healing | recovered => exact ⟨rfl, rfl, fun _ => rfl⟩

/-- A critical sample leaves a global block. -/
theorem critical_blocks (w : Watch) {sample : ExecutionHealthSample} (valid : Valid sample)
    (critical : w.ctl.breachesAt sample .critical ≠ []) : (w.sample sample).2.killSwitch.globalReason ≠ none := by
  have outcome := recordSample_sampled w.ctl w.killSwitch sample
  unfold Watch.sample
  generalize w.ctl.recordSample (some w.killSwitch) sample = result at outcome
  cases outcome with
  | refused e invalid => exact absurd valid invalid
  | engaged => exact Option.some_ne_none _
  | halted snap ctl' auto valid breached blocked => exact blocked
  | degraded snap ctl' valid breached uncritical => exact absurd uncritical critical
  | healing snap ctl' valid healthy => exact absurd (.inl critical) healthy
  | released snap ctl' releases => exact absurd (.inl critical) releases.recovers.healthy
  | recovered snap ctl' recovers => exact absurd (.inl critical) recovers.healthy

/-- Back to `NORMAL` only after enough samples in a row without a breach. -/
theorem IsSound.recovered (h : w.IsSound needed) {sample : ExecutionHealthSample} (away : w.ctl.mode ≠ .normal)
    (back : (w.sample sample).2.ctl.mode = .normal) :
    ∃ k : ℕ, needed ≤ k ∧ k ≤ (w.sample sample).2.breaches.length ∧
      ∀ b ∈ (w.sample sample).2.breaches.rtake k, b = false := by
  have sound := IsSound.sample h sample
  refine ⟨(w.sample sample).2.ctl.healthyCount, ?_, Sound.counted sound, Sound.healthy sound⟩
  have outcome := recordSample_sampled w.ctl w.killSwitch sample
  have enough (ctl' : AutoDegradationController) (recovers : w.ctl.Recovers sample)
      (count : ctl'.healthyCount = w.ctl.healthyCount + 1) : needed ≤ (ctl'.healthyCount : ℤ) := by
    have start : w.ctl.recoverHealthySamples = needed := Sound.needed h
    rw [count, ← start]
    exact_mod_cast recovers.enough
  revert back
  unfold Watch.sample
  generalize w.ctl.recordSample (some w.killSwitch) sample = result at outcome
  -- only the two branches that recover end in `NORMAL`
  cases outcome with
  | refused e invalid => exact fun back => absurd back away
  | engaged snap ctl' reasons valid breached free control
  | halted snap ctl' auto valid breached blocked adopted control
  | degraded snap ctl' valid breached uncritical control =>
    intro back
    have mode := congrArg Control.mode control
    exact absurd (mode.symm.trans back) (by simp)
  | healing snap ctl' valid healthy few control =>
    intro back
    exact absurd ((congrArg Control.mode control).symm.trans back) away
  | released snap ctl' releases control =>
    intro _
    exact enough ctl' releases.recovers (congrArg Control.healthyCount control)
  | recovered snap ctl' recovers foreign control =>
    intro _
    exact enough ctl' recovers (congrArg Control.healthyCount control)

end Calls

/-- **An automatic halt never steps on the operator.** In every run of a
controller and an operator on one switch, a sample leaves the operator's blocks
alone; a critical one leaves a global block; one that leaves the mode `NORMAL`
leaves no block of the controller's; and one that brings the mode back to
`NORMAL` ends enough samples in a row without a breach. -/
theorem auto_halt_respects_operator {thresholds : DegradationThresholds} {windowSize needed : ℤ}
    {sink : Option (List RiskAlert)} {ctl : AutoDegradationController} {ks : KillSwitch}
    (built : new thresholds windowSize needed sink = .ok ctl)
    (manual : ∀ reason, ks.globalReason = some reason → ¬ IsAutoReason reason) (actions : List Action)
    (operators : ∀ action ∈ actions, action.Manual) (sample : ExecutionHealthSample) :
    let w := machine.after (start ctl ks) actions
    let w' := machine.next w (.sample sample)
    (w'.killSwitch.accountReasons = w.killSwitch.accountReasons ∧
      w'.killSwitch.strategyReasons = w.killSwitch.strategyReasons ∧
      (w.engagedBy = some .operator → w'.killSwitch.globalReason = w.killSwitch.globalReason)) ∧
    (Valid sample → w.ctl.breachesAt sample .critical ≠ [] → w'.killSwitch.globalReason ≠ none) ∧
    (w'.ctl.mode = .normal → w'.engagedBy ≠ some .controller) ∧
    (w.ctl.mode ≠ .normal → w'.ctl.mode = .normal →
      ∃ k : ℕ, needed ≤ k ∧ k ≤ w'.breaches.length ∧ ∀ b ∈ w'.breaches.rtake k, b = false) := by
  intro w w'
  have sound : w.IsSound needed := by
    refine machine.invariant (P := fun _ => IsSound needed) (start_isSound built manual) ?_ (List.append_nil actions).symm
    intro done action rest t split _ h
    refine h.step action (operators action ?_)
    rw [split]
    simp
  exact ⟨sound.operator_kept sample, w.critical_blocks, fun normal => (sound.step (.sample sample) trivial).none_left normal,
    sound.recovered⟩

/-- A block of an account by the operator, and a critical sample. -/
def incident : List Action := [.engage "manual" .account (some "main") none, .sample (latency 250)]

theorem incident_manual : ∀ action ∈ incident, action.Manual := by
  intro action member
  rcases List.mem_pair.mp member with rfl | rfl
  · rintro ⟨reasons, same⟩
    have length := congrArg String.length same
    have longer : "manual".length < haltPrefix.length := by decide
    rw [String.length_append] at length
    omega
  · trivial

/-- The controller recovers from the incident with the next sample, which leaves
no block of its own and the operator's in place. -/
theorem auto_halt_respects_operator_recovery :
    ∃ ctl, new latencyLimits 1 1 none = .ok ctl ∧
      (machine.after (start ctl .init) incident).ctl.mode = .halted ∧
      (machine.next (machine.after (start ctl .init) incident) (.sample (latency 20))).engagedBy ≠ some .controller := by
  obtain ⟨ctl, built, check⟩ := Run.endsIn_iff.mp (show Run.endsIn (new latencyLimits 1 1 none) (fun ctl =>
    decide ((machine.after (start ctl .init) incident).ctl.mode = .halted) &&
      decide ((machine.next (machine.after (start ctl .init) incident) (.sample (latency 20))).ctl.mode = .normal))
    = true by decide +kernel)
  obtain ⟨halted, normal⟩ := Bool.and_eq_true_iff.mp check
  have unblocked : ∀ reason, KillSwitch.init.globalReason = some reason → ¬ IsAutoReason reason := by
    intro reason found
    cases found
  have left := (auto_halt_respects_operator built unblocked incident incident_manual (latency 20)).2.2.1
  exact ⟨ctl, built, of_decide_eq_true halted, left (of_decide_eq_true normal)⟩

end Watch

/-! ## Several controllers on one switch -/

/-- Controllers that were constructed with one switch. -/
structure SharedSwitch (ι : Type) where
  controllers : ι → AutoDegradationController
  killSwitch : KillSwitch

namespace SharedSwitch
variable {ι : Type} [DecidableEq ι]

/-- `record_sample`, of one of the controllers. -/
def record (shared : SharedSwitch ι) (i : ι) (sample : ExecutionHealthSample) :
    Except PyError DegradationSnapshot × SharedSwitch ι :=
  let (answer, ctl, killSwitch) := (shared.controllers i).recordSample (some shared.killSwitch) sample
  (answer, ⟨Function.update shared.controllers i ctl, killSwitch.getD shared.killSwitch⟩)

/-- The controllers as a component: each call is a sample for one of them. -/
def machine : Run.Machine (SharedSwitch ι) (ι × ExecutionHealthSample) (Except PyError DegradationSnapshot) where
  call shared call := shared.record call.1 call.2

/-- While some controller is halted, execution is stopped. -/
def Guarded (shared : SharedSwitch ι) : Prop :=
  (∃ i, (shared.controllers i).mode = .halted) → ∃ e, shared.killSwitch.assertAllowsExecution none none = .error e

/-- The sample makes a controller release the global block while another one is
halted. -/
def ReleasesUnderHalt (shared : SharedSwitch ι) (i : ι) (sample : ExecutionHealthSample) : Prop :=
  (shared.controllers i).Releases shared.killSwitch sample ∧ ∃ j, j ≠ i ∧ (shared.controllers j).mode = .halted

section Step
variable {shared : SharedSwitch ι} {i : ι} {sample : ExecutionHealthSample}

/-- A halted controller after a call is the one called or was halted before. -/
theorem halted_before {ctl : AutoDegradationController} {j : ι}
    (halted : (Function.update shared.controllers i ctl j).mode = .halted) (other : ctl.mode ≠ .halted) :
    j ≠ i ∧ (shared.controllers j).mode = .halted := by
  by_cases own : j = i
  · rw [own, Function.update_self] at halted
    exact absurd halted other
  · rw [Function.update_of_ne own] at halted
    exact ⟨own, halted⟩

/-- **Step lemma**: a release under a halt is the only way to lose the guard. -/
theorem Guarded.step (guarded : shared.Guarded) (alone : ¬ shared.ReleasesUnderHalt i sample) :
    (shared.record i sample).2.Guarded := by
  have outcome := recordSample_sampled (shared.controllers i) shared.killSwitch sample
  rintro ⟨j, halted⟩
  rw [KillSwitch.assertAllowsExecution_global]
  unfold Guarded at guarded
  rw [KillSwitch.assertAllowsExecution_global] at guarded
  unfold record at halted ⊢
  generalize (shared.controllers i).recordSample (some shared.killSwitch) sample = result at outcome halted
  cases outcome with
  | refused e invalid =>
    simp only [Function.update_eq_self] at halted
    exact guarded ⟨j, halted⟩
  | engaged snap ctl' reasons => exact Option.some_ne_none _
  | halted snap ctl' auto valid breached blocked => exact blocked
  | degraded snap ctl' valid breached uncritical control =>
    have mode : ctl'.mode = .degraded := congrArg Control.mode control
    exact guarded ⟨j, (halted_before halted (by rw [mode]; decide)).2⟩
  | healing snap ctl' valid healthy few control =>
    have mode : ctl'.mode = (shared.controllers i).mode := congrArg Control.mode control
    by_cases own : j = i
    · rw [own] at halted
      simp only [Function.update_self, mode] at halted
      exact guarded ⟨i, halted⟩
    · simp only [Function.update_of_ne own] at halted
      exact guarded ⟨j, halted⟩
  | released snap ctl' releases control =>
    have mode : ctl'.mode = .normal := congrArg Control.mode control
    exact absurd ⟨releases, j, halted_before halted (by rw [mode]; decide)⟩ alone
  | recovered snap ctl' recovers foreign control =>
    have mode : ctl'.mode = .normal := congrArg Control.mode control
    exact guarded ⟨j, (halted_before halted (by rw [mode]; decide)).2⟩

/-- A release under a halt loses the guard. -/
theorem not_guarded_of_release (releases : shared.ReleasesUnderHalt i sample) :
    ¬ (shared.record i sample).2.Guarded := by
  obtain ⟨own, j, other, halted⟩ := releases
  have outcome := recordSample_sampled (shared.controllers i) shared.killSwitch sample
  intro guarded
  unfold Guarded at guarded
  rw [KillSwitch.assertAllowsExecution_global] at guarded
  unfold record at guarded
  obtain ⟨reason, -, held⟩ := own.owned
  generalize (shared.controllers i).recordSample (some shared.killSwitch) sample = result at outcome guarded
  cases outcome with
  | refused e invalid => exact absurd own.recovers.valid invalid
  | engaged snap ctl' reasons valid breached => exact absurd breached own.recovers.healthy
  | halted snap ctl' auto valid breached => exact absurd breached own.recovers.healthy
  | degraded snap ctl' valid breached => exact absurd breached own.recovers.healthy
  | healing snap ctl' valid healthy few => exact absurd own.recovers.enough few
  | released snap ctl' =>
    refine guarded ⟨j, ?_⟩ rfl
    simp only [Function.update_of_ne other]
    exact halted
  | recovered snap ctl' recovers foreign => exact absurd own foreign

end Step

/-- **A shared switch stays engaged while anyone is halted** exactly in the runs
in which no controller releases the global block while another one is halted. -/
theorem shared_halt_iff {controllers : ι → AutoDegradationController}
    (built : ∀ i, ∃ thresholds windowSize needed sink, new thresholds windowSize needed sink = .ok (controllers i))
    (ks : KillSwitch) (calls : List (ι × ExecutionHealthSample)) :
    (∀ done rest, calls = done ++ rest → (machine.after ⟨controllers, ks⟩ done).Guarded) ↔
      ∀ done i sample rest, calls = done ++ (i, sample) :: rest →
        ¬ (machine.after ⟨controllers, ks⟩ done).ReleasesUnderHalt i sample := by
  have start : Guarded ⟨controllers, ks⟩ := by
    rintro ⟨i, halted⟩
    obtain ⟨thresholds, windowSize, needed, sink, new_⟩ := built i
    have normal : (controllers i).mode = .normal := by rw [new_eq new_]
    exact absurd (normal.symm.trans halted) (by decide)
  have along := machine.along_iff (R := fun _ => True) (H := fun shared call => shared.ReleasesUnderHalt call.1 call.2) start
    (fun _ => trivial) (fun _ _ guarded alone => guarded.step alone) (fun _ _ _ releases => not_guarded_of_release releases) calls
  refine along.trans ?_
  constructor
  · intro alone done i sample rest split
    exact alone done (i, sample) rest split
  · rintro alone done ⟨i, sample⟩ rest split
    exact alone done i sample rest split

/-- Two controllers on one switch: both halt for the same reason, then the first
one recovers. -/
def sameReason : List (Fin 2 × ExecutionHealthSample) := [(0, latency 250), (1, latency 250), (0, latency 20)]

/-- After the first halt alone the two are guarded, by the theorem: a sample with
a breach releases nothing. -/
theorem shared_halt_iff_first :
    ∃ ctl, new latencyLimits 1 1 none = .ok ctl ∧
      ∀ done rest, [((0 : Fin 2), latency 250)] = done ++ rest →
        (machine.after ⟨fun _ : Fin 2 => ctl, .init⟩ done).Guarded := by
  obtain ⟨ctl, built, breached⟩ := Run.endsIn_iff.mp (show Run.endsIn (new latencyLimits 1 1 none) (fun ctl =>
    decide (ctl.Breached (latency 250))) = true by decide +kernel)
  refine ⟨ctl, built, (shared_halt_iff (fun _ => ⟨latencyLimits, 1, 1, none, built⟩) .init _).mpr ?_⟩
  rintro done i sample rest split ⟨releases, -⟩
  cases done with
  | nil =>
    cases split
    exact releases.recovers.healthy (of_decide_eq_true breached)
  | cons call done => simp at split

/-- After the recovery of the first one the second is still halted, and nothing
stops execution. -/
theorem shared_halt_lost :
    ∃ ctl, new latencyLimits 1 1 none = .ok ctl ∧
      ((machine.after ⟨fun _ : Fin 2 => ctl, .init⟩ sameReason).controllers 1).mode = .halted ∧
      (machine.after ⟨fun _ : Fin 2 => ctl, .init⟩ sameReason).killSwitch.assertAllowsExecution none none = .ok () := by
  obtain ⟨ctl, built, check⟩ := Run.endsIn_iff.mp (show Run.endsIn (new latencyLimits 1 1 none) (fun ctl =>
    decide (((machine.after ⟨fun _ : Fin 2 => ctl, .init⟩ sameReason).controllers 1).mode = .halted ∧
      (machine.after ⟨fun _ : Fin 2 => ctl, .init⟩ sameReason).killSwitch.globalReason = none)) = true by
    decide +kernel)
  obtain ⟨halted, free⟩ := of_decide_eq_true check
  refine ⟨ctl, built, halted, ?_⟩
  unfold KillSwitch.assertAllowsExecution
  rw [KillSwitch.resolveBlock_global, free]
  rfl

end SharedSwitch

end CryptoQuant
