import CryptoQuant.Basic
import CryptoQuant.Lib.Best
import Mathlib.Data.Prod.Lex
import Mathlib.Data.String.Basic

/-!
# Failover and recovery

`ops/high_availability.py`. Both decisions take the best item of a list. The plan of a
recovery breaks every tie by the instance; the failover does not, so there the order in
which the standbys report decides.
-/

namespace CryptoQuant.HighAvailability
set_option autoImplicit false

open Best

/-- `ServiceRole`. -/
inductive ServiceRole
  | primary | standby
deriving DecidableEq, Repr

/-- `HealthSignal`. -/
structure HealthSignal where
  role : ServiceRole
  instanceId : String
  heartbeatAgeSec : ℚ
  isReachable : Bool
  lagSec : ℚ
deriving DecidableEq, Repr

/-- `ReplicaSnapshot`. -/
structure ReplicaSnapshot where
  instanceId : String
  role : ServiceRole
  generation : ℤ
  checkpointTsMs : ℤ
  checksum : String

/-- `FailoverDecision`. -/
structure FailoverDecision where
  shouldFailover : Bool
  nextPrimaryInstanceId : Option String
  reason : String
deriving DecidableEq, Repr

/-- `RecoveryPlan`. -/
structure RecoveryPlan where
  sourceInstanceId : String
  checkpointTsMs : ℤ
  targetInstanceId : String
  replayRequired : Bool
  reason : String
deriving DecidableEq, Repr

/-! ## Failover -/

section Failover
variable (primary : HealthSignal) (standbys : List HealthSignal) (maxHeartbeatAgeSec maxReplicationLagSec : ℚ)

/-- `primary_unhealthy`. -/
def PrimaryUnhealthy : Prop := primary.isReachable = false ∨ maxHeartbeatAgeSec < primary.heartbeatAgeSec

instance : Decidable (PrimaryUnhealthy primary maxHeartbeatAgeSec) := inferInstanceAs (Decidable (_ ∨ _))

/-- The test of `candidates`. -/
def Eligible (s : HealthSignal) : Prop :=
  s.isReachable = true ∧ s.heartbeatAgeSec ≤ maxHeartbeatAgeSec ∧ s.lagSec ≤ maxReplicationLagSec

instance (s : HealthSignal) : Decidable (Eligible maxHeartbeatAgeSec maxReplicationLagSec s) :=
  inferInstanceAs (Decidable (_ ∧ _ ∧ _))

/-- The key that the candidates are sorted by. -/
def candidateKey (s : HealthSignal) : ℚ ×ₗ ℚ := toLex (s.lagSec, s.heartbeatAgeSec)

/-- `candidates`. -/
def candidates : List HealthSignal := standbys.filter fun s => Eligible maxHeartbeatAgeSec maxReplicationLagSec s

/-- `evaluate_failover`. -/
def evaluateFailover (maxHeartbeatAgeSec : ℚ := 10) (maxReplicationLagSec : ℚ := 5) : FailoverDecision :=
  if ¬ PrimaryUnhealthy primary maxHeartbeatAgeSec then ⟨false, none, "primary healthy"⟩
  else
    match best candidateKey (candidates standbys maxHeartbeatAgeSec maxReplicationLagSec) with
    | none => ⟨false, none, "primary unhealthy but no standby satisfies heartbeat/lag thresholds"⟩
    | some best => ⟨true, some best.instanceId, s!"primary unhealthy; promote standby={best.instanceId}"⟩

/-- A standby that may be promoted: no other eligible one is ahead of it. -/
structure Promotable (s : HealthSignal) : Prop where
  mem : s ∈ standbys
  eligible : Eligible maxHeartbeatAgeSec maxReplicationLagSec s
  least : ∀ t ∈ standbys, Eligible maxHeartbeatAgeSec maxReplicationLagSec t → candidateKey s ≤ candidateKey t

variable {primary standbys maxHeartbeatAgeSec maxReplicationLagSec}

theorem promotable_iff {s : HealthSignal} : Promotable standbys maxHeartbeatAgeSec maxReplicationLagSec s ↔
    IsBest candidateKey (candidates standbys maxHeartbeatAgeSec maxReplicationLagSec) s := by
  rw [candidates, isBest_filter]
  simp only [decide_eq_true_eq]
  exact ⟨fun p => ⟨p.mem, p.eligible, p.least⟩, fun ⟨mem, eligible, least⟩ => ⟨mem, eligible, least⟩⟩

/-- **The three decisions.** -/
theorem evaluateFailover_cases (primary : HealthSignal) (standbys : List HealthSignal) (maxHeartbeatAgeSec maxReplicationLagSec : ℚ) :
    (¬ PrimaryUnhealthy primary maxHeartbeatAgeSec ∧
      evaluateFailover primary standbys maxHeartbeatAgeSec maxReplicationLagSec = ⟨false, none, "primary healthy"⟩) ∨
    (PrimaryUnhealthy primary maxHeartbeatAgeSec ∧
      (∀ s ∈ standbys, ¬ Eligible maxHeartbeatAgeSec maxReplicationLagSec s) ∧
      evaluateFailover primary standbys maxHeartbeatAgeSec maxReplicationLagSec =
        ⟨false, none, "primary unhealthy but no standby satisfies heartbeat/lag thresholds"⟩) ∨
    PrimaryUnhealthy primary maxHeartbeatAgeSec ∧ ∃ s, Promotable standbys maxHeartbeatAgeSec maxReplicationLagSec s ∧
      evaluateFailover primary standbys maxHeartbeatAgeSec maxReplicationLagSec =
        ⟨true, some s.instanceId, s!"primary unhealthy; promote standby={s.instanceId}"⟩ := by
  unfold evaluateFailover
  by_cases unhealthy : PrimaryUnhealthy primary maxHeartbeatAgeSec
  · rw [if_neg (not_not.mpr unhealthy)]
    right
    cases found : best candidateKey (candidates standbys maxHeartbeatAgeSec maxReplicationLagSec) with
    | none =>
      left
      refine ⟨unhealthy, ?_, rfl⟩
      intro s member eligible
      exact List.filter_eq_nil_iff.mp (best_eq_none_iff.mp found) s member (decide_eq_true eligible)
    | some s =>
      right
      exact ⟨unhealthy, s, promotable_iff.mpr (isBest_of_best found), rfl⟩
  · exact .inl ⟨unhealthy, if_pos unhealthy⟩

/-- Any of the promotable standbys is promoted in some order of the reports. -/
theorem exists_perm_promoted (unhealthy : PrimaryUnhealthy primary maxHeartbeatAgeSec) {s : HealthSignal}
    (promotable : Promotable standbys maxHeartbeatAgeSec maxReplicationLagSec s) : ∃ standbys', standbys'.Perm standbys ∧
      (evaluateFailover primary standbys' maxHeartbeatAgeSec maxReplicationLagSec).nextPrimaryInstanceId = some s.instanceId := by
  obtain ⟨standbys', perm, first⟩ := exists_perm_best (promotable_iff.mp promotable)
  refine ⟨standbys', perm, ?_⟩
  have promoted : best candidateKey (candidates standbys' maxHeartbeatAgeSec maxReplicationLagSec) = some s := first
  unfold evaluateFailover
  rw [if_neg (not_not.mpr unhealthy), promoted]

theorem shouldFailover_iff : (evaluateFailover primary standbys maxHeartbeatAgeSec maxReplicationLagSec).shouldFailover = true ↔
    PrimaryUnhealthy primary maxHeartbeatAgeSec ∧ ∃ s ∈ standbys, Eligible maxHeartbeatAgeSec maxReplicationLagSec s := by
  rcases evaluateFailover_cases primary standbys maxHeartbeatAgeSec maxReplicationLagSec with
    ⟨healthy, decides⟩ | ⟨unhealthy, none_, decides⟩ | ⟨unhealthy, s, promotable, decides⟩
  · rw [decides]
    exact iff_of_false Bool.false_ne_true fun both => healthy both.1
  · rw [decides]
    exact iff_of_false Bool.false_ne_true fun ⟨_, s, member, eligible⟩ => none_ s member eligible
  · rw [decides]
    exact iff_of_true rfl ⟨unhealthy, s, promotable.mem, promotable.eligible⟩

/-- A failover promotes an eligible standby that no other is ahead of. -/
theorem promotable_of_shouldFailover
    (fails : (evaluateFailover primary standbys maxHeartbeatAgeSec maxReplicationLagSec).shouldFailover = true) :
    ∃ s, Promotable standbys maxHeartbeatAgeSec maxReplicationLagSec s ∧
      (evaluateFailover primary standbys maxHeartbeatAgeSec maxReplicationLagSec).nextPrimaryInstanceId = some s.instanceId := by
  rcases evaluateFailover_cases primary standbys maxHeartbeatAgeSec maxReplicationLagSec with
    ⟨-, decides⟩ | ⟨-, -, decides⟩ | ⟨-, s, promotable, decides⟩
  · rw [decides] at fails
    cases fails
  · rw [decides] at fails
    cases fails
  · rw [decides]
    exact ⟨s, promotable, rfl⟩

/-- Where one standby at most can be promoted, the order of the reports does not matter. -/
theorem evaluateFailover_perm {standbys' : List HealthSignal} (perm : standbys'.Perm standbys)
    (unique : PrimaryUnhealthy primary maxHeartbeatAgeSec → ∀ s t, Promotable standbys maxHeartbeatAgeSec maxReplicationLagSec s →
      Promotable standbys maxHeartbeatAgeSec maxReplicationLagSec t → s = t) :
    evaluateFailover primary standbys' maxHeartbeatAgeSec maxReplicationLagSec =
      evaluateFailover primary standbys maxHeartbeatAgeSec maxReplicationLagSec := by
  unfold evaluateFailover
  by_cases unhealthy : PrimaryUnhealthy primary maxHeartbeatAgeSec
  · have one (s t : HealthSignal) (first : IsBest candidateKey (candidates standbys maxHeartbeatAgeSec maxReplicationLagSec) s)
        (second : IsBest candidateKey (candidates standbys maxHeartbeatAgeSec maxReplicationLagSec) t) : s = t :=
      unique unhealthy s t (promotable_iff.mpr first) (promotable_iff.mpr second)
    have same : best candidateKey (candidates standbys' maxHeartbeatAgeSec maxReplicationLagSec) =
        best candidateKey (candidates standbys maxHeartbeatAgeSec maxReplicationLagSec) := best_perm (perm.filter _) one
    rw [if_neg (not_not.mpr unhealthy), if_neg (not_not.mpr unhealthy), same]
  · rw [if_pos unhealthy, if_pos unhealthy]

/-- **The failover.** It happens exactly when the primary is unhealthy and some standby is
eligible, and promotes an eligible one that no other is ahead of. The decision is the same
in every order of the reports exactly when the primary is healthy or no two standbys tie for
the first place. -/
theorem failover_order_iff (distinct : (standbys.map HealthSignal.instanceId).Nodup) :
    ((evaluateFailover primary standbys maxHeartbeatAgeSec maxReplicationLagSec).shouldFailover = true ↔
      PrimaryUnhealthy primary maxHeartbeatAgeSec ∧ ∃ s ∈ standbys, Eligible maxHeartbeatAgeSec maxReplicationLagSec s) ∧
    ((evaluateFailover primary standbys maxHeartbeatAgeSec maxReplicationLagSec).shouldFailover = true →
      ∃ s, Promotable standbys maxHeartbeatAgeSec maxReplicationLagSec s ∧
        (evaluateFailover primary standbys maxHeartbeatAgeSec maxReplicationLagSec).nextPrimaryInstanceId = some s.instanceId) ∧
    ((∀ standbys', standbys'.Perm standbys → evaluateFailover primary standbys' maxHeartbeatAgeSec maxReplicationLagSec =
        evaluateFailover primary standbys maxHeartbeatAgeSec maxReplicationLagSec) ↔
      (PrimaryUnhealthy primary maxHeartbeatAgeSec → ∀ s t, Promotable standbys maxHeartbeatAgeSec maxReplicationLagSec s →
        Promotable standbys maxHeartbeatAgeSec maxReplicationLagSec t → s = t)) := by
  refine ⟨shouldFailover_iff, promotable_of_shouldFailover, ?_, fun unique standbys' perm => evaluateFailover_perm perm unique⟩
  intro same unhealthy s t first second
  obtain ⟨standbys₁, perm₁, promoted₁⟩ := exists_perm_promoted unhealthy first
  obtain ⟨standbys₂, perm₂, promoted₂⟩ := exists_perm_promoted unhealthy second
  rw [same standbys₁ perm₁] at promoted₁
  rw [same standbys₂ perm₂, promoted₁] at promoted₂
  exact List.inj_on_of_nodup_map distinct first.mem second.mem (Option.some.inj promoted₂)

/-- A primary that does not answer. -/
def lostPrimary : HealthSignal := ⟨.primary, "node-a", 30, false, 0⟩

/-- A standby with a fresh heartbeat and no lag. -/
def freshStandby (instanceId : String) : HealthSignal := ⟨.standby, instanceId, 1, true, 0⟩

/-- Two standbys tie, and the one that reports first is promoted. -/
theorem failover_depends_on_order :
    [freshStandby "node-c", freshStandby "node-b"].Perm [freshStandby "node-b", freshStandby "node-c"] ∧
      ([freshStandby "node-b", freshStandby "node-c"].map HealthSignal.instanceId).Nodup ∧
      evaluateFailover lostPrimary [freshStandby "node-c", freshStandby "node-b"] ≠
        evaluateFailover lostPrimary [freshStandby "node-b", freshStandby "node-c"] :=
  ⟨List.Perm.swap _ _ [], by decide, by decide +kernel⟩

/-- The condition tells it. -/
theorem failover_order_iff_tied : ∃ standbys', standbys'.Perm [freshStandby "node-b", freshStandby "node-c"] ∧
    evaluateFailover lostPrimary standbys' 10 5 ≠ evaluateFailover lostPrimary [freshStandby "node-b", freshStandby "node-c"] 10 5 := by
  have distinct : ([freshStandby "node-b", freshStandby "node-c"].map HealthSignal.instanceId).Nodup := by decide
  have promotable (instanceId : String) (member : freshStandby instanceId ∈ [freshStandby "node-b", freshStandby "node-c"]) :
      Promotable [freshStandby "node-b", freshStandby "node-c"] 10 5 (freshStandby instanceId) := by
    refine ⟨member, ⟨rfl, by norm_num [freshStandby], by norm_num [freshStandby]⟩, ?_⟩
    intro t among _
    rcases List.mem_pair.mp among with rfl | rfl
    · exact le_rfl
    · exact le_rfl
  by_contra none_
  have same := (@failover_order_iff lostPrimary _ 10 5 distinct).2.2.mp
    fun standbys' perm => not_not.mp fun differs => none_ ⟨standbys', perm, differs⟩
  have equal := same (.inl rfl) _ _ (promotable "node-b" (by simp)) (promotable "node-c" (by simp))
  exact absurd equal (by decide)

end Failover

/-! ## Recovery -/

section Recovery

/-- The key that the snapshots are sorted by. -/
def snapshotKey (s : ReplicaSnapshot) : ℤ ×ₗ ℤ ×ₗ String := toLex (-s.generation, toLex (-s.checkpointTsMs, s.instanceId))

/-- `plan_disaster_recovery`. -/
def planDisasterRecovery (snapshots : List ReplicaSnapshot) (targetInstanceId : String) : Except PyError RecoveryPlan :=
  match best snapshotKey snapshots with
  | none => .error (.valueError "at least one snapshot is required")
  | some source => .ok {
      sourceInstanceId := source.instanceId
      checkpointTsMs := source.checkpointTsMs
      targetInstanceId
      replayRequired := decide (source.instanceId ≠ targetInstanceId)
      reason := s!"selected snapshot from {source.instanceId} " ++
        s!"(generation={source.generation}, checkpoint={source.checkpointTsMs})" }

/-- The plan does not depend on the order of the snapshots: the instance decides every tie. -/
theorem planDisasterRecovery_perm {snapshots snapshots' : List ReplicaSnapshot} (perm : snapshots'.Perm snapshots)
    (distinct : (snapshots.map ReplicaSnapshot.instanceId).Nodup) (targetInstanceId : String) :
    planDisasterRecovery snapshots' targetInstanceId = planDisasterRecovery snapshots targetInstanceId := by
  have unique (s t : ReplicaSnapshot) (first : IsBest snapshotKey snapshots s) (second : IsBest snapshotKey snapshots t) : s = t := by
    have key : snapshotKey s = snapshotKey t := le_antisymm (first.le t second.mem) (second.le s first.mem)
    simp only [snapshotKey, EmbeddingLike.apply_eq_iff_eq, Prod.mk.injEq] at key
    exact List.inj_on_of_nodup_map distinct first.mem second.mem key.2.2
  rw [planDisasterRecovery, planDisasterRecovery, best_perm perm unique]

end Recovery

end CryptoQuant.HighAvailability
