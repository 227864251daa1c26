import CryptoQuant.Lib.Drawdown
import CryptoQuant.Monitoring.Performance

/-!
# The maximum drawdown

An accepted call passes one value of the equity curve, its net profit, and leaves the
watermark of the curve so far. The curve starts at zero, so a first loss counts.
-/

namespace CryptoQuant.Performance
set_option autoImplicit false

open Drawdown

/-- `0`, and the net profits of the snapshots. -/
def equityCurve (snapshots : List PerformanceSnapshot) : List ℚ := 0 :: snapshots.map PerformanceSnapshot.netPnl

namespace RealTimePerformanceMonitor

/-- The snapshots that the calls of a run return. -/
noncomputable def snapshotsOf (calls : List MonitorCall) : List PerformanceSnapshot :=
  (machine.answers {} calls).filterMap Except.toOption

/-- `_equity_peak` and `_max_drawdown`. -/
def watermark (m : RealTimePerformanceMonitor) : Watermark ℚ := ⟨m.equityPeak, m.maxDrawdown⟩

section Call
variable {m : RealTimePerformanceMonitor} {calls : List MonitorCall} {c : MonitorCall}

/-- A method leaves the watermark alone before it observes. -/
theorem watermark_write (method : Method) : (method.write m).watermark = m.watermark := by
  cases method with
  | recordFill symbol qty fillPrice fee slippageCost =>
    simp only [Method.write, filled]
    split <;> rfl
  | recordMarkPrice symbol markPrice => rfl
  | snapshot => rfl

/-- Observing passes the net profit. -/
theorem watermark_observed (m : RealTimePerformanceMonitor) : m.observed.watermark = m.watermark.next m.net := rfl

theorem snapshotsOf_accepted (accepted : c.method.Accepted) :
    snapshotsOf (calls ++ [c]) =
      snapshotsOf calls ++ [(machine.after {} (calls ++ [c])).read (c.ts.getD c.now)] := by
  unfold snapshotsOf
  rw [Run.Machine.answers_snoc, List.filterMap_append, Run.Machine.after_snoc, next_eq, if_pos accepted,
    Run.Machine.answer, call_accepted accepted]
  rfl

theorem snapshotsOf_refused (refused : ¬ c.method.Accepted) : snapshotsOf (calls ++ [c]) = snapshotsOf calls := by
  obtain ⟨e, raised⟩ := call_refused refused
  unfold snapshotsOf
  rw [Run.Machine.answers_snoc, List.filterMap_append, Run.Machine.answer, raised]
  simp [Except.toOption]

end Call

/-- After the calls the watermark is that of the curve so far. -/
theorem tracks_after (calls : List MonitorCall) :
    Tracks (equityCurve (snapshotsOf calls)) (machine.after {} calls).watermark := by
  induction calls using List.reverseRecOn with
  | nil => exact tracks_singleton 0
  | append_singleton calls c ih =>
    by_cases accepted : c.method.Accepted
    · rw [snapshotsOf_accepted accepted, Run.Machine.after_snoc, next_eq, if_pos accepted, watermark_observed,
        watermark_write, equityCurve, List.map_append, ← List.cons_append]
      apply ih.next
    · rw [snapshotsOf_refused accepted, Run.Machine.after_snoc, next_eq, if_neg accepted]
      exact ih

/-- Every snapshot of a run reports the deepest fall of the curve up to it. -/
theorem maxDrawdown_isGreatest (calls : List MonitorCall) {n : ℕ} {snapshot : PerformanceSnapshot}
    (reported : (snapshotsOf calls)[n]? = some snapshot) :
    IsGreatest (falls (equityCurve ((snapshotsOf calls).take (n + 1)))) snapshot.maxDrawdown := by
  induction calls using List.reverseRecOn with
  | nil => simp [snapshotsOf, Run.Machine.answers] at reported
  | append_singleton calls c ih =>
    by_cases accepted : c.method.Accepted
    · have here := (tracks_after (calls ++ [c])).deepest
      rw [snapshotsOf_accepted accepted] at reported here ⊢
      by_cases before : n < (snapshotsOf calls).length
      · rw [List.getElem?_append_left before] at reported
        rw [List.take_append_of_le_length (by omega)]
        exact ih reported
      · -- The snapshot is that of the last call.
        have last : n = (snapshotsOf calls).length := by
          have := (List.getElem?_eq_some_iff.mp reported).1
          simp at this
          omega
        subst last
        rw [List.getElem?_concat_length] at reported
        cases reported
        rw [List.take_of_length_le (by simp)]
        exact here
    · rw [snapshotsOf_refused accepted] at reported ⊢
      exact ih reported

/-- **The maximum drawdown** of a snapshot is the largest fall of the equity curve, the
net profits from zero up to that snapshot, and no later snapshot reports a smaller one. -/
theorem max_drawdown_exact (calls : List MonitorCall) :
    (∀ n snapshot, (snapshotsOf calls)[n]? = some snapshot →
      IsGreatest (falls (equityCurve ((snapshotsOf calls).take (n + 1)))) snapshot.maxDrawdown) ∧
    ((snapshotsOf calls).map PerformanceSnapshot.maxDrawdown).Pairwise (· ≤ ·) := by
  refine ⟨fun n snapshot reported => maxDrawdown_isGreatest calls reported, ?_⟩
  rw [List.pairwise_map, List.pairwise_iff_getElem]
  intro i j hi hj earlier
  have first := maxDrawdown_isGreatest calls (List.getElem?_eq_getElem hi)
  have second := maxDrawdown_isGreatest calls (List.getElem?_eq_getElem hj)
  have longer : (snapshotsOf calls).take (j + 1) =
      (snapshotsOf calls).take (i + 1) ++ ((snapshotsOf calls).take (j + 1)).drop (i + 1) := by
    have split := (List.take_append_drop (i + 1) ((snapshotsOf calls).take (j + 1))).symm
    rwa [List.take_take, min_eq_left (by omega)] at split
  rw [longer, equityCurve, List.map_append, ← List.cons_append] at second
  exact first.mono second (falls_subset_append _ _)

end RealTimePerformanceMonitor

end CryptoQuant.Performance
