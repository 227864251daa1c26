import CryptoQuant.Lib.Stats
import CryptoQuant.Monitoring.PerformancePnl
import Mathlib.Algebra.BigOperators.Fin
import Mathlib.Data.Rat.Cast.Order

/-!
# Observing the monitor

Reading a snapshot books an equity change of zero. That leaves the profit, the
peak and the drawdown alone, but it is one more entry of the list of changes, and
the score divides by their number: polling the monitor moves the score of later
snapshots unless the net profit is zero.
-/

namespace CryptoQuant.Performance
set_option autoImplicit false

open Ledger

/-! ## The score -/

/-- The two cases that score zero are divisions by zero. -/
theorem sharpeLike_eq_div {returns : List ℚ} (nonempty : returns ≠ []) :
    sharpeLike returns = (mean returns : ℝ) / √(variance returns : ℝ) := by
  unfold sharpeLike
  by_cases several : 1 < returns.length
  · rw [if_pos several]
    simp only
    split
    · rename_i zero
      rw [zero, div_zero]
    · rfl
  · have length : returns.length = 1 := by
      have := List.length_pos_iff.mpr nonempty
      omega
    obtain ⟨x, rfl⟩ := List.length_eq_one_iff.mp length
    have flat : variance [x] = 0 := by simp [variance, mean]
    rw [if_neg several, flat, Rat.cast_zero, Real.sqrt_zero, div_zero]

/-- The score by the sums of the changes. -/
theorem sharpeLike_eq {returns : List ℚ} (nonempty : returns ≠ []) :
    sharpeLike returns = (returns.sum : ℝ) /
      √(returns.length * ((returns.map (· ^ 2)).sum : ℚ) - (returns.sum : ℝ) ^ 2) := by
  have variance_ : variance returns =
      ((returns.map (· ^ 2)).sum - returns.sum ^ 2 / returns.length) / returns.length := by
    rw [variance, mean, Stats.sum_sq_sub_mean nonempty]
  rw [← Stats.mean_div_deviation (Stats.length_pos nonempty), sharpeLike_eq_div nonempty, variance_, mean]
  push_cast
  rfl

/-- Inserted zeros change the score unless the changes sum to zero. -/
theorem sharpeLike_padded {k : ℕ} {xs ys : List ℚ} (padded : Stats.Padded k xs ys) (nonempty : xs ≠ []) :
    sharpeLike xs = sharpeLike ys ↔ k = 0 ∨ xs.sum = 0 := by
  have length : ys.length = xs.length + k := padded.length
  have nonempty' : ys ≠ [] := by
    rw [← List.length_pos_iff] at nonempty ⊢
    omega
  have sum : ys.sum = xs.sum := by
    have := padded.sum_map (f := id) rfl
    rwa [List.map_id, List.map_id] at this
  have squares : (ys.map (· ^ 2)).sum = (xs.map (· ^ 2)).sum := padded.sum_map (by norm_num)
  have bound : (xs.sum : ℝ) ^ 2 ≤ xs.length * ((xs.map (· ^ 2)).sum : ℚ) := by
    have := Stats.sq_sum_le nonempty
    exact_mod_cast this
  have longer : (xs.length : ℝ) ≤ ys.length := Nat.cast_le.mpr (by omega)
  rw [sharpeLike_eq nonempty, sharpeLike_eq nonempty', sum, squares,
    Stats.ratio_eq_iff (Stats.length_pos nonempty) longer bound, Rat.cast_eq_zero, Nat.cast_inj, length, or_comm]
  exact or_congr_left (by omega)

/-! ## What a snapshot leaves -/

namespace RealTimePerformanceMonitor

/-- The monitor has seen its own state: another look books a change of zero. -/
structure Settled (m : RealTimePerformanceMonitor) : Prop where
  net : m.lastNet = m.net
  peak : m.net ≤ m.equityPeak
  drawdown : m.equityPeak - m.net ≤ m.maxDrawdown
  sum : m.returns.sum = m.lastNet

section Settled
variable {m : RealTimePerformanceMonitor}

theorem Settled.start : Settled {} where
  net := by decide +kernel
  peak := by decide +kernel
  drawdown := by decide +kernel
  sum := rfl

@[simp] theorem net_observed (m : RealTimePerformanceMonitor) : m.observed.net = m.net := rfl

/-- Observing settles any state whose changes sum to its last net profit. -/
theorem observed_settled (sum : m.returns.sum = m.lastNet) : m.observed.Settled where
  net := rfl
  peak := by
    show m.net ≤ if m.equityPeak < m.net then m.net else m.equityPeak
    split
    · exact le_rfl
    · exact not_lt.mp ‹_›
  drawdown := by
    show (if m.equityPeak < m.net then m.net else m.equityPeak) - m.net ≤ _
    simp only [observed]
    split
    · split
      · exact le_rfl
      · exact not_lt.mp ‹_›
    · split
      · exact le_rfl
      · exact not_lt.mp ‹_›
  sum := by
    show (m.returns ++ [m.net - m.lastNet]).sum = m.net
    rw [List.sum_append, List.sum_singleton, sum, add_sub_cancel]

theorem Settled.observed (settled : m.Settled) : m.observed = { m with returns := m.returns ++ [0] } := by
  have drawdown := not_lt.mpr settled.drawdown
  simp only [RealTimePerformanceMonitor.observed, settled.net, sub_self, if_neg (not_lt.mpr settled.peak), if_neg drawdown]

/-- A method writes no change before it observes. -/
theorem write_returns (method : Method) :
    (method.write m).returns = m.returns ∧ (method.write m).lastNet = m.lastNet := by
  cases method with
  | recordFill symbol qty fillPrice fee slippageCost =>
    simp only [Method.write, filled]
    split <;> exact ⟨rfl, rfl⟩
  | _ => exact ⟨rfl, rfl⟩

theorem settled_after (calls : List MonitorCall) : (machine.after {} calls).Settled := by
  refine machine.always .start (fun m c settled => ?_) calls
  rw [next_eq]
  split
  · obtain ⟨returns, lastNet⟩ := write_returns (m := m) c.method
    refine observed_settled ?_
    rw [returns, lastNet, settled.sum]
  · exact settled

end Settled

end RealTimePerformanceMonitor

/-! ## The run with snapshots and the run without -/

/-- The call is one of `snapshot`. -/
def MonitorCall.looks (c : MonitorCall) : Bool :=
  match c.method with
  | .snapshot => true
  | _ => false

/-- The calls of a run but those of `snapshot`. -/
def original (calls : List MonitorCall) : List MonitorCall := calls.filter fun c => !c.looks

/-- A snapshot without its time stamp. -/
def PerformanceSnapshot.sansTs (s : PerformanceSnapshot) : PerformanceSnapshot := { s with ts := 0 }

namespace RealTimePerformanceMonitor

/-- The monitor with another list of changes. -/
def withReturns (m : RealTimePerformanceMonitor) (returns : List ℚ) : RealTimePerformanceMonitor := { m with returns }

/-- The second monitor is the first one but for `k` more changes of zero. -/
def Shadows (k : ℕ) (m m' : RealTimePerformanceMonitor) : Prop :=
  ∃ returns, m' = m.withReturns returns ∧ Stats.Padded k m.returns returns

section Shadows
variable {m m' : RealTimePerformanceMonitor} {c : MonitorCall} {k : ℕ} {returns : List ℚ}

theorem write_withReturns (method : Method) :
    method.write (m.withReturns returns) = (method.write m).withReturns returns := by
  cases method with
  | recordFill symbol qty fillPrice fee slippageCost =>
    show (m.withReturns returns).filled symbol qty fillPrice fee slippageCost =
      (m.filled symbol qty fillPrice fee slippageCost).withReturns returns
    unfold filled
    by_cases opens : (m.positions.getD symbol {}).Opens qty
    · rw [if_pos opens, if_pos (show ((m.withReturns returns).positions.getD symbol {}).Opens qty from opens)]
      rfl
    · rw [if_neg opens, if_neg (show ¬ ((m.withReturns returns).positions.getD symbol {}).Opens qty from opens)]
      rfl
  | _ => rfl

theorem observed_withReturns :
    (m.withReturns returns).observed = m.observed.withReturns (returns ++ [m.net - m.lastNet]) := rfl

theorem Shadows.next (shadows : Shadows k m m') (c : MonitorCall) : Shadows k (machine.next m c) (machine.next m' c) := by
  obtain ⟨returns, rfl, padded⟩ := shadows
  rw [next_eq, next_eq]
  split
  · rw [write_withReturns, observed_withReturns]
    refine ⟨_, rfl, ?_⟩
    show Stats.Padded k ((c.method.write m).returns ++ _) _
    rw [(write_returns c.method).1]
    exact padded.both _
  · exact ⟨returns, rfl, padded⟩

/-- A look of the second monitor is one more change of zero. -/
theorem Shadows.look (shadows : Shadows k m m') (settled : m.Settled) (looks : c.looks = true) :
    Shadows (k + 1) m (machine.next m' c) := by
  obtain ⟨returns, rfl, padded⟩ := shadows
  have isSnapshot : c.method = .snapshot := by
    unfold MonitorCall.looks at looks
    split at looks
    · assumption
    · cases looks
  rw [next_eq, isSnapshot, if_pos (show Method.snapshot.Accepted from trivial)]
  refine ⟨returns ++ [0], ?_, padded.zero⟩
  show (m.withReturns returns).observed = _
  rw [observed_withReturns, settled.observed, ← settled.net, sub_self]
  rfl

/-- The run with the snapshots shadows the run without. -/
theorem shadows_after (calls : List MonitorCall) :
    Shadows (calls.countP MonitorCall.looks) (machine.after {} (original calls)) (machine.after {} calls) := by
  induction calls using List.reverseRecOn with
  | nil => exact ⟨[], rfl, .nil⟩
  | append_singleton calls c ih =>
    rw [Run.Machine.after_snoc, List.countP_append, List.countP_singleton, original, List.filter_append]
    cases looks : c.looks with
    | false =>
      rw [List.filter_cons_of_pos (by simp [looks]), List.filter_nil, Run.Machine.after_snoc]
      exact ih.next c
    | true =>
      rw [List.filter_cons_of_neg (by simp [looks]), List.filter_nil, List.append_nil]
      exact ih.look (settled_after _) looks

/-- An accepted call answers the same, up to the time stamp, unless the score moves. -/
theorem answer_same_iff (shadows : Shadows k m m') (settled : m.Settled) (accepted : c.method.Accepted) :
    (machine.answer m c).map PerformanceSnapshot.sansTs = (machine.answer m' c).map PerformanceSnapshot.sansTs ↔
      k = 0 ∨ (machine.next m c).net = 0 := by
  obtain ⟨returns, rfl, padded⟩ := shadows
  have sum : (c.method.write m).observed.returns.sum = (c.method.write m).net := by
    obtain ⟨changes, lastNet⟩ := write_returns (m := m) c.method
    exact (observed_settled (by rw [changes, lastNet, settled.sum])).sum
  have longer : Stats.Padded k (c.method.write m).observed.returns
      (returns ++ [(c.method.write m).net - (c.method.write m).lastNet]) := by
    show Stats.Padded k ((c.method.write m).returns ++ _) _
    rw [(write_returns c.method).1]
    exact padded.both _
  have score := sharpeLike_padded longer (by simp [observed])
  rw [sum] at score
  rw [next_eq, if_pos accepted, net_observed, ← score]
  unfold Run.Machine.answer
  rw [call_accepted accepted, call_accepted accepted, write_withReturns, observed_withReturns]
  constructor
  · intro same
    exact congrArg PerformanceSnapshot.sharpeLike (Except.ok.inj same)
  · intro same
    simp only [Except.map, read, PerformanceSnapshot.sansTs, withReturns, same]
    rfl

end Shadows

end RealTimePerformanceMonitor

/-! ## The net profit of the calls -/

/-- The mark price an accepted call sets for a symbol. -/
def MonitorCall.markFor (symbol : String) (c : MonitorCall) : Option ℚ :=
  match c.method with
  | .recordMarkPrice s markPrice => if s = symbol ∧ c.method.Accepted then some markPrice else none
  | _ => none

/-- The fee and the slippage of an accepted fill. -/
def MonitorCall.cost (c : MonitorCall) : ℚ :=
  match c.method with
  | .recordFill _ _ _ fee slippageCost => if c.method.Accepted then fee + slippageCost else 0
  | _ => 0

/-- The last mark price of a symbol. -/
def markOf (symbol : String) (calls : List MonitorCall) : Option ℚ :=
  (calls.filterMap (MonitorCall.markFor symbol)).getLast?

/-- What the fills of a symbol have realised, and what its position is worth at
its last mark price over its average one. -/
def profitOf (symbol : String) (calls : List MonitorCall) : ℚ :=
  let account := accountOf symbol calls
  account.realized + (markOf symbol calls).elim 0 fun markPrice => account.qty * (markPrice - account.avg)

/-- The net profit of the calls: that of every filled symbol less all costs. -/
def netOf (calls : List MonitorCall) : ℚ :=
  ∑ symbol ∈ ((fillsOf calls).map Prod.fst).toFinset, profitOf symbol calls - (calls.map MonitorCall.cost).sum

theorem markOf_snoc (symbol : String) (calls : List MonitorCall) (c : MonitorCall) :
    markOf symbol (calls ++ [c]) = (c.markFor symbol).or (markOf symbol calls) := by
  unfold markOf
  rw [List.filterMap_append]
  cases marks : c.markFor symbol with
  | none => simp [marks]
  | some markPrice => simp [marks]

namespace RealTimePerformanceMonitor

/-- The monitor holds the last mark prices and the costs. -/
structure Valued (calls : List MonitorCall) (m : RealTimePerformanceMonitor) : Prop where
  marks : ∀ symbol, (m.position symbol).markPrice = markOf symbol calls
  costs : m.feeTotal + m.slippageTotal = (calls.map MonitorCall.cost).sum

section Net
variable {m : RealTimePerformanceMonitor} {calls : List MonitorCall} {c : MonitorCall}

/-- What a method marks and costs, on top of what the monitor holds. -/
theorem write_valued (accepted : c.method.Accepted) (symbol : String) :
    ((c.method.write m).position symbol).markPrice = (c.markFor symbol).or (m.position symbol).markPrice ∧
      (c.method.write m).feeTotal + (c.method.write m).slippageTotal = m.feeTotal + m.slippageTotal + c.cost := by
  obtain ⟨method, ts, now⟩ := c
  cases method with
  | recordFill s qty fillPrice fee slippageCost =>
    simp only [Method.write, MonitorCall.markFor, MonitorCall.cost, Option.none_or]
    refine ⟨?_, ?_⟩
    · rw [position_filled]
      split
      · rename_i own
        rw [own, PositionState.filled]
        simp only
        repeat' split
        all_goals rfl
      · rfl
    · rw [if_pos accepted]
      unfold filled
      simp only
      split <;> ring
  | recordMarkPrice s markPrice =>
    simp only [Method.write, MonitorCall.markFor, MonitorCall.cost, add_zero]
    refine ⟨?_, rfl⟩
    rw [position_marked]
    by_cases own : symbol = s
    · rw [if_pos own, if_pos ⟨own.symm, accepted⟩]
      rfl
    · rw [if_neg own, if_neg fun both => own both.1.symm]
      rfl
  | snapshot => exact ⟨rfl, (add_zero _).symm⟩

theorem refused_valued (refused : ¬ c.method.Accepted) (symbol : String) : c.markFor symbol = none ∧ c.cost = 0 := by
  obtain ⟨method, ts, now⟩ := c
  cases method with
  | recordFill s qty fillPrice fee slippageCost => exact ⟨rfl, if_neg refused⟩
  | recordMarkPrice s markPrice => exact ⟨if_neg fun both => refused both.2, rfl⟩
  | snapshot => exact ⟨rfl, rfl⟩

theorem valued_after (calls : List MonitorCall) : Valued calls (machine.after {} calls) := by
  refine machine.invariant (P := Valued) ⟨fun _ => rfl, by decide +kernel⟩ ?_ (List.append_nil calls).symm
  rintro done c rest m - - ⟨marks, costs⟩
  rw [next_eq]
  refine ⟨fun symbol => ?_, ?_⟩
  · rw [markOf_snoc, ← marks]
    split
    · rename_i accepted
      exact (write_valued accepted symbol).1
    · rename_i refused
      rw [(refused_valued refused symbol).1]
      rfl
  · rw [List.map_append, List.sum_append, ← costs, List.map_singleton, List.sum_singleton]
    split
    · rename_i accepted
      exact (write_valued accepted "").2
    · rename_i refused
      rw [(refused_valued refused "").2, add_zero]

/-- The monitor's net profit is that of the calls. -/
theorem net_eq (booked : Booked calls m) (valued : Valued calls m) : m.net = netOf calls := by
  have open_ (symbol : String) : (m.position symbol).unrealized =
      (markOf symbol calls).elim 0 fun markPrice =>
        (accountOf symbol calls).qty * (markPrice - (accountOf symbol calls).avg) := by
    unfold PositionState.unrealized
    rw [valued.marks, ← booked.qty, ← booked.avg]
    cases markOf symbol calls with
    | none => rfl
    | some markPrice => by_cases ended : (m.position symbol).qty = 0 <;> simp [ended]
  have unrealized : m.unrealized = (m.positions.keys.map fun symbol => (m.position symbol).unrealized).sum :=
    (congrArg List.sum List.map_map).trans (m.positions.sum_items (fun _ pos => pos.unrealized) {})
  have listed : m.realizedPnl + m.unrealized = ∑ symbol ∈ m.positions.keys.toFinset, profitOf symbol calls := by
    rw [List.sum_toFinset _ m.positions.nodup_keys, booked.realized, unrealized, ← List.sum_map_add]
    refine congrArg List.sum (List.map_congr_left fun symbol _ => ?_)
    rw [open_]
    rfl
  have filled : ∑ symbol ∈ ((fillsOf calls).map Prod.fst).toFinset, profitOf symbol calls =
      ∑ symbol ∈ m.positions.keys.toFinset, profitOf symbol calls := by
    refine Finset.sum_subset (fun symbol member => ?_) fun symbol _ unfilled => ?_
    · obtain ⟨f, among, rfl⟩ := List.mem_map.mp (List.mem_toFinset.mp member)
      exact List.mem_toFinset.mpr (booked.listed f among)
    · have flat : accountOf symbol calls = AvgCost.flat := accountOf_unfilled fun f among same =>
        unfilled (List.mem_toFinset.mpr (same ▸ List.mem_map_of_mem among))
      unfold profitOf
      rw [flat]
      cases markOf symbol calls <;> simp [AvgCost.flat]
  unfold net netOf
  rw [listed, filled, ← valued.costs]
  ring

end Net

end RealTimePerformanceMonitor

/-! ## Observing a run -/

open RealTimePerformanceMonitor

/-- Every call of a run but the snapshots answers as it does in the run without
them, up to its time stamp. -/
def Undisturbed (calls : List MonitorCall) : Prop :=
  ∀ done c rest, calls = done ++ c :: rest → c.looks = false →
    (machine.answer (machine.after {} (original done)) c).map PerformanceSnapshot.sansTs =
      (machine.answer (machine.after {} done) c).map PerformanceSnapshot.sansTs

/-- The calls so far make no net profit and no loss, at every accepted call that
comes after a snapshot. -/
def EvenWhenObserved (calls : List MonitorCall) : Prop :=
  ∀ done c rest, calls = done ++ c :: rest → c.looks = false → c.method.Accepted →
    (∃ look ∈ done, look.looks = true) → netOf (original done ++ [c]) = 0

/-- One call, after the calls before it with and without the snapshots. -/
theorem undisturbed_call_iff (done : List MonitorCall) {c : MonitorCall} :
    (machine.answer (machine.after {} (original done)) c).map PerformanceSnapshot.sansTs =
        (machine.answer (machine.after {} done) c).map PerformanceSnapshot.sansTs ↔
      (c.method.Accepted → (∃ look ∈ done, look.looks = true) → netOf (original done ++ [c]) = 0) := by
  by_cases accepted : c.method.Accepted
  · have booked := booked_after (original done ++ [c])
    have net := net_eq booked (valued_after (original done ++ [c]))
    rw [Run.Machine.after_snoc] at net
    rw [answer_same_iff (shadows_after done) (settled_after (original done)) accepted, net]
    have none : done.countP MonitorCall.looks = 0 ↔ ¬ ∃ look ∈ done, look.looks = true := by
      rw [List.countP_eq_zero, not_exists]
      simp only [not_and]
    rw [none]
    constructor
    · rintro even - looked
      exact even.resolve_left fun unlooked => unlooked looked
    · intro even
      by_cases looked : ∃ look ∈ done, look.looks = true
      · exact .inr (even accepted looked)
      · exact .inl looked
  · obtain ⟨e, raised⟩ := call_refused accepted
    refine iff_of_true ?_ fun accepted' => absurd accepted' accepted
    unfold Run.Machine.answer
    rw [raised, raised]

/-- **Snapshots leave a run undisturbed** exactly when its net profit is zero
whenever a snapshot has been taken before. -/
theorem undisturbed_iff (calls : List MonitorCall) : Undisturbed calls ↔ EvenWhenObserved calls := by
  refine ⟨fun undisturbed done c rest split call => ?_, fun even done c rest split call => ?_⟩
  · exact (undisturbed_call_iff done).mp (undisturbed done c rest split call)
  · exact (undisturbed_call_iff done).mpr (even done c rest split call)

/-- One snapshot before the first fill, which pays a fee: the score of the fill's
snapshot moves from zero to minus one. -/
theorem disturbed_first : ¬ Undisturbed [⟨.snapshot, none, 0⟩, ⟨.recordFill "BTCUSDT" 1 10 1 0, none, 0⟩] := by
  intro undisturbed
  have even := (undisturbed_call_iff [⟨.snapshot, none, 0⟩]).mp
    (undisturbed [⟨.snapshot, none, 0⟩] ⟨.recordFill "BTCUSDT" 1 10 1 0, none, 0⟩ [] rfl rfl)
  exact absurd (even (by decide +kernel) ⟨_, List.mem_singleton_self _, rfl⟩) (by decide +kernel)

end CryptoQuant.Performance
