import CryptoQuant.Execution.Targeting

/-!
# Through flat to the target

`execute_to_target` from the tracked position, under a prefix whose ids are not in use:
what its one or two legs do, one after the other, and why the same call a second time
finds their fills and does nothing.
-/

namespace CryptoQuant
set_option autoImplicit false

namespace PaperExecutor
variable {ex : PaperExecutor} {o : MarketOrder} {start symbol : String} {current target mark : ℚ} {ts : DateTime}

/-- An order under an id that has a fill is answered with it, whatever it asks for. -/
theorem executeMarket_known (allows : ex.assertAllowsExecution = .ok ()) (qty : o.qty ≠ 0) (positive : 0 < o.markPrice)
    {fill : Fill} (known : ex.fills.get? o.clientOrderId = some fill) : ex.executeMarket o = (.ok fill, ex) := by
  unfold executeMarket
  rw [if_neg qty, if_neg (not_le.mpr positive), allows]
  simp only [known]

/-- The fill of an executed order stands under its id. -/
theorem executed_known (ex : PaperExecutor) (o : MarketOrder) :
    (ex.executed o).fills.get? o.clientOrderId = some (ex.fillOf o) :=
  Py.Dict.get?_set_self _ _ _

/-- Fills under other ids stay. -/
theorem executed_known_other {name : String} (other : name ≠ o.clientOrderId) :
    (ex.executed o).fills.get? name = ex.fills.get? name :=
  Py.Dict.get?_set_ne _ _ other

/-- The reduce-only leg of a flip. -/
def closeLeg (ex : PaperExecutor) (start symbol : String) (mark : ℚ) (ts : DateTime) : MarketOrder where
  clientOrderId := s!"{start}-close"
  symbol
  qty := -ex.position symbol
  markPrice := mark
  ts
  reduceOnly := decide (ex.positionQty.get? symbol ≠ none ∧ ex.positionQty.get? symbol ≠ some 0)

/-- The leg of a flip that opens the other side. -/
def openLeg (start symbol : String) (target mark : ℚ) (ts : DateTime) : MarketOrder where
  clientOrderId := s!"{start}-open"
  symbol
  qty := target
  markPrice := mark
  ts

/-- The only leg of a move that does not flip. -/
def singleLeg (ex : PaperExecutor) (start symbol : String) (target mark : ℚ) (ts : DateTime) : MarketOrder where
  clientOrderId := s!"{start}-single"
  symbol
  qty := target - ex.position symbol
  markPrice := mark
  ts

/-- The position flips: it is on one side and the target on the other. -/
theorem flips_iff {current target : ℚ} :
    ¬ (current = 0 ∨ target = 0 ∨ 0 < current * target) ↔ current * target < 0 := by
  simp only [not_or, not_lt]
  constructor
  · rintro ⟨held, open_, opposite⟩
    exact lt_of_le_of_ne opposite (mul_ne_zero held open_)
  · intro opposite
    exact ⟨left_ne_zero_of_mul opposite.ne, right_ne_zero_of_mul opposite.ne, opposite.le⟩

/-- **The legs**: none at the target, two on a flip, else one. -/
theorem legs_cases (ex : PaperExecutor) (start symbol : String) (target mark : ℚ) (ts : DateTime) :
    (ex.position symbol = target ∧ ex.legs start symbol target mark ts = []) ∨
      (ex.position symbol ≠ target ∧ ¬ ex.position symbol * target < 0 ∧
        ex.legs start symbol target mark ts = [ex.singleLeg start symbol target mark ts]) ∨
      (ex.position symbol ≠ target ∧ ex.position symbol * target < 0 ∧
        ex.legs start symbol target mark ts = [ex.closeLeg start symbol mark ts, openLeg start symbol target mark ts]) := by
  unfold legs
  simp only
  by_cases reached : ex.position symbol = target
  · rw [if_pos reached]
    exact .inl ⟨reached, rfl⟩
  rw [if_neg reached]
  by_cases single : ex.position symbol = 0 ∨ target = 0 ∨ 0 < ex.position symbol * target
  · rw [if_pos single]
    exact .inr (.inl ⟨reached, fun opposite => flips_iff.mpr opposite single, rfl⟩)
  · rw [if_neg single]
    exact .inr (.inr ⟨reached, flips_iff.mp single, rfl⟩)

/-- The way `execute_to_target` goes by the sides of the position and the target. -/
theorem executeToTarget_single (moves : current ≠ target) (noFlip : ¬ current * target < 0) {fill : Fill}
    (known : ex.fills.get? (start ++ "-single") = some fill) (allows : ex.assertAllowsExecution = .ok ())
    (positive : 0 < mark) : ex.executeToTarget start symbol current target mark ts = (.ok [fill], ex) := by
  have single : current = 0 ∨ target = 0 ∨ 0 < current * target := not_not.mp fun flips => noFlip (flips_iff.mp flips)
  unfold executeToTarget
  rw [if_neg moves, if_pos single, executeMarket_known allows (sub_ne_zero.mpr moves.symm) positive known]

theorem executeToTarget_flip (flips : current * target < 0) {closed opened : Fill}
    (knownClose : ex.fills.get? (start ++ "-close") = some closed)
    (knownOpen : ex.fills.get? (start ++ "-open") = some opened) (allows : ex.assertAllowsExecution = .ok ())
    (positive : 0 < mark) : ex.executeToTarget start symbol current target mark ts = (.ok [closed, opened], ex) := by
  have moves : current ≠ target := by
    rintro rfl
    exact absurd flips (not_lt.mpr (mul_self_nonneg current))
  obtain ⟨held, open_⟩ : current ≠ 0 ∧ target ≠ 0 := mul_ne_zero_iff.mp flips.ne
  unfold executeToTarget
  rw [if_neg moves, if_neg (flips_iff.mpr flips)]
  simp only
  rw [executeMarket_known allows (neg_ne_zero.mpr held) positive knownClose]
  simp only
  rw [executeMarket_known allows open_ positive knownOpen]

/-- **`execute_to_target` hits its target through flat.** In any state of the executor
whose kill switch lets it, from the tracked position, under a prefix whose ids are not in
use and at a positive price: it does not raise, makes at most two fills that add up to the
way to the target, and ends there; on a flip it closes to exactly zero and then opens; and
the same call again answers the same fills and changes nothing. -/
theorem executeToTarget_hits_target (allows : ex.assertAllowsExecution = .ok ())
    (unused : ∀ suffix ∈ legSuffixes, ex.Fresh (start ++ suffix)) (tracked : current = ex.position symbol)
    (positive : 0 < mark) (target : ℚ) (ts : DateTime) :
    ∃ fills ex', ex.executeToTarget start symbol current target mark ts = (.ok fills, ex') ∧
      fills.length ≤ 2 ∧ (fills.map Fill.qty).sum = target - current ∧ ex'.position symbol = target ∧
      (current * target < 0 → ∃ closed opened flat, fills = [closed, opened] ∧
        ex.executeMarket (ex.closeLeg start symbol mark ts) = (.ok closed, flat) ∧ flat.position symbol = 0 ∧
        flat.executeMarket (openLeg start symbol target mark ts) = (.ok opened, ex')) ∧
      ex'.executeToTarget start symbol current target mark ts = (.ok fills, ex') := by
  subst tracked
  have done := executeToTarget_fresh allows unused symbol target positive ts
  rcases ex.legs_cases start symbol target mark ts with ⟨reached, none_⟩ | ⟨moves, noFlip, one⟩ | ⟨moves, flips, two⟩
  · rw [none_] at done
    refine ⟨[], ex, done, by simp, by simp [reached], reached, fun flips => ?_, done⟩
    rw [reached] at flips
    exact absurd flips (not_lt.mpr (mul_self_nonneg target))
  · rw [one] at done
    let leg := ex.singleLeg start symbol target mark ts
    have moved : (ex.executed leg).position symbol = ex.position symbol + leg.qty := executed_position
    refine ⟨[ex.fillOf leg], ex.executed leg, done, by simp, ?_, ?_, fun flips => absurd flips noFlip, ?_⟩
    · exact List.sum_singleton
    · rw [moved]
      exact add_sub_cancel _ _
    · exact executeToTarget_single moves noFlip (ex.executed_known leg) (executed_allows.trans allows) positive
  · rw [two] at done
    let close := ex.closeLeg start symbol mark ts
    let open_ := openLeg start symbol target mark ts
    obtain ⟨held, opens⟩ : ex.position symbol ≠ 0 ∧ target ≠ 0 := mul_ne_zero_iff.mp flips.ne
    have apart : start ++ "-close" ≠ start ++ "-open" := by
      intro same
      exact absurd ((String.append_right_inj start).mp same) (by decide)
    have closes : ex.executeMarket close = (.ok (ex.fillOf close), ex.executed close) :=
      executeMarket_fresh allows (unused "-close" (by simp [legSuffixes])) (neg_ne_zero.mpr held) positive
        (checkReduceOnly_close rfl (neg_ne_zero.mpr held))
    have flat : (ex.executed close).position symbol = 0 := by
      have moved : (ex.executed close).position symbol = ex.position symbol + close.qty := executed_position
      rw [moved]
      exact add_neg_cancel _
    have fresh : (ex.executed close).Fresh (start ++ "-open") :=
      (unused "-open" (by simp [legSuffixes])).executed apart.symm
    have reopens : (ex.executed close).executeMarket open_ =
        (.ok (ex.fillOf open_), (ex.executed close).executed open_) :=
      executeMarket_fresh (executed_allows.trans allows) fresh opens positive (checkReduceOnly_free rfl)
    have moved : ((ex.executed close).executed open_).position symbol = (ex.executed close).position symbol + target :=
      executed_position
    refine ⟨[ex.fillOf close, ex.fillOf open_], (ex.executed close).executed open_, done, by simp, ?_, ?_,
      fun _ => ⟨_, _, _, rfl, closes, flat, reopens⟩, ?_⟩
    · show -ex.position symbol + (target + 0) = target - ex.position symbol
      ring
    · rw [moved, flat, zero_add]
    · have knownClose : ((ex.executed close).executed open_).fills.get? (start ++ "-close") = some (ex.fillOf close) :=
        (executed_known_other apart).trans (ex.executed_known close)
      exact executeToTarget_flip flips knownClose ((ex.executed close).executed_known open_)
        (executed_allows.trans (executed_allows.trans allows)) positive

/-- A long position of two, held under another id. -/
def longTwo : List Action := [.market ⟨"seed-long", "BTCUSDT", 2, 100, 0, false⟩]

/-- From two to minus one, in two legs. -/
theorem executeToTarget_hits_target_flip : ∃ ex, new OMS.init 0 0 = .ok ex ∧
    ∃ fills ex', (machine.after ex longTwo).executeToTarget "flip-1" "BTCUSDT" 2 (-1) 100 60 = (.ok fills, ex') ∧
      fills.length = 2 ∧ ex'.position "BTCUSDT" = -1 ∧
      ex'.executeToTarget "flip-1" "BTCUSDT" 2 (-1) 100 60 = (.ok fills, ex') := by
  obtain ⟨ex, built, seen⟩ := Run.endsIn_iff.mp (show Run.endsIn (new OMS.init 0 0) (fun ex => decide
    ((∀ suffix ∈ legSuffixes, (machine.after ex longTwo).oms.get ("flip-1" ++ suffix) = none ∧
      (machine.after ex longTwo).fills.get? ("flip-1" ++ suffix) = none) ∧
      (2 : ℚ) = (machine.after ex longTwo).position "BTCUSDT")) = true by decide +kernel)
  obtain ⟨unused, tracked⟩ := of_decide_eq_true seen
  have allows : (machine.after ex longTwo).assertAllowsExecution = .ok () := by
    unfold new at built
    cases built
    rfl
  obtain ⟨fills, ex', done, -, -, arrived, flip, again⟩ := executeToTarget_hits_target allows
    (fun suffix member => ⟨(unused suffix member).1, (unused suffix member).2⟩) tracked (by norm_num : (0 : ℚ) < 100) (-1) 60
  obtain ⟨closed, opened, -, rfl, -⟩ := flip (by norm_num)
  exact ⟨ex, built, _, ex', done, rfl, arrived, again⟩

end PaperExecutor

end CryptoQuant
