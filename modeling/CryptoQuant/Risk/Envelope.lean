import CryptoQuant.Risk.Manager
import Mathlib.Tactic.Ring
import Mathlib.Algebra.Order.Field.Basic

/-!
# The envelope of the risk manager

What a quantity approved for a valid request satisfies, whatever was asked
before: it is within both caps, on the side and within the size of the target,
and a triggered stop keeps it from opening or from holding the position.
-/

namespace CryptoQuant.RiskManager
set_option autoImplicit false

/-- The locals that alerts leave alone: the limits and both stops. -/
structure StopFrame (mgr mgr' : RiskManager) : Prop where
  limits : mgr'.limits = mgr.limits
  dailyAnchorDay : mgr'.dailyAnchorDay = mgr.dailyAnchorDay
  dailyAnchorEquity : mgr'.dailyAnchorEquity = mgr.dailyAnchorEquity
  dailyStopTriggered : mgr'.dailyStopTriggered = mgr.dailyStopTriggered
  dynamicStopTriggered : mgr'.dynamicStopTriggered = mgr.dynamicStopTriggered

/-- The locals that the dynamic stop leaves alone: the limits and the daily stop. -/
structure DailyFrame (mgr mgr' : RiskManager) : Prop where
  limits : mgr'.limits = mgr.limits
  dailyAnchorDay : mgr'.dailyAnchorDay = mgr.dailyAnchorDay
  dailyAnchorEquity : mgr'.dailyAnchorEquity = mgr.dailyAnchorEquity
  dailyStopTriggered : mgr'.dailyStopTriggered = mgr.dailyStopTriggered

section Frames
variable {mgr a b c : RiskManager}

theorem StopFrame.refl (mgr : RiskManager) : StopFrame mgr mgr := by
  constructor <;> rfl

theorem StopFrame.trans (h : StopFrame a b) (k : StopFrame b c) : StopFrame a c :=
  ⟨k.limits.trans h.limits, k.dailyAnchorDay.trans h.dailyAnchorDay,
    k.dailyAnchorEquity.trans h.dailyAnchorEquity, k.dailyStopTriggered.trans h.dailyStopTriggered,
    k.dynamicStopTriggered.trans h.dynamicStopTriggered⟩

theorem warnUtilization_frame (util : ℚ) (active : Bool) (code text : String) :
    StopFrame mgr (mgr.warnUtilization util active code text) := by
  unfold warnUtilization
  split
  · constructor <;> rfl
  · exact .refl mgr

theorem emitUtilizationAlerts_frame (notional leverage : ℚ) :
    StopFrame mgr (mgr.emitUtilizationAlerts notional leverage) := by
  let util := notional / mgr.limits.notionalCap
  let first := mgr.warnUtilization util mgr.notionalWarnActive "risk.notional.near_cap"
    "notional utilization high: "
  let second : RiskManager := { first with notionalWarnActive := decide (first.limits.warnUtilizationPct ≤ util) }
  have noted : StopFrame mgr second := (warnUtilization_frame util _ _ _).trans ⟨rfl, rfl, rfl, rfl, rfl⟩
  have levered : StopFrame second (second.warnUtilization (leverage / mgr.limits.leverageCap)
      second.leverageWarnActive "risk.leverage.near_cap" "leverage utilization high: ") :=
    warnUtilization_frame _ _ _ _
  exact (noted.trans levered).trans ⟨rfl, rfl, rfl, rfl, rfl⟩

/-- The dynamic stop passes the target or, when triggered against it, zero. -/
theorem enforceDynamicStop_cases (mgr : RiskManager) (req : RiskInput) :
    StopFrame mgr (mgr.enforceDynamicStop req).2 ∧
      ((mgr.enforceDynamicStop req).1 = 0 ∨ (mgr.enforceDynamicStop req).1 = req.targetQty ∧
        ¬ (mgr.dynamicStopTriggered = true ∧ isMaintainingOrAddingRisk req.currentQty req.targetQty = true)) := by
  unfold enforceDynamicStop
  split
  · refine ⟨?_, .inl rfl⟩
    show StopFrame mgr { (if mgr.dynamicStopEnforcedAlertActive then mgr else mgr.emitAlert _) with
      dynamicStopEnforcedAlertActive := true }
    split <;> constructor <;> rfl
  · rename_i free
    exact ⟨⟨rfl, rfl, rfl, rfl, rfl⟩, .inr ⟨rfl, free⟩⟩

theorem new_limits {limits : RiskLimits} {alertSink : Option (List RiskAlert)}
    (accepted : RiskManager.new limits alertSink = .ok mgr) : mgr.limits = limits := by
  unfold RiskManager.new at accepted
  split at accepted
  · cases accepted
  · cases accepted
    rfl

theorem new_dailyAnchorDay {limits : RiskLimits} {alertSink : Option (List RiskAlert)}
    (accepted : RiskManager.new limits alertSink = .ok mgr) : mgr.dailyAnchorDay = none := by
  unfold RiskManager.new at accepted
  split at accepted
  · cases accepted
  · cases accepted
    rfl

/-- Bringing the stops up to date keeps the limits. -/
theorem refreshDailyState_limits (req : RiskInput) (today : ℤ) :
    (mgr.refreshDailyState req today).limits = mgr.limits := by
  unfold refreshDailyState
  cases mgr.limits.dailyStopDrawdownPct with
  | none => rfl
  | some stopPct =>
    simp only
    split
    · rfl
    · cases mgr.dailyAnchorEquity with
      | none => rfl
      | some anchor =>
        simp only
        split
        · rfl
        · split <;> rfl

theorem refreshDynamicStopState_frame (mgr : RiskManager) (req : RiskInput) :
    DailyFrame mgr (mgr.refreshDynamicStopState req) := by
  unfold refreshDynamicStopState
  cases mgr.limits.dynamicStop with
  | none => constructor <;> rfl
  | some conf =>
    simp only
    split
    · constructor <;> rfl
    · split
      · constructor <;> rfl
      · cases mgr.trackedExtremePrice with
        | none => constructor <;> rfl
        | some tracked =>
          simp only
          split <;> split <;> constructor <;> rfl

theorem refreshed_limits (req : RiskInput) (today : ℤ) : (mgr.refreshed req today).limits = mgr.limits :=
  (refreshDynamicStopState_frame _ req).limits.trans (refreshDailyState_limits req today)

end Frames

section Apply
variable {mgr : RiskManager} {req : RiskInput} {today : ℤ}

theorem apply_of_rejected (bad : req.price ≤ 0 ∨ req.equity ≤ 0) :
    (mgr.apply req today).2 = mgr ∧ (mgr.apply req today).1.approvedQty = 0 := by
  unfold apply
  by_cases price : req.price ≤ 0
  · rw [if_pos price]
    exact ⟨rfl, rfl⟩
  · have equity : req.equity ≤ 0 := bad.resolve_left price
    rw [if_neg price, if_pos equity]
    exact ⟨rfl, rfl⟩

/-- **What a valid request gets**: the daily stop rejects it, or the quantity
the dynamic stop passes is clamped; the stops stay as they were refreshed. -/
theorem approve_cases (mgr : RiskManager) (req : RiskInput) :
    StopFrame mgr (mgr.approve req).2 ∧
      ((isOpeningNewRisk req.currentQty req.targetQty = true ∧ (mgr.approve req).1.approvedQty = 0) ∨
        ¬ (mgr.dailyStopTriggered = true ∧ isOpeningNewRisk req.currentQty req.targetQty = true) ∧
          ∃ passed, (mgr.approve req).1.approvedQty = (mgr.clamp req passed).1 ∧
            (passed = 0 ∨ passed = req.targetQty ∧ ¬ (mgr.dynamicStopTriggered = true ∧
              isMaintainingOrAddingRisk req.currentQty req.targetQty = true))) := by
  unfold approve
  by_cases stopped : mgr.dailyStopTriggered = true ∧ isOpeningNewRisk req.currentQty req.targetQty = true
  · rw [if_pos stopped]
    exact ⟨.refl _, .inl ⟨stopped.2, rfl⟩⟩
  · rw [if_neg stopped]
    obtain ⟨frame, passed⟩ := enforceDynamicStop_cases mgr req
    have sameCaps (q : ℚ) : (mgr.enforceDynamicStop req).2.clamp req q = mgr.clamp req q := by
      unfold clamp maxByNotional maxByLeverage
      rw [frame.limits]
    refine ⟨frame.trans (emitUtilizationAlerts_frame _ _), .inr ⟨stopped, _, ?_, passed⟩⟩
    exact congrArg Prod.fst (sameCaps _)

theorem apply_of_valid (price : 0 < req.price) (equity : 0 < req.equity) :
    mgr.apply req today = (mgr.refreshed req today).approve req := by
  unfold apply
  rw [if_neg (not_le.mpr price), if_neg (not_le.mpr equity)]

/-- No call changes the limits. -/
theorem apply_limits (mgr : RiskManager) (req : RiskInput) (today : ℤ) :
    (mgr.apply req today).2.limits = mgr.limits := by
  by_cases bad : req.price ≤ 0 ∨ req.equity ≤ 0
  · rw [(apply_of_rejected bad).1]
  · obtain ⟨price, equity⟩ := not_or.mp bad
    rw [apply_of_valid (not_le.mp price) (not_le.mp equity), (approve_cases _ req).1.limits, refreshed_limits]

end Apply

/-! ## Opening and holding risk -/

/-- What opens no new risk reduces or closes the position. -/
theorem not_opening {current target : ℚ} (h : ¬ isOpeningNewRisk current target = true) :
    0 ≤ current * target ∧ |target| ≤ |current| := by
  unfold isOpeningNewRisk at h
  by_cases flat : target = 0
  · rw [flat, mul_zero, abs_zero]
    exact ⟨le_rfl, abs_nonneg _⟩
  · rw [if_neg flat] at h
    split at h
    · exact absurd rfl h
    · split at h
      · exact absurd rfl h
      · rename_i side
        exact ⟨not_lt.mp side, not_lt.mp fun more => h (decide_eq_true more)⟩

/-- What does not hold or add is on the other side or smaller. -/
theorem not_maintaining {current target : ℚ} (h : ¬ isMaintainingOrAddingRisk current target = true) :
    current * target ≤ 0 ∨ |target| < |current| := by
  unfold isMaintainingOrAddingRisk at h
  by_cases flat : current = 0
  · rw [flat, zero_mul]
    exact .inl le_rfl
  · rw [if_neg flat] at h
    by_cases none_ : target = 0
    · rw [none_, mul_zero]
      exact .inl le_rfl
    · rw [if_neg none_] at h
      split at h
      · rename_i opposite
        exact .inl opposite.le
      · exact .inr (not_le.mp fun more => h (decide_eq_true more))

/-- `a` is a part of `q`: zero or on its side, and no larger. -/
structure PartOf (a q : ℚ) : Prop where
  side : a = 0 ∨ 0 < a * q
  size : |a| ≤ |q|

theorem PartOf.zero (q : ℚ) : PartOf 0 q := ⟨.inl rfl, by rw [abs_zero]; exact abs_nonneg q⟩

theorem PartOf.refl (q : ℚ) : PartOf q q := by
  refine ⟨?_, le_rfl⟩
  by_cases zero : q = 0
  · exact .inl zero
  · exact .inr (mul_self_pos.mpr zero)

/-- A part keeps a weak relation of sides. -/
theorem PartOf.same_side {a q c : ℚ} (h : PartOf a q) (side : 0 ≤ c * q) : 0 ≤ a * c := by
  rcases h.side with rfl | same
  · rw [zero_mul]
  · by_contra opposite
    have flipped := mul_neg_of_pos_of_neg same (not_le.mp opposite)
    have square : a * q * (a * c) = a ^ 2 * (c * q) := by ring
    rw [square] at flipped
    exact absurd flipped (not_lt.mpr (mul_nonneg (sq_nonneg a) side))

theorem PartOf.opposite_side {a q c : ℚ} (h : PartOf a q) (side : c * q ≤ 0) : a * c ≤ 0 := by
  have flipped := h.same_side (c := -c) (by linarith)
  linarith

/-- **The clamp**: within both caps, and a part of what it was given. -/
theorem clamp_spec (mgr : RiskManager) {req : RiskInput} (price : 0 < req.price) (equity : 0 < req.equity)
    (q : ℚ) :
    |(mgr.clamp req q).1| * req.price ≤ mgr.limits.notionalCap ∧
      |(mgr.clamp req q).1| * req.price ≤ mgr.limits.leverageCap * req.equity ∧
      PartOf (mgr.clamp req q).1 q := by
  have caps : 0 < mgr.limits.notionalCap ∧ 0 < mgr.limits.leverageCap := by
    have checked := mgr.admitted
    unfold RiskLimits.check at checked
    split at checked
    · cases checked
    · rename_i positive
      obtain ⟨notional, leverage⟩ := not_or.mp positive
      exact ⟨not_le.mp notional, not_le.mp leverage⟩
  have notional : 0 < mgr.maxByNotional req := div_pos caps.1 price
  have leverage : 0 < mgr.maxByLeverage req := div_pos (mul_pos caps.2 equity) price
  have within {a : ℚ} (h : |a| ≤ min (mgr.maxByNotional req) (mgr.maxByLeverage req)) :
      |a| * req.price ≤ mgr.limits.notionalCap ∧ |a| * req.price ≤ mgr.limits.leverageCap * req.equity :=
    ⟨(le_div_iff₀ price).mp (le_min_iff.mp h).1, (le_div_iff₀ price).mp (le_min_iff.mp h).2⟩
  have positive := lt_min notional leverage
  unfold clamp
  by_cases exceeds : min (mgr.maxByNotional req) (mgr.maxByLeverage req) < |q|
  · rw [if_pos exceeds]
    simp only
    by_cases long : 0 < q
    · rw [if_pos long]
      have size := abs_of_pos positive
      obtain ⟨first, second⟩ := within size.le
      exact ⟨first, second, .inr (mul_pos positive long), size.le.trans exceeds.le⟩
    · rw [if_neg long]
      have size : |-min (mgr.maxByNotional req) (mgr.maxByLeverage req)| = _ :=
        (abs_neg _).trans (abs_of_pos positive)
      have short : q < 0 := by
        refine lt_of_le_of_ne (not_lt.mp long) fun zero => ?_
        rw [zero, abs_zero] at exceeds
        exact absurd exceeds (not_lt.mpr positive.le)
      obtain ⟨first, second⟩ := within size.le
      exact ⟨first, second, .inr (mul_pos_of_neg_of_neg (neg_lt_zero.mpr positive) short), size.le.trans exceeds.le⟩
  · rw [if_neg exceeds]
    obtain ⟨first, second⟩ := within (not_lt.mp exceeds)
    exact ⟨first, second, .refl q⟩

/-- **The envelope of one call.** -/
theorem approve_envelope (mgr : RiskManager) {req : RiskInput} (price : 0 < req.price)
    (equity : 0 < req.equity) :
    |(mgr.approve req).1.approvedQty| * req.price ≤ mgr.limits.notionalCap ∧
      |(mgr.approve req).1.approvedQty| * req.price ≤ mgr.limits.leverageCap * req.equity ∧
      PartOf (mgr.approve req).1.approvedQty req.targetQty ∧
      (mgr.dailyStopTriggered = true → 0 ≤ (mgr.approve req).1.approvedQty * req.currentQty ∧
        |(mgr.approve req).1.approvedQty| ≤ |req.currentQty|) ∧
      (mgr.dynamicStopTriggered = true → ¬ (0 < (mgr.approve req).1.approvedQty * req.currentQty ∧
        |req.currentQty| ≤ |(mgr.approve req).1.approvedQty|)) := by
  have zero : 0 ≤ mgr.limits.notionalCap ∧ 0 ≤ mgr.limits.leverageCap * req.equity := by
    obtain ⟨notional, leverage, -⟩ := clamp_spec mgr price equity 0
    have small := mul_nonneg (abs_nonneg (mgr.clamp req 0).1) price.le
    exact ⟨small.trans notional, small.trans leverage⟩
  obtain ⟨-, ⟨-, rejected⟩ | ⟨free, passed, clamped, target⟩⟩ := approve_cases mgr req
  · rw [rejected, abs_zero, zero_mul, zero_mul]
    exact ⟨zero.1, zero.2, .zero _, fun _ => ⟨le_rfl, abs_nonneg _⟩, fun _ h => absurd h.1 (lt_irrefl _)⟩
  · rw [clamped]
    obtain ⟨notional, leverage, part⟩ := clamp_spec mgr price equity passed
    rcases target with rfl | ⟨rfl, held⟩
    · -- the dynamic stop let nothing through
      have none_ : (mgr.clamp req 0).1 = 0 := by
        have size := part.size
        rw [abs_zero] at size
        exact abs_eq_zero.mp (le_antisymm size (abs_nonneg _))
      rw [none_, abs_zero, zero_mul, zero_mul]
      exact ⟨zero.1, zero.2, .zero _, fun _ => ⟨le_rfl, abs_nonneg _⟩, fun _ h => absurd h.1 (lt_irrefl _)⟩
    · refine ⟨notional, leverage, part, fun daily => ?_, fun dynamic => ?_⟩
      · obtain ⟨side, size⟩ := not_opening fun opening => free ⟨daily, opening⟩
        exact ⟨part.same_side side, part.size.trans size⟩
      · rintro ⟨same, size⟩
        rcases not_maintaining fun holding => held ⟨dynamic, holding⟩ with opposite | smaller
        · exact absurd same (not_lt.mpr (part.opposite_side opposite))
        · exact absurd (size.trans part.size) (not_le.mpr smaller)

/-- **The envelope over whole runs**: whatever was asked before, a quantity
approved for a valid request is within both caps, on the side of the target and
no larger than it, and respects the stops that the manager then reports. -/
theorem apply_envelope {limits : RiskLimits} {alertSink : Option (List RiskAlert)} {mgr : RiskManager}
    (accepted : RiskManager.new limits alertSink = .ok mgr) (calls : List (RiskInput × ℤ)) {req : RiskInput}
    (price : 0 < req.price) (equity : 0 < req.equity) (today : ℤ) :
    let answer := (machine.after mgr calls).apply req today
    |answer.1.approvedQty| * req.price ≤ limits.notionalCap ∧
      |answer.1.approvedQty| * req.price ≤ limits.leverageCap * req.equity ∧
      (answer.1.approvedQty = 0 ∨ 0 < answer.1.approvedQty * req.targetQty) ∧
      |answer.1.approvedQty| ≤ |req.targetQty| ∧
      (answer.2.status.dailyStopTriggered = true → 0 ≤ answer.1.approvedQty * req.currentQty ∧
        |answer.1.approvedQty| ≤ |req.currentQty|) ∧
      (answer.2.status.dynamicStopTriggered = true → ¬ (0 < answer.1.approvedQty * req.currentQty ∧
        |req.currentQty| ≤ |answer.1.approvedQty|)) := by
  intro answer
  have same : (machine.after mgr calls).limits = limits := by
    refine machine.always (P := fun m => m.limits = limits) ?_ (fun m call h => ?_) calls
    · exact new_limits accepted
    · exact (apply_limits m call.1 call.2).trans h
  have reached : answer = ((machine.after mgr calls).refreshed req today).approve req := apply_of_valid price equity
  have frame := (approve_cases ((machine.after mgr calls).refreshed req today) req).1
  obtain ⟨notional, leverage, part, daily, dynamic⟩ :=
    approve_envelope ((machine.after mgr calls).refreshed req today) price equity
  rw [refreshed_limits, same] at notional leverage
  rw [reached]
  refine ⟨notional, leverage, part.side, part.size, fun triggered => ?_, fun triggered => ?_⟩
  · exact daily (frame.dailyStopTriggered ▸ triggered)
  · exact dynamic (frame.dynamicStopTriggered ▸ triggered)

/-- Limits with a daily stop at five per cent. -/
def fivePercent : RiskLimits := { notionalCap := 1000, leverageCap := 10, dailyStopDrawdownPct := some (5 / 100) }

theorem apply_envelope_fivePercent :
    ∃ mgr, RiskManager.new fivePercent = .ok mgr ∧
      |((machine.after mgr [(⟨100, 1000, 0, 0, some 0⟩, 0)]).apply ⟨100, 940, 2, 20, some 60000000⟩ 0).1.approvedQty|
        * 100 ≤ 1000 := by
  obtain ⟨mgr, accepted, -⟩ := Run.endsIn_iff.mp
    (show Run.endsIn (RiskManager.new fivePercent) (fun _ => true) = true by decide +kernel)
  let req : RiskInput := ⟨100, 940, 2, 20, some 60000000⟩
  have price : 0 < req.price := by decide +kernel
  have equity : 0 < req.equity := by decide +kernel
  exact ⟨mgr, accepted, (apply_envelope accepted [(⟨100, 1000, 0, 0, some 0⟩, 0)] price equity 0).1⟩

end CryptoQuant.RiskManager
