import CryptoQuant.Risk.TrailingStop
import CryptoQuant.Risk.Envelope

/-!
# Asking again for what was approved

A valid call first brings both stops up to date and then cuts the target down.
Both halves are idempotent: the same request refreshes the stops to where they
already are, and a part of a target that the stops and the caps let through is let
through whole.
-/

namespace CryptoQuant.RiskManager
set_option autoImplicit false

/-! ## The daily state -/

/-- What the manager remembers of the day. -/
structure DailyState where
  anchorDay : Option ℤ
  anchorEquity : Option ℚ
  triggered : Bool

/-- What a manager remembers of the day. -/
def daily (mgr : RiskManager) : DailyState := ⟨mgr.dailyAnchorDay, mgr.dailyAnchorEquity, mgr.dailyStopTriggered⟩

/-- The day after a call that gets past the checks. -/
def DailyState.next (pct : ℚ) (d : DailyState) (day : ℤ) (equity : ℚ) : DailyState :=
  if d.anchorDay ≠ some day then ⟨some day, some equity, false⟩
  else
    match d.anchorEquity with
    | none => d
    | some anchor =>
      if anchor ≤ 0 then d
      else { d with triggered := d.triggered || decide (pct ≤ (anchor - equity) / anchor) }

section Daily
variable {mgr : RiskManager} {pct : ℚ}

/-- Asked on the same day at the same equity, the daily state stays. -/
theorem DailyState.next_next (pos : 0 < pct) (d : DailyState) (day : ℤ) {equity : ℚ} (solvent : 0 < equity) :
    (d.next pct day equity).next pct day equity = d.next pct day equity := by
  by_cases other : d.anchorDay ≠ some day
  · have anchored : d.next pct day equity = ⟨some day, some equity, false⟩ := if_pos other
    -- the anchor is the equity itself, so nothing is drawn down
    rw [anchored]
    simp [DailyState.next, not_le.mpr solvent, pos]
  · have same : d.anchorDay = some day := not_not.mp other
    cases anchored : d.anchorEquity with
    | none => simp [DailyState.next, same, anchored]
    | some anchor =>
      by_cases sunk : anchor ≤ 0
      · simp [DailyState.next, same, anchored, sunk]
      · simp [DailyState.next, same, anchored, sunk]

theorem refreshDailyState_daily (stop : mgr.limits.dailyStopDrawdownPct = some pct) (req : RiskInput) (today : ℤ) :
    (mgr.refreshDailyState req today).daily = mgr.daily.next pct (dayOf req today) req.equity := by
  unfold refreshDailyState DailyState.next
  rw [stop]
  simp only
  by_cases other : mgr.dailyAnchorDay ≠ some (dayOf req today)
  · rw [if_pos other, if_pos (show mgr.daily.anchorDay ≠ _ from other)]
    rfl
  rw [if_neg other, if_neg (show ¬ mgr.daily.anchorDay ≠ _ from other)]
  have equity_ : mgr.daily.anchorEquity = mgr.dailyAnchorEquity := rfl
  rw [equity_]
  cases anchored : mgr.dailyAnchorEquity with
  | none => rfl
  | some anchor =>
    simp only
    by_cases sunk : anchor ≤ 0
    · rw [if_pos sunk, if_pos sunk]
    · rw [if_neg sunk, if_neg sunk]
      cases triggered : mgr.dailyStopTriggered with
      | true => simp [daily, triggered, anchored]
      | false =>
        by_cases reached : pct ≤ (anchor - req.equity) / anchor
        · simp [daily, emitAlert, triggered, reached, anchored]
        · simp [daily, triggered, reached, anchored]

/-- Without a daily stop the daily state is not touched. -/
theorem refreshDailyState_of_none (off : mgr.limits.dailyStopDrawdownPct = none) (req : RiskInput) (today : ℤ) :
    mgr.refreshDailyState req today = mgr := by
  unfold refreshDailyState
  rw [off]

theorem dailyStopDrawdownPct_pos (mgr : RiskManager) (stop : mgr.limits.dailyStopDrawdownPct = some pct) : 0 < pct := by
  have checked := mgr.admitted
  unfold RiskLimits.check at checked
  rw [stop] at checked
  by_contra sunk
  have any : (some pct).any (· ≤ 0) = true := decide_eq_true (not_lt.mp sunk)
  rw [any] at checked
  split at checked <;> simp at checked

end Daily

/-! ## The tracked episode -/

section Tracking
variable {pct price : ℚ}

/-- A price is not beyond the stop that trails it. -/
theorem not_hit_of_extreme (pos : 0 < pct) (price_pos : 0 < price) (side : ℤ) :
    ¬ if 0 < side then price ≤ (1 - pct) * price else (1 + pct) * price ≤ price := by
  have moved : 0 < pct * price := mul_pos pos price_pos
  split
  · exact not_le.mpr (by linarith)
  · exact not_le.mpr (by linarith)

/-- Asked on the same side at the same price, the episode stays. -/
theorem Tracked.next_next (pos : 0 < pct) (price_pos : 0 < price) (t : Tracked) (side : ℤ) :
    (t.next pct side price).next pct side price = t.next pct side price := by
  by_cases flat : side = 0
  · simp [Tracked.next, flat]
  have starts : decide (if 0 < side then price ≤ (1 - pct) * price else (1 + pct) * price ≤ price) = false :=
    decide_eq_false (not_hit_of_extreme pos price_pos side)
  by_cases other : t.side ≠ side
  · have started : t.next pct side price = ⟨side, some price, false⟩ := by
      simp [Tracked.next, flat, other]
    rw [started]
    simp [Tracked.next, flat, starts]
  · have same : t.side = side := not_not.mp other
    cases best : t.extreme with
    | none => simp [Tracked.next, flat, same, best, starts]
    | some tracked => by_cases long : 0 < side <;> simp [Tracked.next, flat, same, best, long]

theorem refreshDynamicStopState_of_none {mgr : RiskManager} (off : mgr.limits.dynamicStop = none) (req : RiskInput) :
    mgr.refreshDynamicStopState req = mgr := by
  unfold refreshDynamicStopState
  rw [off]

end Tracking

/-! ## Asking twice -/

section Twice
variable {mgr again : RiskManager} {req req' : RiskInput} {today later : ℤ}

/-- The two stops stay as the first call left them. -/
structure SameStops (a b : RiskManager) : Prop where
  limits : b.limits = a.limits
  dailyStopTriggered : b.dailyStopTriggered = a.dailyStopTriggered
  dynamicStopTriggered : b.dynamicStopTriggered = a.dynamicStopTriggered

/-- The second call is made in the market, on the day and with the position of
the first one. -/
structure SameSituation (req req' : RiskInput) : Prop where
  price : req'.price = req.price
  equity : req'.equity = req.equity
  currentQty : req'.currentQty = req.currentQty
  day : ∀ today later, dayOf req' later = dayOf req today

/-- **Refreshing twice**: whatever happens to the alerts in between, the second
call finds both stops as the first one left them. -/
theorem refreshed_again (price : 0 < req.price) (equity : 0 < req.equity) (same : SameSituation req req')
    (limits : again.limits = mgr.limits) (daily : again.daily = (mgr.refreshed req today).daily)
    (tracked : again.tracked = (mgr.refreshed req today).tracked) :
    SameStops (mgr.refreshed req today) (again.refreshed req' later) := by
  have frame (m : RiskManager) (r : RiskInput) (t : ℤ) : (m.refreshed r t).daily = (m.refreshDailyState r t).daily := by
    have kept := refreshDynamicStopState_frame (m.refreshDailyState r t) r
    simp only [RiskManager.daily, refreshed, kept.dailyAnchorDay, kept.dailyAnchorEquity, kept.dailyStopTriggered]
  have dailies : (again.refreshed req' later).daily = (mgr.refreshed req today).daily := by
    rw [frame] at daily ⊢
    cases stop : mgr.limits.dailyStopDrawdownPct with
    | none => rw [refreshDailyState_of_none (limits ▸ stop), daily, frame]
    | some pct =>
      have once := refreshDailyState_daily stop req today
      rw [refreshDailyState_daily (limits ▸ stop), daily, frame, once, same.equity, same.day today later]
      exact DailyState.next_next (dailyStopDrawdownPct_pos mgr stop) _ _ equity
  have episodes : (again.refreshed req' later).tracked = (mgr.refreshed req today).tracked := by
    cases stop : mgr.limits.dynamicStop with
    | none =>
      have idle : again.refreshed req' later = again.refreshDailyState req' later :=
        refreshDynamicStopState_of_none (by rw [refreshDailyState_limits, limits]; exact stop) req'
      rw [idle, refreshDailyState_tracked, tracked]
    | some conf =>
      have step (m : RiskManager) (held : m.limits.dynamicStop = some conf) (r : RiskInput) (t : ℤ) :
          (m.refreshed r t).tracked = m.tracked.next conf.trailingPct (side r.currentQty) r.price := by
        rw [refreshed, refreshDynamicStopState_tracked _ r (by rw [refreshDailyState_limits]; exact held),
          refreshDailyState_tracked]
      rw [step again (limits ▸ stop), tracked, step mgr stop, same.currentQty, same.price]
      exact Tracked.next_next (trailingPct_mem mgr stop).1 price _ _
  exact ⟨by rw [refreshed_limits, refreshed_limits, limits], congrArg DailyState.triggered dailies,
    congrArg Tracked.triggered episodes⟩

/-! ## Cutting down twice -/

/-- What the two stops let through of a target. -/
def allowed (mgr : RiskManager) (current target : ℚ) : ℚ :=
  if mgr.dailyStopTriggered ∧ isOpeningNewRisk current target then 0
  else if mgr.dynamicStopTriggered ∧ isMaintainingOrAddingRisk current target then 0
  else target

theorem isOpeningNewRisk_iff {current target : ℚ} : isOpeningNewRisk current target = true ↔
    target ≠ 0 ∧ (current = 0 ∨ current * target < 0 ∨ |current| < |target|) := by
  unfold isOpeningNewRisk
  split
  · simp_all
  · split
    · simp_all
    · split
      · simp_all
      · simp_all

theorem isMaintainingOrAddingRisk_iff {current target : ℚ} : isMaintainingOrAddingRisk current target = true ↔
    current ≠ 0 ∧ target ≠ 0 ∧ 0 ≤ current * target ∧ |current| ≤ |target| := by
  unfold isMaintainingOrAddingRisk
  split
  · simp_all
  · split
    · simp_all
    · split
      · rename_i opposite
        exact iff_of_false (by simp) fun h => absurd h.2.2.1 (not_le.mpr opposite)
      · simp_all

section Parts
variable {a q c : ℚ}

theorem PartOf.ne_zero (part : PartOf a q) (some_ : a ≠ 0) : q ≠ 0 := by
  rintro rfl
  have size := part.size
  rw [abs_zero] at size
  exact some_ (abs_eq_zero.mp (le_antisymm size (abs_nonneg a)))

/-- A part opens new risk only where the whole does. -/
theorem PartOf.opening (part : PartOf a q) (opens : isOpeningNewRisk c a = true) : isOpeningNewRisk c q = true := by
  obtain ⟨some_, how⟩ := isOpeningNewRisk_iff.mp opens
  refine isOpeningNewRisk_iff.mpr ⟨part.ne_zero some_, ?_⟩
  rcases how with flat | flips | more
  · exact .inl flat
  · refine .inr (.inl ?_)
    by_contra side
    have same := part.same_side (not_lt.mp side)
    linarith
  · exact .inr (.inr (more.trans_le part.size))

/-- A part holds or adds only where the whole does. -/
theorem PartOf.maintaining (part : PartOf a q) (holds : isMaintainingOrAddingRisk c a = true) :
    isMaintainingOrAddingRisk c q = true := by
  obtain ⟨held, some_, side, size⟩ := isMaintainingOrAddingRisk_iff.mp holds
  refine isMaintainingOrAddingRisk_iff.mpr ⟨held, part.ne_zero some_, ?_, size.trans part.size⟩
  by_contra flips
  have opposite := part.opposite_side (not_le.mp flips).le
  have flat : c * a = 0 := le_antisymm (by linarith) side
  rcases mul_eq_zero.mp flat with none_ | none_
  · exact held none_
  · exact some_ none_

/-- **What the stops let through of a part of what they let through** is the part. -/
theorem PartOf.allowed (part : PartOf a (mgr.allowed c q)) : mgr.allowed c a = a := by
  by_cases zero : a = 0
  · rw [zero]
    simp [RiskManager.allowed]
  have passed := part.ne_zero zero
  unfold RiskManager.allowed at part passed
  by_cases stopped : mgr.dailyStopTriggered = true ∧ isOpeningNewRisk c q = true
  · rw [if_pos stopped] at passed
    exact absurd rfl passed
  rw [if_neg stopped] at part passed
  by_cases flattened : mgr.dynamicStopTriggered = true ∧ isMaintainingOrAddingRisk c q = true
  · rw [if_pos flattened] at passed
    exact absurd rfl passed
  rw [if_neg flattened] at part
  unfold RiskManager.allowed
  rw [if_neg fun h => stopped ⟨h.1, part.opening h.2⟩, if_neg fun h => flattened ⟨h.1, part.maintaining h.2⟩]

end Parts

/-- What is within both caps is not clamped. -/
theorem clamp_clamp (mgr : RiskManager) (price : 0 < req.price) (equity : 0 < req.equity) (q : ℚ) :
    (mgr.clamp req (mgr.clamp req q).1).1 = (mgr.clamp req q).1 := by
  obtain ⟨notional, leverage, -⟩ := clamp_spec mgr price equity q
  have fits : ¬ min (mgr.maxByNotional req) (mgr.maxByLeverage req) < |(mgr.clamp req q).1| :=
    not_lt.mpr (le_min ((le_div_iff₀ price).mpr notional) ((le_div_iff₀ price).mpr leverage))
  generalize (mgr.clamp req q).1 = a at fits ⊢
  unfold clamp
  rw [if_neg fits]

theorem clamp_zero (mgr : RiskManager) (price : 0 < req.price) (equity : 0 < req.equity) :
    (mgr.clamp req 0).1 = 0 := by
  have size := (clamp_spec mgr price equity 0).2.2.size
  rw [abs_zero] at size
  exact abs_eq_zero.mp (le_antisymm size (abs_nonneg _))

/-- The approved quantity is what the stops let through, clamped. -/
theorem approve_approvedQty (mgr : RiskManager) (price : 0 < req.price) (equity : 0 < req.equity) :
    (mgr.approve req).1.approvedQty = (mgr.clamp req (mgr.allowed req.currentQty req.targetQty)).1 := by
  unfold approve RiskManager.allowed
  by_cases stopped : mgr.dailyStopTriggered = true ∧ isOpeningNewRisk req.currentQty req.targetQty = true
  · rw [if_pos stopped, if_pos stopped, clamp_zero mgr price equity]
  · rw [if_neg stopped, if_neg stopped]
    have sameCaps (q : ℚ) : (mgr.enforceDynamicStop req).2.clamp req q = mgr.clamp req q := by
      unfold clamp maxByNotional maxByLeverage
      rw [(enforceDynamicStop_cases mgr req).1.limits]
    have passed : (mgr.enforceDynamicStop req).1 = if mgr.dynamicStopTriggered = true ∧
        isMaintainingOrAddingRisk req.currentQty req.targetQty = true then 0 else req.targetQty := by
      unfold enforceDynamicStop
      split <;> rfl
    rw [← passed]
    exact congrArg Prod.fst (sameCaps _)

/-- **Approving twice**: with the stops where they were, an approved quantity is
approved as it is. -/
theorem approve_again (price : 0 < req.price) (equity : 0 < req.equity) (same : SameSituation req req')
    (stops : SameStops mgr again) (asked : req'.targetQty = (mgr.approve req).1.approvedQty) :
    (again.approve req').1.approvedQty = (mgr.approve req).1.approvedQty := by
  have caps (q : ℚ) : again.clamp req' q = mgr.clamp req q := by
    unfold clamp maxByNotional maxByLeverage
    rw [stops.limits, same.price, same.equity]
  have allowed_ (q : ℚ) : again.allowed req'.currentQty q = mgr.allowed req.currentQty q := by
    unfold RiskManager.allowed
    rw [stops.dailyStopTriggered, stops.dynamicStopTriggered, same.currentQty]
  have part := (clamp_spec mgr price equity (mgr.allowed req.currentQty req.targetQty)).2.2
  rw [approve_approvedQty again (same.price ▸ price) (same.equity ▸ equity), caps, allowed_, asked,
    approve_approvedQty mgr price equity, part.allowed, clamp_clamp mgr price equity]

/-- **Asking again for an approved quantity is stable**: whatever the manager was
asked before, a valid request with a time of its own gets a quantity that the same
request is granted unchanged when it asks for it at once. -/
theorem resubmission_stable (mgr : RiskManager) (price : 0 < req.price) (equity : 0 < req.equity)
    (dated : req.asOf.isSome) (today later : ℤ) :
    let first := mgr.apply req today
    (first.2.apply { req with targetQty := first.1.approvedQty } later).1.approvedQty = first.1.approvedQty := by
  intro first
  let reached := mgr.refreshed req today
  have answered : first = reached.approve req := apply_of_valid price equity
  have frame : StopFrame reached first.2 := answered ▸ (approve_cases reached req).1
  have tracked : first.2.tracked = reached.tracked := answered ▸ approve_tracked reached req
  have daily : first.2.daily = reached.daily := by
    simp only [RiskManager.daily, frame.dailyAnchorDay, frame.dailyAnchorEquity, frame.dailyStopTriggered]
  let second : RiskInput := { req with targetQty := first.1.approvedQty }
  have same : SameSituation req second := by
    refine ⟨rfl, rfl, rfl, fun today later => ?_⟩
    obtain ⟨asOf, own⟩ := Option.isSome_iff_exists.mp dated
    have own' : second.asOf = some asOf := own
    simp only [dayOf, own, own', Option.map_some, Option.getD_some]
  have stops : SameStops reached (first.2.refreshed second later) :=
    refreshed_again price equity same (frame.limits.trans (refreshed_limits req today)) daily tracked
  have answered' : first.2.apply second later = (first.2.refreshed second later).approve second :=
    apply_of_valid price equity
  show (first.2.apply second later).1.approvedQty = first.1.approvedQty
  rw [answered', approve_again price equity same stops (congrArg (fun a => a.1.approvedQty) answered), ← answered]

/-- A target over the notional cap is clamped, and the clamped quantity granted. -/
theorem resubmission_stable_clamped : ∃ mgr, RiskManager.new fivePercent = .ok mgr ∧
    let first := (machine.after mgr [(⟨100, 1000, 0, 0, some 0⟩, 0)]).apply ⟨100, 1000, 2, 20, some 60000000⟩ 0
    first.1.approvedQty = 10 ∧ (first.2.apply ⟨100, 1000, 2, 10, some 60000000⟩ 0).1.approvedQty = 10 := by
  let req : RiskInput := ⟨100, 1000, 2, 20, some 60000000⟩
  obtain ⟨mgr, accepted, clamped⟩ := Run.endsIn_iff.mp
    (show Run.endsIn (RiskManager.new fivePercent) (fun mgr => decide
      (((machine.after mgr [(⟨100, 1000, 0, 0, some 0⟩, 0)]).apply req 0).1.approvedQty = 10)) = true by decide +kernel)
  have first := of_decide_eq_true clamped
  have price : 0 < req.price := by decide +kernel
  have equity : 0 < req.equity := by decide +kernel
  have again := resubmission_stable (machine.after mgr [(⟨100, 1000, 0, 0, some 0⟩, 0)]) price equity rfl 0 0
  simp only [first] at again
  exact ⟨mgr, accepted, first, again⟩

end Twice

end CryptoQuant.RiskManager
