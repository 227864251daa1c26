import CryptoQuant.Risk.Envelope

/-!
# The daily stop over a run

The anchor of a day is the equity of its first valid call. A drawdown from it
that a call reports has to stop the day. `_refresh_daily_state` sees to that, but
`apply` turns away a call with no equity left before it gets there: such a call
is the only one whose drawdown goes unnoticed.
-/

namespace CryptoQuant.RiskManager
set_option autoImplicit false

/-- The day a call is made on. -/
def callDay (call : RiskInput × ℤ) : ℤ := dayOf call.1 call.2

/-- A call that gets past the checks of its price and its equity. -/
def validCall (call : RiskInput × ℤ) : Bool := decide (0 < call.1.price ∧ 0 < call.1.equity)

/-- The anchor of a day: the equity of its first valid call. -/
def anchorOf (day : ℤ) (calls : List (RiskInput × ℤ)) : Option ℚ :=
  (calls.find? fun call => decide (callDay call = day) && validCall call).map fun call => call.1.equity

/-- A call of the day has reported a drawdown of `pct` from the day's anchor. -/
def DrawdownReached (pct : ℚ) (day : ℤ) (calls : List (RiskInput × ℤ)) : Prop :=
  ∃ before call after anchor, calls = before ++ call :: after ∧ callDay call = day ∧ 0 < call.1.price ∧
    anchorOf day before = some anchor ∧ pct ≤ (anchor - call.1.equity) / anchor

/-- The call reports a drawdown that should stop its day, on a day not stopped
yet, but has no equity left. -/
def missesDrawdown (mgr : RiskManager) (call : RiskInput × ℤ) : Bool :=
  match mgr.limits.dailyStopDrawdownPct, mgr.dailyAnchorEquity with
  | some pct, some anchor =>
    decide (0 < call.1.price ∧ call.1.equity ≤ 0 ∧ mgr.dailyAnchorDay = some (callDay call) ∧
      mgr.dailyStopTriggered = false ∧ pct ≤ (anchor - call.1.equity) / anchor)
  | _, _ => false

section History
variable {pct : ℚ} {day : ℤ} {done : List (RiskInput × ℤ)} {call : RiskInput × ℤ}

/-- Once a day has an anchor it keeps it. -/
theorem anchorOf_snoc_of_some {anchor : ℚ} (h : anchorOf day done = some anchor) :
    anchorOf day (done ++ [call]) = some anchor := by
  obtain ⟨first, found, value⟩ := Option.map_eq_some_iff.mp h
  unfold anchorOf
  rw [List.find?_append, found, Option.some_or, Option.map_some, value]

theorem anchorOf_snoc_of_none (h : anchorOf day done = none) :
    anchorOf day (done ++ [call]) =
      if callDay call = day ∧ validCall call = true then some call.1.equity else none := by
  have missing := Option.map_eq_none_iff.mp h
  unfold anchorOf
  rw [List.find?_append, missing, Option.none_or, List.find?_singleton]
  by_cases own : callDay call = day ∧ validCall call = true
  · rw [if_pos own, if_pos (by simp [own]), Option.map_some]
  · have other : ¬ (decide (callDay call = day) && validCall call) = true := by
      simpa [Bool.and_eq_true] using own
    rw [if_neg own, if_neg other, Option.map_none]

/-- The anchor of a day is the equity of a valid call of that day. -/
theorem anchorOf_some {anchor : ℚ} (h : anchorOf day done = some anchor) :
    0 < anchor ∧ ∃ first ∈ done, callDay first = day ∧ validCall first = true := by
  obtain ⟨first, found, rfl⟩ := Option.map_eq_some_iff.mp h
  have passes := List.find?_some found
  obtain ⟨own, valid⟩ := Bool.and_eq_true_iff.mp passes
  exact ⟨(of_decide_eq_true valid).2, first, List.mem_of_find?_eq_some found, of_decide_eq_true own, valid⟩

theorem anchorOf_none (h : ∀ first ∈ done, validCall first = true → callDay first ≠ day) :
    anchorOf day done = none := by
  cases found : anchorOf day done with
  | none => rfl
  | some anchor =>
    obtain ⟨-, first, member, own, valid⟩ := anchorOf_some found
    exact absurd own (h first member valid)

/-- A drawdown reached in a longer run was reached before or by its last call. -/
theorem DrawdownReached.snoc (h : DrawdownReached pct day (done ++ [call])) :
    DrawdownReached pct day done ∨ (callDay call = day ∧ 0 < call.1.price ∧
      ∃ anchor, anchorOf day done = some anchor ∧ pct ≤ (anchor - call.1.equity) / anchor) := by
  obtain ⟨before, c, after, anchor, split, own, price, anchored, reached⟩ := h
  rcases List.eq_nil_or_concat after with rfl | ⟨init, last, rfl⟩
  · obtain ⟨rfl, same⟩ := List.append_inj' split rfl
    cases same
    exact .inr ⟨own, price, anchor, anchored, reached⟩
  · have shorter : done ++ [call] = (before ++ c :: init) ++ [last] := by
      rw [split, List.concat_eq_append, List.append_assoc, List.cons_append]
    obtain ⟨rfl, -⟩ := List.append_inj' shorter rfl
    exact .inl ⟨before, c, init, anchor, rfl, own, price, anchored, reached⟩

end History

/-- **What bringing the daily state up to date does**, for a manager with a
daily stop. -/
theorem refreshDailyState_spec {mgr : RiskManager} {pct : ℚ} (stop : mgr.limits.dailyStopDrawdownPct = some pct)
    (req : RiskInput) (today : ℤ) :
    (mgr.refreshDailyState req today).dailyAnchorDay = some (dayOf req today) ∧
      (mgr.dailyAnchorDay ≠ some (dayOf req today) →
        (mgr.refreshDailyState req today).dailyAnchorEquity = some req.equity) ∧
      (mgr.dailyAnchorDay = some (dayOf req today) →
        (mgr.refreshDailyState req today).dailyAnchorEquity = mgr.dailyAnchorEquity ∧
        (mgr.dailyStopTriggered = true → (mgr.refreshDailyState req today).dailyStopTriggered = true) ∧
        ∀ anchor, mgr.dailyAnchorEquity = some anchor → 0 < anchor →
          pct ≤ (anchor - req.equity) / anchor → (mgr.refreshDailyState req today).dailyStopTriggered = true) := by
  unfold refreshDailyState
  rw [stop]
  simp only
  by_cases other : mgr.dailyAnchorDay ≠ some (dayOf req today)
  · rw [if_pos other]
    exact ⟨rfl, fun _ => rfl, fun same => absurd same other⟩
  · have same := not_not.mp other
    rw [if_neg other]
    cases anchored : mgr.dailyAnchorEquity with
    | none => exact ⟨same, fun h => absurd same h, fun _ => ⟨anchored, id, fun _ none_ => by cases none_⟩⟩
    | some anchor =>
      simp only
      by_cases sunk : anchor ≤ 0
      · rw [if_pos sunk]
        refine ⟨same, fun h => absurd same h, fun _ => ⟨anchored, id, ?_⟩⟩
        rintro _ ⟨⟩ positive
        exact absurd positive (not_lt.mpr sunk)
      · rw [if_neg sunk]
        by_cases now : pct ≤ (anchor - req.equity) / anchor ∧ mgr.dailyStopTriggered = false
        · rw [if_pos now]
          exact ⟨same, fun h => absurd same h, fun _ => ⟨rfl, fun _ => rfl, fun _ _ _ _ => rfl⟩⟩
        · rw [if_neg now]
          refine ⟨same, fun h => absurd same h, fun _ => ⟨anchored, id, ?_⟩⟩
          rintro _ ⟨⟩ - reached
          cases triggered : mgr.dailyStopTriggered with
          | true => rfl
          | false => exact absurd ⟨reached, triggered⟩ now

/-- The daily state after a run of calls: the anchor is that of the last day
with a valid call, and a drawdown from it has latched the stop. -/
structure Anchored (pct : ℚ) (done : List (RiskInput × ℤ)) (mgr : RiskManager) : Prop where
  stop : mgr.limits.dailyStopDrawdownPct = some pct
  day : ∀ d, mgr.dailyAnchorDay = some d → ∃ call ∈ done, validCall call = true ∧ callDay call = d
  covers : ∀ call ∈ done, validCall call = true → ∃ d, mgr.dailyAnchorDay = some d ∧ callDay call ≤ d
  anchor : ∀ d, mgr.dailyAnchorDay = some d → mgr.dailyAnchorEquity = anchorOf d done
  latched : ∀ d, mgr.dailyAnchorDay = some d → DrawdownReached pct d done → mgr.dailyStopTriggered = true

section Latch
variable {pct : ℚ} {done : List (RiskInput × ℤ)} {call : RiskInput × ℤ} {mgr : RiskManager}

/-- A rejected call keeps the daily state, unless its drawdown is missed. -/
theorem Anchored.rejected (h : Anchored pct done mgr) (bad : validCall call = false)
    (seen : missesDrawdown mgr call = false) : Anchored pct (done ++ [call]) mgr := by
  have anchors (d : ℤ) : anchorOf d (done ++ [call]) = anchorOf d done := by
    cases found : anchorOf d done with
    | some anchor => exact anchorOf_snoc_of_some found
    | none => rw [anchorOf_snoc_of_none found, if_neg (by simp [bad])]
  refine ⟨h.stop, fun d here => ?_, fun c member valid => ?_, fun d here => ?_, fun d here reached => ?_⟩
  · obtain ⟨c, member, valid, own⟩ := h.day d here
    exact ⟨c, List.mem_append_left _ member, valid, own⟩
  · rcases List.mem_append.mp member with before | last
    · exact h.covers c before valid
    · rw [List.mem_singleton.mp last, bad] at valid
      cases valid
  · rw [anchors]
    exact h.anchor d here
  · rcases reached.snoc with before | ⟨own, price, anchor, anchored, reached⟩
    · exact h.latched d here before
    · -- the rejected call itself reports the drawdown
      have sunk : call.1.equity ≤ 0 := by
        by_contra positive
        have valid : validCall call = true := decide_eq_true ⟨price, not_le.mp positive⟩
        rw [bad] at valid
        cases valid
      have noticed : ¬ (0 < call.1.price ∧ call.1.equity ≤ 0 ∧ mgr.dailyAnchorDay = some (callDay call) ∧
          mgr.dailyStopTriggered = false ∧ pct ≤ (anchor - call.1.equity) / anchor) := by
        unfold missesDrawdown at seen
        rw [h.stop, h.anchor d here, anchored] at seen
        exact of_decide_eq_false seen
      cases triggered : mgr.dailyStopTriggered with
      | true => rfl
      | false => exact absurd ⟨price, sunk, own.symm ▸ here, triggered, reached⟩ noticed

/-- **Step lemma**: a valid call anchors its day or latches the stop. -/
theorem Anchored.valid (h : Anchored pct done mgr) (good : validCall call = true)
    (dates : ∀ c ∈ done, callDay c ≤ callDay call) {mgr' : RiskManager}
    (frame : StopFrame (mgr.refreshed call.1 call.2) mgr') : Anchored pct (done ++ [call]) mgr' := by
  have dynamic := refreshDynamicStopState_frame (mgr.refreshDailyState call.1 call.2) call.1
  obtain ⟨day, fresh, same⟩ := refreshDailyState_spec h.stop call.1 call.2
  have day' : mgr'.dailyAnchorDay = some (callDay call) := (frame.dailyAnchorDay.trans dynamic.dailyAnchorDay).trans day
  have equity' : mgr'.dailyAnchorEquity = (mgr.refreshDailyState call.1 call.2).dailyAnchorEquity :=
    frame.dailyAnchorEquity.trans dynamic.dailyAnchorEquity
  have triggered' : mgr'.dailyStopTriggered = (mgr.refreshDailyState call.1 call.2).dailyStopTriggered :=
    frame.dailyStopTriggered.trans dynamic.dailyStopTriggered
  -- on a new day no earlier call can have anchored it
  have unanchored (new : mgr.dailyAnchorDay ≠ some (callDay call)) : anchorOf (callDay call) done = none := by
    refine anchorOf_none fun first member valid own => ?_
    obtain ⟨d, here, before⟩ := h.covers first member valid
    obtain ⟨last, member', -, own'⟩ := h.day d here
    have after := dates last member'
    have equal : d = callDay call := by omega
    exact new (equal ▸ here)
  refine ⟨?_, fun d here => ?_, fun c member valid => ?_, fun d here => ?_, fun d here reached => ?_⟩
  · rw [frame.limits, refreshed_limits]
    exact h.stop
  · have equal : callDay call = d := Option.some.inj (day'.symm.trans here)
    exact ⟨call, List.mem_append_right _ List.mem_cons_self, good, equal⟩
  · refine ⟨callDay call, day', ?_⟩
    rcases List.mem_append.mp member with before | last
    · exact dates c before
    · rw [List.mem_singleton.mp last]
  · have equal : callDay call = d := Option.some.inj (day'.symm.trans here)
    subst equal
    rw [equity']
    by_cases new : mgr.dailyAnchorDay = some (callDay call)
    · rw [(same new).1, h.anchor _ new]
      obtain ⟨first, member, valid, own⟩ := h.day _ new
      cases found : anchorOf (callDay call) done with
      | some anchor => exact (anchorOf_snoc_of_some found).symm
      | none =>
        have none_ := List.find?_eq_none.mp (Option.map_eq_none_iff.mp found) first member
        exact absurd (by simp [own, valid]) none_
    · rw [fresh new, anchorOf_snoc_of_none (unanchored new), if_pos ⟨rfl, good⟩]
  · have equal : callDay call = d := Option.some.inj (day'.symm.trans here)
    subst equal
    rw [triggered']
    by_cases new : mgr.dailyAnchorDay = some (callDay call)
    · obtain ⟨-, kept, latch⟩ := same new
      rcases reached.snoc with before | ⟨-, -, anchor, anchored, reached⟩
      · exact kept (h.latched _ new before)
      · exact latch anchor ((h.anchor _ new).trans anchored) (anchorOf_some anchored).1 reached
    · -- the first valid call of a day reports no drawdown from itself
      rcases reached.snoc with ⟨before, c, after, anchor, rfl, -, -, anchored, -⟩ | ⟨-, -, anchor, anchored, -⟩
      · obtain ⟨-, first, member, own, valid⟩ := anchorOf_some anchored
        have none_ := List.find?_eq_none.mp (Option.map_eq_none_iff.mp (unanchored new)) first
          (List.mem_append_left _ member)
        exact absurd (by simp [own, valid]) none_
      · rw [unanchored new] at anchored
        cases anchored

/-- One call of a run. -/
theorem Anchored.step (h : Anchored pct done mgr) (dates : ∀ c ∈ done, callDay c ≤ callDay call)
    (seen : missesDrawdown mgr call = false) : Anchored pct (done ++ [call]) (machine.next mgr call) := by
  show Anchored pct (done ++ [call]) (mgr.apply call.1 call.2).2
  cases good : validCall call with
  | true =>
    obtain ⟨price, equity⟩ := of_decide_eq_true good
    rw [apply_of_valid price equity]
    exact h.valid good dates (approve_cases _ call.1).1
  | false =>
    have bad := of_decide_eq_false good
    rw [not_and_or, not_lt, not_lt] at bad
    rw [(apply_of_rejected bad).1]
    exact h.rejected good seen

/-- **The daily stop is latched** over every run that misses no drawdown: once
a call of a day has reported it, no later call of the day is approved a quantity
that opens from flat, adds to the position or flips it. -/
theorem daily_stop_latched {limits : RiskLimits} {alertSink : Option (List RiskAlert)}
    (accepted : RiskManager.new limits alertSink = .ok mgr) (stop : limits.dailyStopDrawdownPct = some pct)
    {calls : List (RiskInput × ℤ)} (dates : calls.Pairwise fun a b => callDay a ≤ callDay b)
    (seen : ∀ done call rest, calls = done ++ call :: rest →
      missesDrawdown (machine.after mgr done) call = false) :
    ∀ done call rest, calls = done ++ call :: rest → DrawdownReached pct (callDay call) done →
      0 ≤ (machine.answer (machine.after mgr done) call).approvedQty * call.1.currentQty ∧
        |(machine.answer (machine.after mgr done) call).approvedQty| ≤ |call.1.currentQty| := by
  have earlier {done rest : List (RiskInput × ℤ)} {call : RiskInput × ℤ} (split : calls = done ++ call :: rest) :
      ∀ c ∈ done, callDay c ≤ callDay call := by
    intro c member
    rw [split, List.pairwise_append] at dates
    exact dates.2.2 c member call List.mem_cons_self
  have base : Anchored pct [] mgr := by
    have fresh : mgr.dailyAnchorDay = none := new_dailyAnchorDay accepted
    refine ⟨new_limits accepted ▸ stop, fun d here => ?_, nofun, fun d here => ?_, fun d here => ?_⟩ <;>
    · rw [fresh] at here
      cases here
  intro done call rest split reached
  have anchored : Anchored pct done (machine.after mgr done) :=
    machine.invariant (P := Anchored pct) base (fun done c rest t cut before holds =>
      holds.step (earlier cut) (before ▸ seen done c rest cut)) split
  show 0 ≤ ((machine.after mgr done).apply call.1 call.2).1.approvedQty * _ ∧
    |((machine.after mgr done).apply call.1 call.2).1.approvedQty| ≤ _
  cases good : validCall call with
  | false =>
    have bad := of_decide_eq_false good
    rw [not_and_or, not_lt, not_lt] at bad
    rw [(apply_of_rejected bad).2, zero_mul, abs_zero]
    exact ⟨le_rfl, abs_nonneg _⟩
  | true =>
    obtain ⟨price, equity⟩ := of_decide_eq_true good
    -- the day of the drawdown is the anchored day, so the stop is triggered
    have today : (machine.after mgr done).dailyAnchorDay = some (callDay call) := by
      obtain ⟨before, c, after, anchor, cut, -, -, found, -⟩ := reached
      obtain ⟨-, first, member, own, valid⟩ := anchorOf_some found
      obtain ⟨d, here, upper⟩ := anchored.covers first (cut ▸ List.mem_append_left _ member) valid
      obtain ⟨last, member', -, own'⟩ := anchored.day d here
      have lower := earlier split last member'
      have equal : d = callDay call := by omega
      exact equal ▸ here
    have triggered := anchored.latched _ today reached
    have kept := (refreshDailyState_spec anchored.stop call.1 call.2).2.2 today
    have dynamic := refreshDynamicStopState_frame ((machine.after mgr done).refreshDailyState call.1 call.2) call.1
    rw [apply_of_valid price equity]
    obtain ⟨-, -, -, daily, -⟩ := approve_envelope ((machine.after mgr done).refreshed call.1 call.2) price equity
    exact daily (dynamic.dailyStopTriggered.trans (kept.2.1 triggered))

end Latch

/-- A call with equity left misses nothing. -/
theorem missesDrawdown_of_equity (mgr : RiskManager) {call : RiskInput × ℤ} (equity : 0 < call.1.equity) :
    missesDrawdown mgr call = false := by
  unfold missesDrawdown
  split
  · exact decide_eq_false fun h => absurd h.2.1 (not_le.mpr equity)
  · rfl

/-- A day that starts at 1000, reports `low` and is back at 1000 a minute later. -/
def dipAndRecover (low : ℚ) : List (RiskInput × ℤ) :=
  [(⟨100, 1000, 0, 0, some 0⟩, 0), (⟨100, low, 0, 0, some 60000000⟩, 0), (⟨100, 1000, 0, 1, some 120000000⟩, 0)]

/-- After a drawdown of six per cent the recovered day stays closed. -/
theorem daily_stop_latched_dip : ∃ mgr, RiskManager.new fivePercent = .ok mgr ∧
    |(machine.answer (machine.after mgr ((dipAndRecover 940).take 2)) (⟨100, 1000, 0, 1, some 120000000⟩, 0)).approvedQty|
      ≤ |0| := by
  obtain ⟨mgr, accepted, -⟩ := Run.endsIn_iff.mp
    (show Run.endsIn (RiskManager.new fivePercent) (fun _ => true) = true by decide +kernel)
  have dates : (dipAndRecover 940).Pairwise fun a b => callDay a ≤ callDay b := by decide +kernel
  have solvent : ∀ call ∈ dipAndRecover 940, 0 < call.1.equity := by decide +kernel
  have reached : DrawdownReached (5 / 100) (callDay (⟨100, 1000, 0, 1, some 120000000⟩, 0)) ((dipAndRecover 940).take 2) :=
    ⟨[(⟨100, 1000, 0, 0, some 0⟩, 0)], (⟨100, 940, 0, 0, some 60000000⟩, 0), [], 1000, rfl, by decide, by norm_num,
      by decide +kernel, by norm_num⟩
  have latched := daily_stop_latched accepted rfl dates (fun done call rest split =>
    missesDrawdown_of_equity _ (solvent call (split ▸ List.mem_append_right _ List.mem_cons_self)))
    ((dipAndRecover 940).take 2) _ [] rfl reached
  exact ⟨mgr, accepted, latched.2⟩

/-- After a drawdown of more than all of its equity the recovered day opens a
position from flat. -/
theorem daily_stop_missed_dip : ∃ mgr, RiskManager.new fivePercent = .ok mgr ∧
    fivePercent.dailyStopDrawdownPct = some (5 / 100) ∧
    ((dipAndRecover (-10)).Pairwise fun a b => callDay a ≤ callDay b) ∧
    DrawdownReached (5 / 100) (callDay (⟨100, 1000, 0, 1, some 120000000⟩, 0)) ((dipAndRecover (-10)).take 2) ∧
    (machine.answer (machine.after mgr ((dipAndRecover (-10)).take 2)) (⟨100, 1000, 0, 1, some 120000000⟩, 0)).approvedQty
      = 1 := by
  obtain ⟨mgr, accepted, opened⟩ := Run.endsIn_iff.mp (show Run.endsIn (RiskManager.new fivePercent) (fun mgr =>
    decide ((machine.answer (machine.after mgr ((dipAndRecover (-10)).take 2))
      (⟨100, 1000, 0, 1, some 120000000⟩, 0)).approvedQty = 1)) = true by decide +kernel)
  refine ⟨mgr, accepted, rfl, by decide +kernel, ?_, of_decide_eq_true opened⟩
  exact ⟨[(⟨100, 1000, 0, 0, some 0⟩, 0)], (⟨100, -10, 0, 0, some 60000000⟩, 0), [], 1000, rfl, by decide, by norm_num,
    by decide +kernel, by norm_num⟩

end CryptoQuant.RiskManager
