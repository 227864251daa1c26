import CryptoQuant.Risk.Envelope
import Mathlib.Data.List.DropRight

/-!
# The trailing stop over a run

The manager remembers a side, one extreme price and a flag. They are what an
observer of all calls would compute from the current episode: the calls since
the position last changed its side.
-/

namespace CryptoQuant.RiskManager
set_option autoImplicit false

/-! ## Episodes -/

/-- The side of the position a call is made with. -/
def callSide (call : RiskInput × ℤ) : ℤ := side call.1.currentQty

/-- The side of the position at the last call. -/
def lastSide (calls : List (RiskInput × ℤ)) : ℤ := (calls.getLast?.map callSide).getD 0

/-- The episode: the longest suffix of calls with the non-zero side of the last one. -/
def episode (calls : List (RiskInput × ℤ)) : List (RiskInput × ℤ) :=
  if lastSide calls = 0 then [] else calls.rtakeWhile fun call => decide (callSide call = lastSide calls)

/-- The prices of the episode. -/
def episodePrices (calls : List (RiskInput × ℤ)) : List ℚ := (episode calls).map fun call => call.1.price

/-- The best price for a side: the highest for a long one, the lowest for a short one. -/
def extremeOf (side : ℤ) (prices : List ℚ) : Option ℚ := if 0 < side then prices.max? else prices.min?

/-- The last of the prices is at or beyond the stop below (above) their extreme. -/
def HitsStop (pct : ℚ) (side : ℤ) (prices : List ℚ) : Prop :=
  ∃ price extreme, prices.getLast? = some price ∧ extremeOf side prices = some extreme ∧
    if 0 < side then price ≤ (1 - pct) * extreme else (1 + pct) * extreme ≤ price

/-- Some price was at or beyond the stop when it came. -/
def HasHit (pct : ℚ) (side : ℤ) (prices : List ℚ) : Prop := ∃ before, before <+: prices ∧ HitsStop pct side before

section Episodes
variable {calls : List (RiskInput × ℤ)} {call : RiskInput × ℤ} {pct : ℚ} {side : ℤ} {prices : List ℚ} {price : ℚ}

@[simp] theorem lastSide_snoc : lastSide (calls ++ [call]) = callSide call := by
  simp [lastSide]

/-- A call without a position ends the episode, one of another side starts its own. -/
theorem episode_snoc : episode (calls ++ [call]) =
    if callSide call = 0 then [] else if callSide call = lastSide calls then episode calls ++ [call] else [call] := by
  unfold episode
  rw [lastSide_snoc]
  by_cases flat : callSide call = 0
  · rw [if_pos flat, if_pos flat]
  rw [if_neg flat, if_neg flat, List.rtakeWhile_concat_pos _ _ _ (by simp)]
  by_cases same : callSide call = lastSide calls
  · rw [if_pos same, ← same, if_neg flat]
  · rw [if_neg same]
    -- the call before, if there is one, is of another side
    rcases List.eq_nil_or_concat calls with rfl | ⟨init, last, rfl⟩
    · rfl
    · rw [List.concat_eq_append, lastSide_snoc] at same
      rw [List.concat_eq_append, List.rtakeWhile_concat_neg _ _ _ (by simpa using Ne.symm same), List.nil_append]

theorem extremeOf_singleton : extremeOf side [price] = some price := by
  unfold extremeOf
  split <;> rfl

theorem extremeOf_snoc {extreme : ℚ} (found : extremeOf side prices = some extreme) :
    extremeOf side (prices ++ [price]) = some (if 0 < side then max extreme price else min extreme price) := by
  unfold extremeOf at found ⊢
  cases prices with
  | nil => split at found <;> cases found
  | cons first rest =>
    split at found
    · rename_i long
      rw [if_pos long, if_pos long, List.cons_append, List.max?_cons', List.foldl_append]
      cases found
      rfl
    · rename_i short
      rw [if_neg short, if_neg short, List.cons_append, List.min?_cons', List.foldl_append]
      cases found
      rfl

/-- A hit is never forgotten, and comes with the last price if it is new. -/
theorem hasHit_snoc : HasHit pct side (prices ++ [price]) ↔ HasHit pct side prices ∨ HitsStop pct side (prices ++ [price]) := by
  constructor
  · rintro ⟨before, start, hits⟩
    rcases List.prefix_concat_iff.mp start with rfl | earlier
    · exact .inr hits
    · exact .inl ⟨before, earlier, hits⟩
  · rintro (⟨before, start, hits⟩ | hits)
    · exact ⟨before, start.trans (List.prefix_append _ _), hits⟩
    · exact ⟨_, List.prefix_rfl, hits⟩

theorem not_hasHit_nil : ¬ HasHit pct side [] := by
  rintro ⟨before, start, price, _, last, -⟩
  rw [List.prefix_nil.mp start] at last
  cases last

/-- The first price of an episode is not beyond its own stop. -/
theorem not_hasHit_singleton (pos : 0 < pct) (price_pos : 0 < price) : ¬ HasHit pct side [price] := by
  rw [← List.nil_append [price], hasHit_snoc, List.nil_append]
  rintro (earlier | ⟨last, extreme, isLast, isExtreme, beyond⟩)
  · exact not_hasHit_nil earlier
  · rw [extremeOf_singleton] at isExtreme
    rw [List.getLast?_singleton] at isLast
    cases isLast
    cases isExtreme
    have moved : 0 < pct * price := mul_pos pos price_pos
    split at beyond <;> linarith

end Episodes

/-! ## The remembered episode -/

/-- What the manager remembers of the episode. -/
structure Tracked where
  side : ℤ
  extreme : Option ℚ
  triggered : Bool

/-- What a manager remembers of the episode. -/
def tracked (mgr : RiskManager) : Tracked := ⟨mgr.trackedSide, mgr.trackedExtremePrice, mgr.dynamicStopTriggered⟩

/-- The episode after a call that gets past the checks. -/
def Tracked.next (pct : ℚ) (t : Tracked) (side : ℤ) (price : ℚ) : Tracked :=
  if side = 0 then ⟨0, none, false⟩
  else if t.side ≠ side then ⟨side, some price, false⟩
  else
    match t.extreme with
    | none => { t with extreme := some price }
    | some tracked =>
      let extreme := if 0 < side then max tracked price else min tracked price
      let hit := if 0 < side then price ≤ (1 - pct) * extreme else (1 + pct) * extreme ≤ price
      ⟨side, some extreme, t.triggered || decide hit⟩

section Frame
variable (mgr : RiskManager) (req : RiskInput) (today : ℤ)

theorem refreshDailyState_tracked : (mgr.refreshDailyState req today).tracked = mgr.tracked := by
  unfold refreshDailyState
  cases mgr.limits.dailyStopDrawdownPct with
  | none => rfl
  | some stopPct =>
    simp only
    split
    · rfl
    · cases mgr.dailyAnchorEquity with
      | none => rfl
      | some anchor =>
        simp only
        split
        · rfl
        · split <;> rfl

theorem approve_tracked : (mgr.approve req).2.tracked = mgr.tracked := by
  have warned (mgr : RiskManager) (util : ℚ) (active : Bool) (code text : String) :
      (mgr.warnUtilization util active code text).tracked = mgr.tracked := by
    unfold warnUtilization
    split <;> rfl
  have alerted (mgr : RiskManager) (notional leverage : ℚ) :
      (mgr.emitUtilizationAlerts notional leverage).tracked = mgr.tracked :=
    (warned _ _ _ _ _).trans (warned mgr _ _ _ _)
  have enforced : (mgr.enforceDynamicStop req).2.tracked = mgr.tracked := by
    unfold enforceDynamicStop
    split
    · simp only
      split <;> rfl
    · rfl
  unfold approve
  split
  · rfl
  · exact (alerted _ _ _).trans enforced

/-- The flag is set by a hit, with an alert the first time. -/
theorem alertHit_tracked (hit : Bool) (alert : RiskAlert) :
    (if hit = true ∧ mgr.dynamicStopTriggered = false then { mgr with dynamicStopTriggered := true }.emitAlert alert
      else mgr).tracked = ⟨mgr.trackedSide, mgr.trackedExtremePrice, mgr.dynamicStopTriggered || hit⟩ := by
  cases triggered : mgr.dynamicStopTriggered with
  | true => simp [tracked, triggered]
  | false => cases hit <;> simp [tracked, emitAlert, triggered]

theorem refreshDynamicStopState_tracked {conf : DynamicStopConfig} (stop : mgr.limits.dynamicStop = some conf) :
    (mgr.refreshDynamicStopState req).tracked = mgr.tracked.next conf.trailingPct (side req.currentQty) req.price := by
  unfold refreshDynamicStopState Tracked.next
  rw [stop]
  simp only
  by_cases flat : side req.currentQty = 0
  · rw [if_pos flat, if_pos flat]
    rfl
  rw [if_neg flat, if_neg flat]
  by_cases other : mgr.trackedSide ≠ side req.currentQty
  · rw [if_pos other, if_pos (show mgr.tracked.side ≠ _ from other)]
    rfl
  rw [if_neg other, if_neg (show ¬ mgr.tracked.side ≠ _ from other)]
  have same : mgr.trackedSide = side req.currentQty := not_not.mp other
  have extreme_ : mgr.tracked.extreme = mgr.trackedExtremePrice := rfl
  rw [extreme_]
  cases mgr.trackedExtremePrice with
  | none => rfl
  | some best =>
    simp only
    let extreme := if 0 < side req.currentQty then max best req.price else min best req.price
    refine (alertHit_tracked { mgr with trackedExtremePrice := some extreme } _ _).trans ?_
    by_cases long : 0 < side req.currentQty
    · simp [tracked, stopPriceAt, same, long, mul_comm, extreme]
    · simp [tracked, stopPriceAt, same, long, mul_comm, extreme]

/-- Of a valid call only the refresh of the dynamic stop touches the episode. -/
theorem apply_tracked {conf : DynamicStopConfig} (stop : mgr.limits.dynamicStop = some conf) (price : 0 < req.price)
    (equity : 0 < req.equity) : (mgr.apply req today).2.tracked =
      mgr.tracked.next conf.trailingPct (side req.currentQty) req.price := by
  rw [apply_of_valid price equity, approve_tracked, refreshed,
    refreshDynamicStopState_tracked _ req (by rw [refreshDailyState_limits]; exact stop), refreshDailyState_tracked]

end Frame

/-- The manager remembers the episode of the calls so far. -/
structure Follows (pct : ℚ) (calls : List (RiskInput × ℤ)) (t : Tracked) : Prop where
  side : t.side = lastSide calls
  extreme : t.extreme = extremeOf (lastSide calls) (episodePrices calls)
  triggered : t.triggered = true ↔ HasHit pct (lastSide calls) (episodePrices calls)

section Step
variable {pct : ℚ} {calls : List (RiskInput × ℤ)} {call : RiskInput × ℤ} {t : Tracked}

/-- Prices of a current episode have an extreme. -/
theorem exists_extreme (held : lastSide calls ≠ 0) : ∃ extreme, extremeOf (lastSide calls) (episodePrices calls) = some extreme := by
  have nonempty : episodePrices calls ≠ [] := by
    unfold episodePrices episode
    rw [if_neg held]
    rcases List.eq_nil_or_concat calls with rfl | ⟨init, last, rfl⟩
    · exact absurd rfl held
    · rw [List.concat_eq_append, List.rtakeWhile_concat_pos _ _ _ (by simp)]
      simp
  unfold extremeOf
  split
  · exact Option.ne_none_iff_exists'.mp fun none_ => nonempty (List.max?_eq_none_iff.mp none_)
  · exact Option.ne_none_iff_exists'.mp fun none_ => nonempty (List.min?_eq_none_iff.mp none_)

/-- **Step lemma.** -/
theorem Follows.next (follows : Follows pct calls t) (pos : 0 < pct) (price : 0 < call.1.price) :
    Follows pct (calls ++ [call]) (t.next pct (callSide call) call.1.price) := by
  obtain ⟨side, extreme, triggered⟩ := follows
  unfold Tracked.next
  have prices : episodePrices (calls ++ [call]) = if callSide call = 0 then []
      else if callSide call = lastSide calls then episodePrices calls ++ [call.1.price] else [call.1.price] := by
    unfold episodePrices
    rw [episode_snoc]
    split
    · rfl
    · split
      · rw [List.map_append]
        rfl
      · rfl
  by_cases flat : callSide call = 0
  · rw [if_pos flat] at prices ⊢
    refine ⟨by rw [lastSide_snoc, flat], ?_, ?_⟩
    · rw [prices, lastSide_snoc, flat]
      rfl
    · rw [prices, lastSide_snoc]
      exact iff_of_false nofun not_hasHit_nil
  rw [if_neg flat] at prices ⊢
  by_cases same : callSide call = lastSide calls
  · rw [if_pos same] at prices
    rw [if_neg (not_not.mpr (side.trans same.symm))]
    obtain ⟨best, found⟩ := @exists_extreme calls (same ▸ flat)
    rw [← same] at found extreme triggered
    have grown := @extremeOf_snoc _ _ call.1.price best found
    rw [extreme, found]
    refine ⟨lastSide_snoc.symm, by rw [lastSide_snoc, prices, grown], ?_⟩
    rw [lastSide_snoc, prices, hasHit_snoc, ← triggered]
    simp only [Bool.or_eq_true, decide_eq_true_eq]
    refine or_congr_right ⟨fun beyond => ⟨_, _, List.getLast?_concat, grown, beyond⟩, ?_⟩
    rintro ⟨_, _, last, isExtreme, beyond⟩
    rw [List.getLast?_concat] at last
    rw [grown] at isExtreme
    cases last
    cases isExtreme
    exact beyond
  · rw [if_neg same] at prices
    rw [if_pos fun own => same (own.symm.trans side)]
    refine ⟨lastSide_snoc.symm, by rw [prices, extremeOf_singleton], ?_⟩
    rw [prices]
    exact iff_of_false nofun (not_hasHit_singleton pos price)

end Step

section Run
variable {conf : DynamicStopConfig} {calls : List (RiskInput × ℤ)} {mgr : RiskManager}

/-- The trailing percentage of an admitted stop is positive and below one. -/
theorem trailingPct_mem (mgr : RiskManager) (stop : mgr.limits.dynamicStop = some conf) :
    0 < conf.trailingPct ∧ conf.trailingPct < 1 := by
  have admitted := mgr.admitted
  unfold RiskLimits.check at admitted
  rw [stop] at admitted
  split at admitted
  · cases admitted
  · split at admitted
    · cases admitted
    · split at admitted
      · cases admitted
      · split at admitted
        · cases admitted
        · rename_i within
          simpa using within

/-- Every call gets past the checks of its price and its equity. -/
def AllValid (calls : List (RiskInput × ℤ)) : Prop := ∀ call ∈ calls, 0 < call.1.price ∧ 0 < call.1.equity

theorem follows_after {limits : RiskLimits} {alertSink : Option (List RiskAlert)}
    (built : new limits alertSink = .ok mgr) (stop : limits.dynamicStop = some conf) (valid : AllValid calls) :
    (machine.after mgr calls).limits = limits ∧ Follows conf.trailingPct calls (machine.after mgr calls).tracked := by
  have limits_ : mgr.limits = limits := new_limits built
  have pos : 0 < conf.trailingPct := (trailingPct_mem mgr (limits_ ▸ stop)).1
  have start : mgr.tracked = ⟨0, none, false⟩ := by
    unfold RiskManager.new at built
    split at built
    · cases built
    · cases built
      rfl
  refine machine.invariant (P := fun done t => t.limits = limits ∧ Follows conf.trailingPct done t.tracked)
    ⟨limits_, ?_⟩ ?_ (List.append_nil calls).symm
  · rw [start]
    exact ⟨rfl, rfl, iff_of_false nofun not_hasHit_nil⟩
  · rintro done ⟨req, today⟩ rest t split - ⟨same, follows⟩
    obtain ⟨price, equity⟩ := valid (req, today) (split ▸ List.mem_append_right _ List.mem_cons_self)
    refine ⟨(apply_limits t req today).trans same, ?_⟩
    show Follows _ _ (t.apply req today).2.tracked
    rw [apply_tracked t req today (same ▸ stop) price equity]
    exact follows.next pos price

/-- The stop below (above) an extreme price. -/
def stopAt (pct : ℚ) (side : ℤ) (extreme : ℚ) : ℚ := if 0 < side then (1 - pct) * extreme else (1 + pct) * extreme

/-- The status shows the episode: its side, its extreme price and the stop there,
whether it has hit the stop, and nothing of it without a position. -/
structure ShowsEpisode (pct : ℚ) (calls : List (RiskInput × ℤ)) (status : RiskStatus) : Prop where
  side : status.trackedSide = lastSide calls
  extreme : status.trackedExtremePrice = extremeOf (lastSide calls) (episodePrices calls)
  triggered : status.dynamicStopTriggered = true ↔ HasHit pct (lastSide calls) (episodePrices calls)
  stop : status.dynamicStopPrice = (extremeOf (lastSide calls) (episodePrices calls)).map (stopAt pct (lastSide calls))
  flat : lastSide calls = 0 →
    status.trackedSide = 0 ∧ status.trackedExtremePrice = none ∧ status.dynamicStopTriggered = false

/-- The stop has not moved against the side, and a hit has stayed. -/
structure Ratchets (side : ℤ) (before after : RiskStatus) : Prop where
  stop : ∃ p q, before.dynamicStopPrice = some p ∧ after.dynamicStopPrice = some q ∧ if 0 < side then p ≤ q else q ≤ p
  latched : before.dynamicStopTriggered = true → after.dynamicStopTriggered = true

theorem Follows.shows (follows : Follows conf.trailingPct calls mgr.tracked) (stop : mgr.limits.dynamicStop = some conf) :
    ShowsEpisode conf.trailingPct calls mgr.status := by
  obtain ⟨side, extreme, triggered⟩ := follows
  refine ⟨side, extreme, triggered, ?_, fun flat => ?_⟩
  · have side : mgr.trackedSide = lastSide calls := side
    have extreme : mgr.trackedExtremePrice = _ := extreme
    show mgr.dynamicStopPrice = _
    unfold dynamicStopPrice
    rw [stop, extreme, side]
    by_cases flat : lastSide calls = 0
    · simp [flat, extremeOf, episodePrices, episode]
    · obtain ⟨best, found⟩ := exists_extreme flat
      simp [found, flat, stopPriceAt, stopAt, mul_comm]
  · have none_ : episodePrices calls = [] := by simp [episodePrices, episode, flat]
    rw [none_, flat] at extreme triggered
    exact ⟨side.trans flat, extreme, Bool.eq_false_iff.mpr fun hit => not_hasHit_nil (triggered.mp hit)⟩

/-- Within an episode the stop only moves in the favourable direction. -/
theorem ShowsEpisode.ratchets {pct : ℚ} {call : RiskInput × ℤ} {before after : RiskStatus}
    (shows_ : ShowsEpisode pct calls before) (shows' : ShowsEpisode pct (calls ++ [call]) after) (pos : 0 < pct)
    (small : pct < 1) (same : callSide call = lastSide calls) (held : lastSide calls ≠ 0) :
    Ratchets (lastSide calls) before after := by
  have prices : episodePrices (calls ++ [call]) = episodePrices calls ++ [call.1.price] := by
    rw [episodePrices, episode_snoc, if_neg (same ▸ held), if_pos same, List.map_append]
    rfl
  obtain ⟨best, found⟩ := exists_extreme held
  have grown := @extremeOf_snoc _ _ call.1.price best found
  constructor
  · refine ⟨_, _, by rw [shows_.stop, found]; rfl, by rw [shows'.stop, lastSide_snoc, same, prices, grown]; rfl, ?_⟩
    unfold stopAt
    split
    · exact mul_le_mul_of_nonneg_left (le_max_left _ _) (by linarith)
    · exact mul_le_mul_of_nonneg_left (min_le_left _ _) (by linarith)
  · intro hit
    apply shows'.triggered.mpr
    rw [lastSide_snoc, same, prices, hasHit_snoc]
    exact .inl (shows_.triggered.mp hit)

/-- **The trailing stop follows its specification** over every run of valid
calls: the status shows the episode, and within it the stop only ratchets. -/
theorem trailing_stop_follows {limits : RiskLimits} {alertSink : Option (List RiskAlert)}
    (built : new limits alertSink = .ok mgr) (stop : limits.dynamicStop = some conf) (valid : AllValid calls) :
    ShowsEpisode conf.trailingPct calls (machine.after mgr calls).status ∧
      ∀ call : RiskInput × ℤ, 0 < call.1.price → 0 < call.1.equity → callSide call = lastSide calls →
        lastSide calls ≠ 0 →
          Ratchets (lastSide calls) (machine.after mgr calls).status (machine.after mgr (calls ++ [call])).status := by
  obtain ⟨same, follows⟩ := follows_after built stop valid
  have shows_ := follows.shows (same ▸ stop)
  refine ⟨shows_, fun call price equity own held => ?_⟩
  have valid' : AllValid (calls ++ [call]) := by
    intro c member
    rcases List.mem_append.mp member with earlier | here
    · exact valid c earlier
    · obtain rfl := List.mem_singleton.mp here
      exact ⟨price, equity⟩
  obtain ⟨same', follows'⟩ := follows_after built stop valid'
  obtain ⟨pos, small⟩ := trailingPct_mem mgr (new_limits built ▸ stop)
  exact shows_.ratchets (follows'.shows (same' ▸ stop)) pos small own held

end Run

/-- A long position that rises to 110 and then falls by a tenth. -/
def pullback : List (RiskInput × ℤ) := [(⟨100, 1000, 1, 1, none⟩, 0), (⟨110, 1000, 1, 1, none⟩, 0), (⟨99, 1000, 1, 1, none⟩, 0)]

theorem trailing_stop_follows_pullback : ∃ mgr, new ⟨1000, 2, none, 85 / 100, some ⟨1 / 10⟩⟩ = .ok mgr ∧
    ShowsEpisode (1 / 10) pullback (machine.after mgr pullback).status ∧
      (machine.after mgr pullback).status.dynamicStopTriggered = true := by
  have valid : AllValid pullback := by
    intro call member
    simp only [pullback, List.mem_cons, List.not_mem_nil, or_false] at member
    rcases member with rfl | rfl | rfl <;> norm_num
  obtain ⟨mgr, built, check⟩ := Run.endsIn_iff.mp (show Run.endsIn (new ⟨1000, 2, none, 85 / 100, some ⟨1 / 10⟩⟩)
    (fun mgr => (machine.after mgr pullback).status.dynamicStopTriggered) = true by decide +kernel)
  exact ⟨mgr, built, (trailing_stop_follows built rfl valid).1, check⟩

end CryptoQuant.RiskManager
