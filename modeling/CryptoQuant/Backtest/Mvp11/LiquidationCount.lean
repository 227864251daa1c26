import CryptoQuant.Backtest.Mvp11.Latency

/-!
# What the liquidation counter counts

The counter is raised when the trigger of the liquidation holds, before the positions are
looked at. A flat book whose equity is not positive holds the trigger too, so after a
liquidation at a loss the counter runs on without a fill.
-/

namespace CryptoQuant.Mvp11
set_option autoImplicit false

/-- The fills the liquidation check of an event appends. -/
def liquidationFills (g : Engine) (event : MarketEvent) (reached : LoopState) : List Fill :=
  (checkLiquidation g event reached).fills.drop reached.fills.length

/-- The state of a run, and the number of its events at which a liquidation fill closed a
position. -/
structure LiquidationTally where
  state : LoopState
  events : ℕ

/-- The loop body, with the tally. -/
def LiquidationTally.step (g : Engine) (tally : LiquidationTally) (event : MarketEvent) : Except PyError LiquidationTally := do
  let reached ← atLiquidation g tally.state event
  pure { state := recordEquity g event (checkLiquidation g event reached)
         events := if liquidationFills g event reached = [] then tally.events else tally.events + 1 }

/-- The loop over a list of events, with the tally. -/
def Engine.liquidated (g : Engine) (events : List MarketEvent) : Except PyError LiquidationTally :=
  events.foldlM (LiquidationTally.step g) ⟨g.start, 0⟩

/-- Whenever the trigger holds along the events, there is a position to close. -/
def Engine.ClosesWhatItCounts (g : Engine) (done : List MarketEvent) : Prop :=
  ∀ before event after st reached, done = before ++ event :: after → g.run before = .ok st →
    atLiquidation g st event = .ok reached → mustLiquidate g reached = true →
      ∃ s ∈ g.symbols, deadBand < |reached.positions.getD s 0|

section Fills
variable (g : Engine) (event : MarketEvent)

/-- Liquidating a symbol appends at most a liquidation fill. -/
theorem liquidateSymbol_fills (st : LoopState) (symbol : String) :
    ∃ more, (liquidateSymbol g event st symbol).fills = st.fills ++ more ∧ ∀ fill ∈ more, IsLiquidation fill := by
  rcases liquidateSymbol_cases g event st symbol with ⟨-, same⟩ | ⟨-, fill, id, -, -, closed⟩
  · rw [same]
    exact ⟨[], (List.append_nil _).symm, by simp⟩
  · rw [closed]
    exact ⟨[fill], rfl, fun f member => List.mem_singleton.mp member ▸ ⟨_, _, id⟩⟩

theorem liquidateSymbols_fills (symbols : List String) (st : LoopState) :
    ∃ more, (symbols.foldl (liquidateSymbol g event) st).fills = st.fills ++ more ∧ ∀ fill ∈ more, IsLiquidation fill := by
  induction symbols generalizing st with
  | nil => exact ⟨[], (List.append_nil _).symm, by simp⟩
  | cons symbol symbols ih =>
    obtain ⟨first, here, own⟩ := liquidateSymbol_fills g event st symbol
    obtain ⟨others, later, own'⟩ := ih (liquidateSymbol g event st symbol)
    refine ⟨first ++ others, ?_, fun fill member => (List.mem_append.mp member).elim (own fill) (own' fill)⟩
    rw [List.foldl_cons, later, here, List.append_assoc]

/-- Liquidating the symbols leaves the fills alone exactly when no position is above the
dead-band. -/
theorem liquidateSymbols_fills_iff (symbols : List String) (st : LoopState) :
    (symbols.foldl (liquidateSymbol g event) st).fills = st.fills ↔
      ∀ s ∈ symbols, |st.positions.getD s 0| ≤ deadBand := by
  induction symbols generalizing st with
  | nil => simp
  | cons symbol symbols ih =>
    rw [List.foldl_cons, List.forall_mem_cons]
    rcases liquidateSymbol_cases g event st symbol with ⟨small, same⟩ | ⟨large, fill, -, -, -, closed⟩
    · rw [same, ih]
      exact ⟨fun others => ⟨small, others⟩, fun both => both.2⟩
    · obtain ⟨more, grown, -⟩ := liquidateSymbols_fills g event symbols (liquidateSymbol g event st symbol)
      refine ⟨fun kept => ?_, fun both => absurd both.1 (not_le.mpr large)⟩
      -- the fill of the first symbol stays
      rw [grown, closed, List.append_assoc] at kept
      have nothing := List.append_right_eq_self.mp kept
      cases nothing

/-- The fills of the check are liquidation fills, appended to the others. -/
theorem checkLiquidation_fills (reached : LoopState) :
    (checkLiquidation g event reached).fills = reached.fills ++ liquidationFills g event reached ∧
      ∀ fill ∈ liquidationFills g event reached, IsLiquidation fill := by
  have appended : ∃ more, (checkLiquidation g event reached).fills = reached.fills ++ more ∧
      ∀ fill ∈ more, IsLiquidation fill := by
    unfold checkLiquidation
    split
    · exact liquidateSymbols_fills g event g.symbols _
    · exact ⟨[], (List.append_nil _).symm, by simp⟩
  obtain ⟨more, grown, own⟩ := appended
  have same : liquidationFills g event reached = more := by
    unfold liquidationFills
    rw [grown, List.drop_left]
  rw [same]
  exact ⟨grown, own⟩

/-- **What a check does**: the counter follows the trigger, the fills the positions. -/
theorem checkLiquidation_count (reached : LoopState) :
    (checkLiquidation g event reached).liquidationCount =
        reached.liquidationCount + (if mustLiquidate g reached then 1 else 0) ∧
      (liquidationFills g event reached = [] ↔
        (mustLiquidate g reached = true → ∀ s ∈ g.symbols, |reached.positions.getD s 0| ≤ deadBand)) := by
  have empty : liquidationFills g event reached = [] ↔ (checkLiquidation g event reached).fills = reached.fills := by
    rw [(checkLiquidation_fills g event reached).1, List.append_right_eq_self]
  rw [empty]
  unfold checkLiquidation
  by_cases must : mustLiquidate g reached = true
  · rw [if_pos must, if_pos must]
    refine ⟨(liquidate_frame g event reached).liquidationCount, ?_⟩
    refine (liquidateSymbols_fills_iff g event g.symbols _).trans ?_
    exact ⟨fun flat _ => flat, fun flat => flat must⟩
  · rw [if_neg must, if_neg must]
    exact ⟨rfl, fun _ holds => absurd holds must, fun _ => rfl⟩

end Fills

/-- On a flat book the trigger is an equity that is not positive. -/
theorem mustLiquidate_of_flat {g : Engine} {st : LoopState} (leverage : 0 < g.config.leverage)
    (flat : ∀ s, st.positions.getD s 0 = 0) : mustLiquidate g st = true ↔ st.cash ≤ 0 := by
  have zero (f : ℚ → ℚ) (fixed : f 0 = 0) :
      (st.lastPrice.items.map fun p => f (st.positions.getD p.1 0 * p.2)).sum = 0 := by
    refine List.sum_eq_zero fun x member => ?_
    obtain ⟨p, -, rfl⟩ := List.mem_map.mp member
    rw [flat, zero_mul, fixed]
  have gross : grossNotional st.positions st.lastPrice = 0 := zero (fun x => |x|) abs_zero
  have own : equity st.cash st.positions st.lastPrice = st.cash := by
    unfold equity
    rw [zero (fun x => x) rfl, add_zero]
  have room : 0 < max st.cash tiny * g.config.leverage := by
    refine mul_pos (lt_max_of_lt_right ?_) leverage
    unfold tiny
    norm_num
  unfold mustLiquidate
  simp only [gross, own, zero_mul, decide_eq_true_eq]
  exact or_iff_right (not_lt.mpr room.le)

section Run
variable {g : Engine} {done : List MarketEvent} {st : LoopState}

/-- A step of the tally is one of the run. -/
theorem LiquidationTally.step_ok {tally tally' : LiquidationTally} {event : MarketEvent} :
    tally.step g event = .ok tally' ↔ ∃ reached, atLiquidation g tally.state event = .ok reached ∧
      tally' = ⟨recordEquity g event (checkLiquidation g event reached),
        if liquidationFills g event reached = [] then tally.events else tally.events + 1⟩ := by
  unfold LiquidationTally.step
  rw [Run.bind_ok]
  exact exists_congr fun reached => and_congr_right fun _ => ⟨fun same => (Except.ok.inj same).symm, congrArg Except.ok ∘ Eq.symm⟩

theorem Engine.ClosesWhatItCounts.snoc_iff {event : MarketEvent} {reached : LoopState} (run : g.run done = .ok st)
    (at_ : atLiquidation g st event = .ok reached) :
    g.ClosesWhatItCounts (done ++ [event]) ↔ g.ClosesWhatItCounts done ∧
      (mustLiquidate g reached = true → ∃ s ∈ g.symbols, deadBand < |reached.positions.getD s 0|) := by
  constructor
  · intro closes
    exact ⟨fun before e after t r split => closes before e (after ++ [event]) t r (by rw [split]; simp),
      closes done event [] st reached rfl run at_⟩
  · rintro ⟨closes, last⟩ before e after t r split here there
    rcases List.eq_nil_or_concat after with rfl | ⟨init, x, rfl⟩
    · obtain ⟨rfl, same⟩ := List.append_inj' split rfl
      obtain ⟨rfl, -⟩ := List.cons.inj same
      have state : t = st := Except.ok.inj (here.symm.trans run)
      subst state
      have state : r = reached := Except.ok.inj (there.symm.trans at_)
      subst state
      exact last
    · rw [List.concat_eq_append, ← List.cons_append, ← List.append_assoc] at split
      exact closes before e init t r (List.append_inj_left' split rfl) here there

/-- **The liquidation counter** of a run is the number of its events at which a position
was closed by a liquidation fill exactly when, whenever the trigger held, there was a
position above the dead-band. -/
theorem liquidation_count_iff (run : g.run done = .ok st) :
    ∃ tally, g.liquidated done = .ok tally ∧ tally.state = st ∧
      (st.liquidationCount = tally.events ↔ g.ClosesWhatItCounts done) := by
  suffices general : ∃ tally, g.liquidated done = .ok tally ∧ tally.state = st ∧ tally.events ≤ st.liquidationCount ∧
      (st.liquidationCount = tally.events ↔ g.ClosesWhatItCounts done) by
    obtain ⟨tally, ran, same, -, iff_⟩ := general
    exact ⟨tally, ran, same, iff_⟩
  induction done using List.reverseRecOn generalizing st with
  | nil =>
    cases run
    refine ⟨⟨g.start, 0⟩, rfl, rfl, le_rfl, fun _ before event after t r split => ?_, fun _ => rfl⟩
    exact absurd split (by simp)
  | append_singleton done event ih =>
    obtain ⟨t, before, step⟩ := Run.foldlM_snoc_ok.mp run
    obtain ⟨tally, ran, rfl, atMost, exact_⟩ := ih before
    obtain ⟨reached, at_, rfl⟩ := processEvent_atLiquidation.mp step
    obtain ⟨regime, recorded⟩ := recordEquity_eq g event (checkLiquidation g event reached)
    obtain ⟨count, fills⟩ := checkLiquidation_count g event reached
    refine ⟨_, Run.foldlM_snoc_ok.mpr ⟨tally, ran, LiquidationTally.step_ok.mpr ⟨reached, at_, rfl⟩⟩, rfl, ?_⟩
    rw [Engine.ClosesWhatItCounts.snoc_iff before at_, ← exact_, recorded]
    show (if liquidationFills g event reached = [] then tally.events else tally.events + 1) ≤
        (checkLiquidation g event reached).liquidationCount ∧
      ((checkLiquidation g event reached).liquidationCount =
        (if liquidationFills g event reached = [] then tally.events else tally.events + 1) ↔ _)
    rw [count, atLiquidation_count at_]
    have still : (∃ s ∈ g.symbols, deadBand < |reached.positions.getD s 0|) ↔
        ¬ ∀ s ∈ g.symbols, |reached.positions.getD s 0| ≤ deadBand := by
      push Not
      rfl
    by_cases must : mustLiquidate g reached = true
    · by_cases flat : ∀ s ∈ g.symbols, |reached.positions.getD s 0| ≤ deadBand
      · rw [if_pos must, if_pos (fills.mpr fun _ => flat)]
        -- counted without a fill: the counter stays ahead
        refine ⟨by omega, fun equal => by omega, fun both => ?_⟩
        exact absurd flat (still.mp (both.2 must))
      · rw [if_pos must, if_neg fun none_ => flat (fills.mp none_ must)]
        exact ⟨by omega, fun equal => ⟨by omega, fun _ => still.mpr flat⟩, fun both => by omega⟩
    · rw [if_neg must, if_pos (fills.mpr fun holds => absurd holds must)]
      exact ⟨by omega, fun equal => ⟨by omega, fun holds => absurd holds must⟩, fun both => by omega⟩

end Run

/-- A long position that loses more than the equity. -/
def wipeOut : BacktestArgs where
  events := [(100, 0), (100, 1), (10, 2), (10, 3)].map fun (close, minute) =>
    ⟨"BTCUSDT", .m1, close, 60000000 * minute, "test"⟩
  strategyTargetQtyFns := .ofKeys ["BTCUSDT"] fun _ => .ofKeys ["long"] fun _ _ => 20
  config := { feeBps := 0, slippageBps := 0, impactBps := 0, liquidityShortageBps := 0, initialEquity := 1000,
              baseFillRatio := 1, defaultDepthNotional := 1000000 }
  draws := fun _ => 1 / 2

/-- Up to its liquidation the counter is right. -/
theorem liquidation_count_iff_wipeOut : ∃ g, setUp wipeOut = .ok g ∧ g.ClosesWhatItCounts (wipeOut.ordered.take 3) := by
  obtain ⟨g, admitted, check⟩ := Run.endsIn_iff.mp (show Run.endsIn (setUp wipeOut) (fun g =>
    Run.endsIn (g.run (wipeOut.ordered.take 3)) (fun st => st.liquidationCount = 1) &&
    Run.endsIn (g.liquidated (wipeOut.ordered.take 3)) fun tally => tally.events = 1) = true by decide +kernel)
  obtain ⟨first, second⟩ := Bool.and_eq_true_iff.mp check
  obtain ⟨st, run, one⟩ := Run.endsIn_iff.mp first
  obtain ⟨tally, tallied, one'⟩ := Run.endsIn_iff.mp second
  obtain ⟨tally', tallied', -, iff_⟩ := liquidation_count_iff run
  have same : tally' = tally := Except.ok.inj (tallied'.symm.trans tallied)
  subst same
  exact ⟨g, admitted, iff_.mp ((of_decide_eq_true one).trans (of_decide_eq_true one').symm)⟩

/-- The event after the liquidation is counted, and closes nothing. -/
theorem liquidation_overcounted_wipeOut : ∃ g st tally, setUp wipeOut = .ok g ∧ (∀ e ∈ wipeOut.events, 0 < e.close) ∧
    g.run wipeOut.ordered = .ok st ∧ g.liquidated wipeOut.ordered = .ok tally ∧ st.liquidationCount = 2 ∧
    tally.events = 1 := by
  obtain ⟨g, admitted, check⟩ := Run.endsIn_iff.mp (show Run.endsIn (setUp wipeOut) (fun g =>
    Run.endsIn (g.run wipeOut.ordered) (fun st => st.liquidationCount = 2) &&
    Run.endsIn (g.liquidated wipeOut.ordered) fun tally => tally.events = 1) = true by decide +kernel)
  obtain ⟨first, second⟩ := Bool.and_eq_true_iff.mp check
  obtain ⟨st, run, two⟩ := Run.endsIn_iff.mp first
  obtain ⟨tally, tallied, one⟩ := Run.endsIn_iff.mp second
  exact ⟨g, st, tally, admitted, by decide +kernel, run, tallied, of_decide_eq_true two, of_decide_eq_true one⟩

end CryptoQuant.Mvp11
