import CryptoQuant.Backtest.Mvp11.Book

/-!
# Regime scenarios

`simulate_realistic_execution` and `run_regime_scenarios` of `backtest/mvp11.py`:
one run for each scenario, with its multipliers in the configuration. A scenario
scales `fee_bps` only, so an order whose side has a rate of its own is charged
that rate in every scenario.
-/

namespace CryptoQuant.Mvp11
set_option autoImplicit false

/-- `RegimeScenario`. -/
structure RegimeScenario where
  name : String
  slippageMultiplier : ℚ := 1
  feeMultiplier : ℚ := 1
  latencyBars : Option ℤ := none

/-- `RegimeScenarioResult`. -/
structure RegimeScenarioResult where
  scenario : RegimeScenario
  result : RealisticBacktestResult

/-- The arguments that `simulate_realistic_execution` hands on; `random` gives
the draws of a seeded generator. -/
def simulationArgs (random : ℤ → ℕ → ℚ) (events : List MarketEvent) (symbol : String) (targetQtyFn : MarketEvent → ℚ)
    (config : ExecutionModelConfig) : BacktestArgs where
  events
  strategyTargetQtyFns := Py.Dict.empty.set symbol (Py.Dict.empty.set "default" targetQtyFn)
  config
  draws := random config.randomSeed

/-- `simulate_realistic_execution`. -/
def simulateRealisticExecution (random : ℤ → ℕ → ℚ) (events : List MarketEvent) (symbol : String)
    (targetQtyFn : MarketEvent → ℚ) (config : ExecutionModelConfig) : Except PyError RealisticBacktestResult :=
  runMultiAssetMultiStrategyBacktest (simulationArgs random events symbol targetQtyFn config)

/-- `scenario_config`. -/
def RegimeScenario.config (scenario : RegimeScenario) (baseConfig : ExecutionModelConfig) : ExecutionModelConfig where
  feeBps := baseConfig.feeBps * scenario.feeMultiplier
  slippageBps := baseConfig.slippageBps * scenario.slippageMultiplier
  latencyBars := scenario.latencyBars.getD baseConfig.latencyBars
  latencySeconds := baseConfig.latencySeconds
  initialEquity := baseConfig.initialEquity
  makerFeeBps := baseConfig.makerFeeBps
  takerFeeBps := baseConfig.takerFeeBps
  makerProbability := baseConfig.makerProbability
  baseFillRatio := baseConfig.baseFillRatio
  queueAheadNotional := baseConfig.queueAheadNotional
  cancelRejectProbability := baseConfig.cancelRejectProbability
  defaultDepthNotional := baseConfig.defaultDepthNotional
  impactBps := baseConfig.impactBps
  liquidityShortageBps := baseConfig.liquidityShortageBps
  leverage := baseConfig.leverage
  maintenanceMarginRate := baseConfig.maintenanceMarginRate
  fundingRatePerBar := baseConfig.fundingRatePerBar
  liquidationPenaltyBps := baseConfig.liquidationPenaltyBps
  randomSeed := baseConfig.randomSeed

/-- The loop body of `run_regime_scenarios`. -/
def runScenario (random : ℤ → ℕ → ℚ) (events : List MarketEvent) (symbol : String) (targetQtyFn : MarketEvent → ℚ)
    (baseConfig : ExecutionModelConfig) (scenario : RegimeScenario) : Except PyError RegimeScenarioResult := do
  raiseIf (scenario.feeMultiplier < 0 ∨ scenario.slippageMultiplier < 0)
    (.valueError "scenario multiplier must be >= 0")
  raiseIf (∃ bars ∈ scenario.latencyBars, bars < 0) (.valueError "scenario latency_bars must be >= 0")
  let result ← simulateRealisticExecution random events symbol targetQtyFn (scenario.config baseConfig)
  pure { scenario, result }

/-- `run_regime_scenarios`. -/
def runRegimeScenarios (random : ℤ → ℕ → ℚ) (events : List MarketEvent) (symbol : String)
    (targetQtyFn : MarketEvent → ℚ) (scenarios : List RegimeScenario) (baseConfig : ExecutionModelConfig) :
    Except PyError (List RegimeScenarioResult) :=
  scenarios.mapM (runScenario random events symbol targetQtyFn baseConfig)

/-! ## Two runs that differ in `fee_bps` -/

/-- The engine with another `fee_bps`. -/
def Engine.withFee (g : Engine) (feeBps : ℚ) : Engine := { g with config := { g.config with feeBps } }

/-- The rate in basis points that is set for a side of its own. -/
def overrideBps (config : ExecutionModelConfig) (isMaker : Bool) : Option ℚ :=
  if isMaker then config.makerFeeBps else config.takerFeeBps

theorem feeRate_eq (config : ExecutionModelConfig) (isMaker : Bool) :
    feeRate config isMaker = (overrideBps config isMaker).getD config.feeBps / 10000 := by
  cases isMaker <;> rfl

/-- The second fills are the first ones with their fees scaled. -/
def Scaled (m : ℚ) (fills fills' : List Fill) : Prop :=
  List.Forall₂ (fun fill fill' : Fill => fill' = { fill with fee := m * fill.fee }) fills fills'

/-- The second fills are the first ones up to their fees. -/
def SameButFees (fills fills' : List Fill) : Prop :=
  List.Forall₂ (fun fill fill' : Fill => fill' = { fill with fee := fill'.fee }) fills fills'

/-- The locals that fees reach. -/
structure Money where
  cash : ℚ
  fills : List Fill
  equityCurve : List ℚ
  regimeEquityDelta : Py.Dict String ℚ

/-- The state with other money. -/
def LoopState.pay (st : LoopState) (money : Money) : LoopState :=
  { st with
    cash := money.cash
    fills := money.fills
    equityCurve := money.equityCurve
    regimeEquityDelta := money.regimeEquityDelta }

/-- The two states differ at most in their money, and their fills only in fees. -/
structure Beside (st st' : LoopState) : Prop where
  fills : SameButFees st.fills st'.fills
  rest : ∃ money, st' = st.pay money

/-- The order is filled, and charged a rate of its side's own that costs something. -/
def ChargedOverride (g : Engine) (event : MarketEvent) (st : LoopState) (order : PendingOrder) : Prop :=
  order.qty ≠ 0 ∧ 0 < filledQty g.config event.close order.qty ∧ matchPrice g.config event.close order.qty ≠ 0 ∧
    ∃ bps, overrideBps g.config (decide (g.draws st.drawn < g.config.makerProbability)) = some bps ∧ bps ≠ 0

/-- No order of the list is charged a rate of its side's own. -/
def PlainMatches (g : Engine) (event : MarketEvent) (idx seqLen : ℕ) : LoopState → List PendingOrder → Prop
  | _, [] => True
  | st, order :: rest =>
    ¬ ChargedOverride g event st order ∧
      PlainMatches g event idx seqLen (fillMatured g event idx seqLen st order) rest

section Fills
variable {m : ℚ} {fills fills' : List Fill} {fill fill' : Fill}

/-- Two equally long lists agree after one more item on each when the lists and the items do. -/
theorem forall₂_snoc {α β : Type} {R : α → β → Prop} {xs : List α} {ys : List β} {x : α} {y : β} :
    List.Forall₂ R (xs ++ [x]) (ys ++ [y]) ↔ List.Forall₂ R xs ys ∧ R x y := by
  rw [← List.forall₂_reverse_iff, List.reverse_append, List.reverse_append, List.reverse_singleton,
    List.reverse_singleton, List.singleton_append, List.singleton_append, List.forall₂_cons, List.forall₂_reverse_iff,
    and_comm]

theorem scaled_snoc : Scaled m (fills ++ [fill]) (fills' ++ [fill']) ↔
    Scaled m fills fills' ∧ fill' = { fill with fee := m * fill.fee } :=
  forall₂_snoc

/-- The fees of scaled fills. -/
theorem Scaled.sum_fee (h : Scaled m fills fills') : (fills'.map Fill.fee).sum = m * (fills.map Fill.fee).sum := by
  induction h with
  | nil => simp
  | cons head _ ih =>
    rw [List.map_cons, List.sum_cons, List.map_cons, List.sum_cons, ih, head]
    ring

end Fills

section OneFee
variable {g : Engine} {event : MarketEvent} {order : PendingOrder} {isMaker : Bool} {m : ℚ}

/-- What `fee_bps` changes of a fill. -/
theorem maturedFill_withFee (feeBps : ℚ) : maturedFill (g.withFee feeBps).config event order isMaker =
    { maturedFill g.config event order isMaker with
      fee := (maturedFill g.config event order isMaker).notional *
        (((overrideBps g.config isMaker).getD feeBps) / 10000) } := by
  cases isMaker <;> rfl

/-- A filled quantity is not zero. -/
theorem notional_eq_zero (filled : 0 < filledQty g.config event.close order.qty) :
    (maturedFill g.config event order isMaker).notional = 0 ↔ matchPrice g.config event.close order.qty = 0 := by
  have signed : |signedFillQty g.config event.close order.qty| ≠ 0 := by
    unfold signedFillQty
    rw [abs_ne_zero]
    split
    · exact filled.ne'
    · exact neg_ne_zero.mpr filled.ne'
  show |signedFillQty g.config event.close order.qty| * matchPrice g.config event.close order.qty = 0 ↔ _
  rw [mul_eq_zero, or_iff_right signed]

/-- The fee of one fill scales unless its side has a rate of its own. -/
theorem maturedFill_scaled (stressed : m ≠ 1) (filled : 0 < filledQty g.config event.close order.qty) :
    maturedFill (g.withFee (g.config.feeBps * m)).config event order isMaker =
        { maturedFill g.config event order isMaker with fee := m * (maturedFill g.config event order isMaker).fee } ↔
      ¬ (matchPrice g.config event.close order.qty ≠ 0 ∧ ∃ bps, overrideBps g.config isMaker = some bps ∧ bps ≠ 0) := by
  have fee : (maturedFill g.config event order isMaker).fee =
      (maturedFill g.config event order isMaker).notional *
        ((overrideBps g.config isMaker).getD g.config.feeBps / 10000) := by
    rw [← feeRate_eq]
    rfl
  have onlyFee : ∀ (fill : Fill) (a b : ℚ), ({ fill with fee := a } = { fill with fee := b }) ↔ a = b :=
    fun fill a b => ⟨congrArg Fill.fee, congrArg fun fee => { fill with fee }⟩
  rw [maturedFill_withFee, onlyFee, fee, ne_eq, ← @notional_eq_zero g event order isMaker filled]
  generalize (maturedFill g.config event order isMaker).notional = notional
  cases overrideBps g.config isMaker with
  | none =>
    simp only [Option.getD_none, reduceCtorEq, false_and, exists_false, and_false, not_false_iff, iff_true]
    ring
  | some bps =>
    simp only [Option.getD_some, Option.some.injEq, exists_eq_left', not_and_or, not_not]
    constructor
    · intro same
      have product : (1 - m) * (notional * bps) = 0 := by linarith
      rcases mul_eq_zero.mp product with one | rest
      · exact absurd (by linarith) stressed
      · exact mul_eq_zero.mp rest
    · rintro (zero | zero) <;> rw [zero] <;> ring

end OneFee

/-! ## The loop body in two runs -/

section Pair
variable {g : Engine} {event : MarketEvent} {idx seqLen : ℕ} {st st' : LoopState} {order : PendingOrder} {feeBps m : ℚ}

theorem fillMatured_beside (h : Beside st st') :
    Beside (fillMatured g event idx seqLen st order) (fillMatured (g.withFee feeBps) event idx seqLen st' order) := by
  obtain ⟨fills, money, rfl⟩ := h
  by_cases zero : order.qty = 0
  · rw [fillMatured_of_zero zero, fillMatured_of_zero zero]
    exact ⟨fills, money, rfl⟩
  by_cases unfilled : filledQty g.config event.close order.qty ≤ 0
  · have unfilled' : filledQty (g.withFee feeBps).config event.close order.qty ≤ 0 := unfilled
    rw [fillMatured_of_unfilled zero unfilled, fillMatured_of_unfilled zero unfilled']
    exact ⟨fills, money, rfl⟩
  · have filled : 0 < filledQty g.config event.close order.qty := not_le.mp unfilled
    have filled' : 0 < filledQty (g.withFee feeBps).config event.close order.qty := filled
    rw [fillMatured_of_filled zero filled, fillMatured_of_filled zero filled']
    exact ⟨forall₂_snoc.mpr ⟨fills, rfl⟩, ⟨_, _, money.equityCurve, money.regimeEquityDelta⟩, rfl⟩

/-- One order of the first run and the same one of the second. -/
theorem fillMatured_scaled (stressed : m ≠ 1) (h : Beside st st') :
    Scaled m (fillMatured g event idx seqLen st order).fills
        (fillMatured (g.withFee (g.config.feeBps * m)) event idx seqLen st' order).fills ↔
      Scaled m st.fills st'.fills ∧ ¬ ChargedOverride g event st order := by
  obtain ⟨fills, money, rfl⟩ := h
  unfold ChargedOverride
  by_cases zero : order.qty = 0
  · rw [fillMatured_of_zero zero, fillMatured_of_zero zero]
    exact (and_iff_left fun charged => charged.1 zero).symm
  by_cases unfilled : filledQty g.config event.close order.qty ≤ 0
  · have unfilled' : filledQty (g.withFee (g.config.feeBps * m)).config event.close order.qty ≤ 0 := unfilled
    rw [fillMatured_of_unfilled zero unfilled, fillMatured_of_unfilled zero unfilled']
    exact (and_iff_left fun charged => absurd charged.2.1 (not_lt.mpr unfilled)).symm
  · have filled : 0 < filledQty g.config event.close order.qty := not_le.mp unfilled
    have filled' : 0 < filledQty (g.withFee (g.config.feeBps * m)).config event.close order.qty := filled
    rw [fillMatured_of_filled zero filled, fillMatured_of_filled zero filled']
    refine scaled_snoc.trans (and_congr_right fun _ => ?_)
    refine (maturedFill_scaled stressed filled).trans (not_congr ?_)
    exact ⟨fun charged => ⟨zero, filled, charged⟩, fun charged => charged.2.2⟩

theorem matches_beside (orders : List PendingOrder) (h : Beside st st') :
    Beside (orders.foldl (fillMatured g event idx seqLen) st)
      (orders.foldl (fillMatured (g.withFee feeBps) event idx seqLen) st') := by
  induction orders generalizing st st' with
  | nil => exact h
  | cons order rest ih => exact ih (fillMatured_beside h)

theorem matches_scaled (stressed : m ≠ 1) (orders : List PendingOrder) (h : Beside st st') :
    Scaled m (orders.foldl (fillMatured g event idx seqLen) st).fills
        (orders.foldl (fillMatured (g.withFee (g.config.feeBps * m)) event idx seqLen) st').fills ↔
      Scaled m st.fills st'.fills ∧ PlainMatches g event idx seqLen st orders := by
  induction orders generalizing st st' with
  | nil => exact (and_iff_left trivial).symm
  | cons order rest ih =>
    rw [List.foldl_cons, List.foldl_cons, ih (fillMatured_beside h), fillMatured_scaled stressed h, PlainMatches,
      and_assoc]

theorem cancelStale_pay (money : Money) (stale : PendingOrder) :
    cancelStale (g.withFee feeBps) (st.pay money) stale = (cancelStale g st stale).pay money := by
  unfold cancelStale
  by_cases accepted : g.config.cancelRejectProbability ≤ g.draws st.drawn
  · have accepted' : (g.withFee feeBps).config.cancelRejectProbability ≤
        (g.withFee feeBps).draws (st.pay money).drawn := accepted
    simp only [if_pos accepted, if_pos accepted']
    rfl
  · have accepted' : ¬ (g.withFee feeBps).config.cancelRejectProbability ≤
        (g.withFee feeBps).draws (st.pay money).drawn := accepted
    simp only [if_neg accepted, if_neg accepted']
    rfl

theorem cancelAll_pay (money : Money) (stale : List PendingOrder) :
    stale.foldl (cancelStale (g.withFee feeBps)) (st.pay money) = (stale.foldl (cancelStale g) st).pay money := by
  induction stale generalizing st with
  | nil => rfl
  | cons order rest ih => rw [List.foldl_cons, cancelStale_pay, ih, List.foldl_cons]

theorem updateTarget_pay (money : Money) (symbolSeq : List MarketEvent) (target : ℚ) :
    updateTarget (g.withFee feeBps) event symbolSeq idx target (st.pay money) =
      (updateTarget g event symbolSeq idx target st).pay money := by
  by_cases move : deadBand < |deltaQty event target st|
  · have move' : deadBand < |deltaQty event target (st.pay money)| := move
    have cancels : afterCancels (g.withFee feeBps) event target (st.pay money) = (afterCancels g event target st).pay money :=
      cancelAll_pay money _
    rw [updateTarget_of_move _ _ _ move', updateTarget_of_move _ _ _ move, cancels]
    rfl
  · have move' : ¬ deadBand < |deltaQty event target (st.pay money)| := move
    rw [updateTarget_of_still _ _ _ move', updateTarget_of_still _ _ _ move]

/-- The rest of the loop body reads no money, as long as nothing is liquidated. -/
theorem Beside.updateTarget (h : Beside st st') (symbolSeq : List MarketEvent) (target : ℚ) :
    Beside (updateTarget g event symbolSeq idx target st)
      (Mvp11.updateTarget (g.withFee feeBps) event symbolSeq idx target st') := by
  obtain ⟨fills, money, rfl⟩ := h
  rw [updateTarget_pay]
  refine ⟨?_, money, rfl⟩
  rw [(updateTarget_frame g event idx symbolSeq target st).fills]
  exact fills

theorem Beside.chargeFunding (h : Beside st st') :
    Beside (chargeFunding g st) (Mvp11.chargeFunding (g.withFee feeBps) st') := by
  obtain ⟨fills, money, rfl⟩ := h
  exact ⟨fills, ⟨_, money.fills, money.equityCurve, money.regimeEquityDelta⟩, rfl⟩

theorem Beside.recordEquity (h : Beside st st') :
    Beside (recordEquity g event st) (Mvp11.recordEquity (g.withFee feeBps) event st') := by
  obtain ⟨fills, money, rfl⟩ := h
  obtain ⟨regime, recorded⟩ := recordEquity_eq g event st
  obtain ⟨regime', recorded'⟩ := recordEquity_eq (g.withFee feeBps) event (st.pay money)
  rw [recorded, recorded']
  exact ⟨fills, ⟨money.cash, money.fills, _, regime'⟩, rfl⟩

end Pair

/-- No matured order of the event is charged a rate of its side's own. -/
def PlainEvent (g : Engine) (event : MarketEvent) (st : LoopState) : Prop :=
  ∀ symbolSeq idx, g.symbolEvents.get? event.symbol = some symbolSeq →
    g.eventIndex.get? (event.symbol, event.ts) = some idx →
      PlainMatches g event idx symbolSeq.length
        { st with
          lastPrice := st.lastPrice.set event.symbol event.close
          pending := st.pending.filter fun order => decide (order ∉ st.pending.filter (isMatured event idx)) }
        (st.pending.filter (isMatured event idx))

/-- No order of the run is charged a rate of its side's own. -/
def PlainRun (g : Engine) : LoopState → List MarketEvent → Prop
  | _, [] => True
  | st, event :: rest => PlainEvent g event st ∧ ∀ st', processEvent g st event = .ok st' → PlainRun g st' rest

section Run
variable {g : Engine} {event : MarketEvent} {st st' u u' : LoopState} {m : ℚ}

/-- An event that does not liquidate: its fills are those of the matured orders. -/
theorem eventStep_calm {symbolSeq : List MarketEvent} {idx : ℕ} {target : ℚ}
    (calm : (eventStep g event symbolSeq idx target st).liquidationCount = 0) :
    eventStep g event symbolSeq idx target st =
        recordEquity g event (beforeLiquidation g event symbolSeq idx target st) ∧
      (eventStep g event symbolSeq idx target st).fills =
        (processMatured g event idx symbolSeq.length
          { st with lastPrice := st.lastPrice.set event.symbol event.close }).fills := by
  have still := (not_liquidated calm).2
  have recorded : eventStep g event symbolSeq idx target st =
      recordEquity g event (beforeLiquidation g event symbolSeq idx target st) := congrArg (recordEquity g event) still
  refine ⟨recorded, ?_⟩
  rw [recorded]
  obtain ⟨regime, written⟩ := recordEquity_eq g event (beforeLiquidation g event symbolSeq idx target st)
  rw [written]
  exact (updateTarget_frame g event idx symbolSeq target _).fills

/-- **Step lemma**: an event in both runs. -/
theorem processEvent_beside (stressed : m ≠ 1) (h : Beside st st') (step : processEvent g st event = .ok u)
    (step' : processEvent (g.withFee (g.config.feeBps * m)) st' event = .ok u') (calm : u.liquidationCount = 0)
    (calm' : u'.liquidationCount = 0) :
    Beside u u' ∧ (Scaled m u.fills u'.fills ↔ Scaled m st.fills st'.fills ∧ PlainEvent g event st) := by
  obtain ⟨symbolSeq, idx, target, series, index, goal, rfl⟩ := processEvent_ok.mp step
  obtain ⟨symbolSeq', idx', target', series', index', goal', rfl⟩ := processEvent_ok.mp step'
  obtain rfl : symbolSeq' = symbolSeq := Option.some.inj (series'.symm.trans series)
  obtain rfl : idx' = idx := Option.some.inj (index'.symm.trans index)
  obtain rfl : target' = target := Except.ok.inj (goal'.symm.trans goal)
  obtain ⟨recorded, fills⟩ := eventStep_calm calm
  obtain ⟨recorded', fills'⟩ := eventStep_calm calm'
  obtain ⟨same, money, rfl⟩ := h
  have marked : Beside
      { st with
        lastPrice := st.lastPrice.set event.symbol event.close
        pending := st.pending.filter fun order => decide (order ∉ st.pending.filter (isMatured event idx')) }
      { st.pay money with
        lastPrice := st.lastPrice.set event.symbol event.close
        pending := st.pending.filter fun order => decide (order ∉ st.pending.filter (isMatured event idx')) } :=
    ⟨same, money, rfl⟩
  constructor
  · rw [recorded, recorded']
    exact (((matches_beside _ marked).updateTarget symbolSeq' target').chargeFunding).recordEquity
  · rw [fills, fills']
    refine (matches_scaled stressed _ marked).trans (and_congr_right fun _ => ?_)
    constructor
    · intro plain symbolSeq idx found found'
      obtain rfl := Option.some.inj (found.symm.trans series)
      obtain rfl := Option.some.inj (found'.symm.trans index)
      exact plain
    · intro plain
      exact plain symbolSeq' idx' series index

/-- The liquidation count never falls. -/
theorem processEvent_count (step : processEvent g st event = .ok u) : st.liquidationCount ≤ u.liquidationCount := by
  obtain ⟨symbolSeq, idx, target, -, -, -, rfl⟩ := processEvent_ok.mp step
  obtain ⟨regime, written⟩ := recordEquity_eq g event
    (checkLiquidation g event (beforeLiquidation g event symbolSeq idx target st))
  have before : (beforeLiquidation g event symbolSeq idx target st).liquidationCount = st.liquidationCount :=
    (updateTarget_frame g event idx symbolSeq target _).liquidationCount.trans
      (processMatured_frame g event idx symbolSeq.length _).liquidationCount
  rw [eventStep, written]
  show _ ≤ (checkLiquidation g event _).liquidationCount
  unfold checkLiquidation
  split
  · rw [(liquidate_frame g event _).liquidationCount]
    show _ ≤ _ + 1
    omega
  · omega

theorem run_count {events : List MarketEvent} (run : events.foldlM (processEvent g) st = .ok u) :
    st.liquidationCount ≤ u.liquidationCount := by
  induction events generalizing st with
  | nil =>
    cases run
    exact le_rfl
  | cons event rest ih =>
    obtain ⟨mid, step, run⟩ := Run.foldlM_cons_ok.mp run
    exact (processEvent_count step).trans (ih run)

/-- **Run lemma**: the same events in both runs. -/
theorem run_beside (stressed : m ≠ 1) (h : Beside st st') {events : List MarketEvent}
    (run : events.foldlM (processEvent g) st = .ok u)
    (run' : events.foldlM (processEvent (g.withFee (g.config.feeBps * m))) st' = .ok u')
    (calm : u.liquidationCount = 0) (calm' : u'.liquidationCount = 0) :
    Beside u u' ∧ (Scaled m u.fills u'.fills ↔ Scaled m st.fills st'.fills ∧ PlainRun g st events) := by
  induction events generalizing st st' with
  | nil =>
    cases run
    cases run'
    exact ⟨h, (and_iff_left trivial).symm⟩
  | cons event rest ih =>
    obtain ⟨mid, step, run⟩ := Run.foldlM_cons_ok.mp run
    obtain ⟨mid', step', run'⟩ := Run.foldlM_cons_ok.mp run'
    have quiet : mid.liquidationCount = 0 := by
      have := run_count run
      omega
    have quiet' : mid'.liquidationCount = 0 := by
      have := run_count run'
      omega
    obtain ⟨beside, scaled⟩ := processEvent_beside stressed h step step' quiet quiet'
    obtain ⟨ends, fees⟩ := ih beside run run'
    refine ⟨ends, fees.trans ?_⟩
    rw [scaled, PlainRun, and_assoc]
    refine and_congr_right fun _ => and_congr_right fun _ => ?_
    constructor
    · intro plain st' again
      rw [step] at again
      cases again
      exact plain
    · intro plain
      exact plain mid step

end Run

/-! ## Two scenarios -/

/-- No check of the set-up reads `fee_bps`. -/
theorem setUp_withFee {args : BacktestArgs} {g : Engine} (h : setUp args = .ok g) (feeBps : ℚ) :
    setUp { args with config := { args.config with feeBps } } = .ok (g.withFee feeBps) := by
  unfold setUp at h ⊢
  obtain ⟨u, admitted, h⟩ := Run.bind_ok.mp h
  obtain ⟨v, events, h⟩ := Run.bind_ok.mp h
  obtain ⟨w, strategies, h⟩ := Run.bind_ok.mp h
  obtain ⟨x, covered, h⟩ := Run.bind_ok.mp h
  obtain ⟨y, names, h⟩ := Run.bind_ok.mp h
  obtain ⟨strategyWeights, norm, h⟩ := Run.bind_ok.mp h
  obtain ⟨symbolWeights, norm', h⟩ := Run.bind_ok.mp h
  cases h
  exact Run.bind_ok.mpr ⟨u, admitted, Run.bind_ok.mpr ⟨v, events, Run.bind_ok.mpr ⟨w, strategies,
    Run.bind_ok.mpr ⟨x, covered, Run.bind_ok.mpr ⟨y, names, Run.bind_ok.mpr ⟨strategyWeights, norm,
      Run.bind_ok.mpr ⟨symbolWeights, norm', rfl⟩⟩⟩⟩⟩⟩⟩

/-- Without rates for maker and taker there is nothing to be charged instead of `fee_bps`. -/
theorem plainRun_of_unset {g : Engine} (maker : g.config.makerFeeBps = none) (taker : g.config.takerFeeBps = none)
    (st : LoopState) (events : List MarketEvent) : PlainRun g st events := by
  have unset : ∀ isMaker, overrideBps g.config isMaker = none := by
    intro isMaker
    cases isMaker
    · exact taker
    · exact maker
  have plain : ∀ event idx seqLen st orders, PlainMatches g event idx seqLen st orders := by
    intro event idx seqLen st orders
    induction orders generalizing st with
    | nil => trivial
    | cons order rest ih =>
      refine ⟨?_, ih _⟩
      rintro ⟨-, -, -, bps, set_, -⟩
      rw [unset] at set_
      cases set_
  induction events generalizing st with
  | nil => trivial
  | cons event rest ih => exact ⟨fun _ _ _ _ => plain _ _ _ _ _, fun st' _ => ih st'⟩

/-- Every fee is scaled, nothing else of the fills is changed, and the total fee is scaled. -/
def ScalesFees (m : ℚ) (result result' : RealisticBacktestResult) : Prop :=
  Scaled m result.fills result'.fills ∧ result'.totalFee = m * result.totalFee

section Scenarios
variable {random : ℤ → ℕ → ℚ} {events : List MarketEvent} {symbol : String} {targetQtyFn : MarketEvent → ℚ}
  {baseConfig : ExecutionModelConfig} {scenario : RegimeScenario} {m : ℚ}

/-- A scenario that ran: its engine and the last state of its loop. -/
theorem runScenario_ok {r : RegimeScenarioResult}
    (run : runScenario random events symbol targetQtyFn baseConfig scenario = .ok r) :
    ∃ g st, setUp (simulationArgs random events symbol targetQtyFn (scenario.config baseConfig)) = .ok g ∧
      g.run (sortedByTs events) = .ok st ∧ r.result = st.result := by
  unfold runScenario at run
  obtain ⟨-, -, run⟩ := Run.bind_ok.mp run
  obtain ⟨-, -, run⟩ := Run.bind_ok.mp run
  obtain ⟨result, ran, ends⟩ := Run.bind_ok.mp run
  cases ends
  obtain ⟨g, admitted, ran⟩ := Run.bind_ok.mp ran
  obtain ⟨st, looped, ends⟩ := Run.bind_ok.mp ran
  cases ends
  exact ⟨g, st, admitted, looped, rfl⟩

/-- The scenarios of a list of two, one after the other. -/
theorem runRegimeScenarios_two {scenario' : RegimeScenario} {r r' : RegimeScenarioResult}
    (run : runRegimeScenarios random events symbol targetQtyFn [scenario, scenario'] baseConfig = .ok [r, r']) :
    runScenario random events symbol targetQtyFn baseConfig scenario = .ok r ∧
      runScenario random events symbol targetQtyFn baseConfig scenario' = .ok r' := by
  unfold runRegimeScenarios at run
  rw [List.mapM_cons] at run
  obtain ⟨first, ran, run⟩ := Run.bind_ok.mp run
  obtain ⟨rest, tail, ends⟩ := Run.bind_ok.mp run
  cases ends
  rw [List.mapM_cons] at tail
  obtain ⟨second, ran', tail⟩ := Run.bind_ok.mp tail
  obtain ⟨rest, none_, ends⟩ := Run.bind_ok.mp tail
  cases ends
  exact ⟨ran, ran'⟩

/-- The fees of a run scale exactly when its fills do. -/
theorem scalesFees_iff {st st' : LoopState} : ScalesFees m st.result st'.result ↔ Scaled m st.fills st'.fills := by
  constructor
  · exact And.left
  · intro scaled
    exact ⟨scaled, scaled.sum_fee⟩

theorem scaled_one (fills : List Fill) : Scaled 1 fills fills := by
  refine List.forall₂_same.mpr fun fill _ => ?_
  rw [one_mul]

/-- **Fee stress.** For two scenarios that differ only in their fee multiplier, 1
and `m`, and do not liquidate: the fees scale by `m`, with the fills otherwise
the same, exactly when `m` is 1 or no order of the run is charged a rate of its
side's own. -/
theorem fees_scale_iff {r r' : RegimeScenarioResult}
    (run : runRegimeScenarios random events symbol targetQtyFn
      [{ scenario with feeMultiplier := 1 }, { scenario with feeMultiplier := m }] baseConfig = .ok [r, r'])
    (calm : r.result.liquidationCount = 0) (calm' : r'.result.liquidationCount = 0) :
    ScalesFees m r.result r'.result ↔
      m = 1 ∨ ∀ g, setUp (simulationArgs random events symbol targetQtyFn
        (RegimeScenario.config { scenario with feeMultiplier := 1 } baseConfig)) = .ok g →
          PlainRun g g.start (sortedByTs events) := by
  obtain ⟨ran, ran'⟩ := runRegimeScenarios_two run
  obtain ⟨g, st, admitted, looped, result⟩ := runScenario_ok ran
  obtain ⟨g', st', admitted', looped', result'⟩ := runScenario_ok ran'
  rw [result] at calm ⊢
  rw [result'] at calm' ⊢
  rw [scalesFees_iff]
  -- the second engine is the first one with another `fee_bps`
  have fee : g.config.feeBps = baseConfig.feeBps := by
    rw [(setUp_ready admitted).config]
    exact mul_one _
  obtain rfl : g' = g.withFee (g.config.feeBps * m) := by
    have stressed := setUp_withFee admitted (g.config.feeBps * m)
    rw [fee] at stressed ⊢
    exact Except.ok.inj (admitted'.symm.trans stressed)
  by_cases one : m = 1
  · refine iff_of_true ?_ (.inl one)
    have same : g.withFee (g.config.feeBps * m) = g := by rw [one, mul_one]; rfl
    rw [same] at looped'
    obtain rfl := Except.ok.inj (looped.symm.trans looped')
    rw [one]
    exact scaled_one _
  · have start : Beside g.start g.start := ⟨.nil, ⟨_, _, _, _⟩, rfl⟩
    have scaled := (run_beside one start looped looped' calm calm').2
    rw [scaled, and_iff_right (show Scaled m g.start.fills g.start.fills from .nil), or_iff_right one]
    constructor
    · intro plain g' again
      obtain rfl := Except.ok.inj (admitted.symm.trans again)
      exact plain
    · intro plain
      exact plain g admitted

end Scenarios

/-- The closes of two bars. -/
def bars : List MarketEvent := [⟨"BTCUSDT", .m1, 100, 0, "test"⟩, ⟨"BTCUSDT", .m1, 110, 60000000, "test"⟩]

/-- A long position over the two bars, at the fee of a scenario and at twice that fee. -/
def doubled (config : ExecutionModelConfig) : Except PyError (List RegimeScenarioResult) :=
  runRegimeScenarios (fun _ _ => 1 / 2) bars "BTCUSDT" (fun _ => 1)
    [{ name := "stress", feeMultiplier := 1 }, { name := "stress", feeMultiplier := 2 }] config

/-- Two results without a liquidation and with fees, the total fees in a ratio. -/
def calmWithFees (ratio : ℚ) (results : List RegimeScenarioResult) : Bool :=
  match results with
  | [r, r'] => decide (r.result.liquidationCount = 0 ∧ r'.result.liquidationCount = 0 ∧ r.result.totalFee ≠ 0 ∧
      r'.result.totalFee = ratio * r.result.totalFee)
  | _ => false

theorem calmWithFees_iff {ratio : ℚ} {results : List RegimeScenarioResult} : calmWithFees ratio results = true ↔
    ∃ r r', results = [r, r'] ∧ r.result.liquidationCount = 0 ∧ r'.result.liquidationCount = 0 ∧
      r.result.totalFee ≠ 0 ∧ r'.result.totalFee = ratio * r.result.totalFee := by
  unfold calmWithFees
  split
  · rename_i r r'
    rw [decide_eq_true_iff]
    constructor
    · intro facts
      exact ⟨r, r', rfl, facts⟩
    · rintro ⟨r, r', same, facts⟩
      cases same
      exact facts
  · rename_i other
    refine iff_of_false Bool.false_ne_true ?_
    rintro ⟨r, r', same, -⟩
    exact other r r' same

/-- With `fee_bps` alone the fees double. -/
theorem fees_scale_doubled : ∃ r r', doubled { latencyBars := 1 } = .ok [r, r'] ∧ r.result.totalFee ≠ 0 ∧
    ScalesFees 2 r.result r'.result := by
  obtain ⟨results, run, two⟩ := Run.endsIn_iff.mp
    (show Run.endsIn (doubled { latencyBars := 1 }) (calmWithFees 2) = true by decide +kernel)
  obtain ⟨r, r', rfl, calm, calm', charged, -⟩ := calmWithFees_iff.mp two
  have scales := @fees_scale_iff (fun _ _ => 1 / 2) bars "BTCUSDT" (fun _ => 1) { latencyBars := 1 } { name := "stress" }
    2 r r' run calm calm'
  refine ⟨r, r', run, charged, scales.mpr (.inr fun g admitted => ?_)⟩
  have config := (setUp_ready admitted).config
  exact plainRun_of_unset (by rw [config]; rfl) (by rw [config]; rfl) _ _

/-- With a rate for takers they stay the same. -/
theorem fees_unscaled_taker : ∃ r r', doubled { latencyBars := 1, makerProbability := 0, takerFeeBps := some 4 } = .ok [r, r'] ∧
    r.result.liquidationCount = 0 ∧ r'.result.liquidationCount = 0 ∧ ¬ ScalesFees 2 r.result r'.result := by
  obtain ⟨results, run, two⟩ := Run.endsIn_iff.mp
    (show Run.endsIn (doubled { latencyBars := 1, makerProbability := 0, takerFeeBps := some 4 }) (calmWithFees 1) = true by
      decide +kernel)
  obtain ⟨r, r', rfl, calm, calm', charged, same⟩ := calmWithFees_iff.mp two
  refine ⟨r, r', run, calm, calm', fun scaled => charged ?_⟩
  have total := scaled.2
  linarith

end CryptoQuant.Mvp11
