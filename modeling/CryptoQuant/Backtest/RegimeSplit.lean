import CryptoQuant.Backtest.ReplayAgreement
import CryptoQuant.Lib.Run

/-!
# Validation by market regime

`run_regime_split_validation` of `backtest/robustness.py`. Every event but the first is in
one regime, by its close against the one before; the strategy is evaluated on the events
of each regime.
-/

namespace CryptoQuant.Robustness
set_option autoImplicit false

/-- `RegimeSplitConfig`. -/
structure RegimeSplitConfig where
  returnThreshold : ℚ := 2 / 1000
  initialEquity : ℚ := 10000
  feeBps : ℚ := 4
  slippageBps : ℚ := 2

/-- `RegimeSplitReport`. -/
structure RegimeSplitReport where
  bull : Option StrategyMetrics
  sideways : Option StrategyMetrics
  bear : Option StrategyMetrics

/-- The three lists of events. -/
structure RegimeEvents where
  bull : List MarketEvent
  sideways : List MarketEvent
  bear : List MarketEvent

/-- One round of the loop, for an event and the one before. -/
def RegimeEvents.round (returnThreshold : ℚ) (st : RegimeEvents) (pair : MarketEvent × MarketEvent) :
    Except PyError RegimeEvents := do
  let (prevEvent, event) := pair
  raiseIf (prevEvent.close = 0) (.external "float division by zero")
  let ret := event.close / prevEvent.close - 1
  if returnThreshold ≤ ret then return { st with bull := st.bull ++ [event] }
  else if ret ≤ -returnThreshold then return { st with bear := st.bear ++ [event] }
  else return { st with sideways := st.sideways ++ [event] }

section Validation
variable (symbol : String) (targetQtyFn : MarketEvent → ℚ) (config : RegimeSplitConfig)

/-- `_metrics_or_none`. -/
def metricsOrNone (regimeEvents : List MarketEvent) : Except PyError (Option StrategyMetrics) :=
  if regimeEvents = [] then .ok none
  else some <$> evaluateStrategyMetrics regimeEvents symbol targetQtyFn config.initialEquity config.feeBps config.slippageBps

/-- `run_regime_split_validation`. -/
def runRegimeSplitValidation (events : List MarketEvent) : Except PyError RegimeSplitReport := do
  let sortedEvents ← ensureSorted events symbol
  let split ← (sortedEvents.zip sortedEvents.tail).foldlM (RegimeEvents.round config.returnThreshold) ⟨[], [], []⟩
  let bull ← metricsOrNone symbol targetQtyFn config split.bull
  let sideways ← metricsOrNone symbol targetQtyFn config split.sideways
  let bear ← metricsOrNone symbol targetQtyFn config split.bear
  return { bull, sideways, bear }

end Validation

/-! ## Regimes -/

/-- The regimes that events are split by. -/
inductive Regime
  | bull
  | sideways
  | bear
deriving DecidableEq

/-- The regime of an event, by the one before. -/
def regimeOf (returnThreshold : ℚ) (pair : MarketEvent × MarketEvent) : Regime :=
  let ret := pair.2.close / pair.1.close - 1
  if returnThreshold ≤ ret then .bull else if ret ≤ -returnThreshold then .bear else .sideways

/-- The events of a regime, among events in order. -/
def regimeEvents (returnThreshold : ℚ) (sortedEvents : List MarketEvent) (regime : Regime) : List MarketEvent :=
  ((sortedEvents.zip sortedEvents.tail).filter fun pair => regimeOf returnThreshold pair = regime).map Prod.snd

/-- The list of a regime. -/
def RegimeEvents.at (st : RegimeEvents) : Regime → List MarketEvent
  | .bull => st.bull
  | .sideways => st.sideways
  | .bear => st.bear

/-- An event of a regime. -/
def RegimeEvents.add (st : RegimeEvents) (event : MarketEvent) : Regime → RegimeEvents
  | .bull => { st with bull := st.bull ++ [event] }
  | .sideways => { st with sideways := st.sideways ++ [event] }
  | .bear => { st with bear := st.bear ++ [event] }

/-- Division by the close before. -/
def divisionFails (pair : MarketEvent × MarketEvent) : Option PyError :=
  if pair.1.close = 0 then some (.external "float division by zero") else none

section Split
variable {returnThreshold : ℚ} {sortedEvents : List MarketEvent}

theorem RegimeEvents.at_add (st : RegimeEvents) (event : MarketEvent) (regime r : Regime) :
    (st.add event regime).at r = if regime = r then st.at r ++ [event] else st.at r := by
  cases regime <;> cases r <;> rfl

/-- **Step lemma**: an event goes to the list of its regime. -/
theorem RegimeEvents.round_eq (st : RegimeEvents) (pair : MarketEvent × MarketEvent) :
    st.round returnThreshold pair =
      (divisionFails pair).elim (.ok (st.add pair.2 (regimeOf returnThreshold pair))) .error := by
  unfold RegimeEvents.round divisionFails raiseIf regimeOf
  by_cases zero : pair.1.close = 0
  · simp [zero, Bind.bind, Except.bind]
  · simp only [zero, if_false, Bind.bind, Except.bind, Option.elim_none]
    by_cases bull : returnThreshold ≤ pair.2.close / pair.1.close - 1
    · simp [bull, pure, Except.pure, RegimeEvents.add]
    · by_cases bear : pair.2.close / pair.1.close - 1 ≤ -returnThreshold
      · simp [bull, bear, pure, Except.pure, RegimeEvents.add]
      · simp [bull, bear, pure, Except.pure, RegimeEvents.add]

variable (returnThreshold) in
/-- **Run lemma**: the loop splits by regime. -/
theorem at_rounds (pairs : List (MarketEvent × MarketEvent)) (regime : Regime) (st : RegimeEvents) :
    (pairs.foldl (fun st pair => st.add pair.2 (regimeOf returnThreshold pair)) st).at regime =
      st.at regime ++ (pairs.filter fun pair => regimeOf returnThreshold pair = regime).map Prod.snd := by
  induction pairs generalizing st with
  | nil => simp
  | cons pair pairs ih =>
    rw [List.foldl_cons, ih, RegimeEvents.at_add]
    by_cases own : regimeOf returnThreshold pair = regime
    · simp [own]
    · simp [own]

/-- The events but the first, each with the one before. -/
theorem map_snd_zip_tail (l : List MarketEvent) : (l.zip l.tail).map Prod.snd = l.tail := by
  apply List.map_snd_zip
  rw [List.length_tail]
  omega

theorem regimeEvents_sublist (regime : Regime) : (regimeEvents returnThreshold sortedEvents regime).Sublist sortedEvents := by
  have among := (List.filter_sublist (l := sortedEvents.zip sortedEvents.tail)
    (p := fun pair => regimeOf returnThreshold pair = regime)).map Prod.snd
  rw [map_snd_zip_tail] at among
  exact among.trans (List.tail_sublist _)

/-- Every event but the first is in one regime. -/
theorem regimeEvents_perm : (regimeEvents returnThreshold sortedEvents .bull ++
    (regimeEvents returnThreshold sortedEvents .sideways ++ regimeEvents returnThreshold sortedEvents .bear)).Perm
      sortedEvents.tail := by
  rw [← map_snd_zip_tail sortedEvents]
  unfold regimeEvents
  rw [← List.map_append, ← List.map_append]
  apply List.Perm.map
  have trend := List.filter_append_perm (fun pair => decide (regimeOf returnThreshold pair = .bull))
    (sortedEvents.zip sortedEvents.tail)
  have others := List.filter_append_perm (fun pair => decide (regimeOf returnThreshold pair = .sideways))
    ((sortedEvents.zip sortedEvents.tail).filter fun pair => !decide (regimeOf returnThreshold pair = .bull))
  rw [List.filter_filter, List.filter_filter] at others
  have sideways (pair : MarketEvent × MarketEvent) : (decide (regimeOf returnThreshold pair = .sideways) &&
      !decide (regimeOf returnThreshold pair = .bull)) = decide (regimeOf returnThreshold pair = .sideways) := by
    cases regimeOf returnThreshold pair <;> rfl
  have bear (pair : MarketEvent × MarketEvent) : (!decide (regimeOf returnThreshold pair = .sideways) &&
      !decide (regimeOf returnThreshold pair = .bull)) = decide (regimeOf returnThreshold pair = .bear) := by
    cases regimeOf returnThreshold pair <;> rfl
  simp only [sideways, bear] at others
  exact (others.append_left _).trans trend

/-- A higher threshold leaves fewer events in a trend. -/
theorem regimeEvents_higher {higher : ℚ} (positive : 0 < returnThreshold) (le : returnThreshold ≤ higher) :
    (regimeEvents higher sortedEvents .bull).Sublist (regimeEvents returnThreshold sortedEvents .bull) ∧
      (regimeEvents higher sortedEvents .bear).Sublist (regimeEvents returnThreshold sortedEvents .bear) ∧
      (regimeEvents returnThreshold sortedEvents .sideways).Sublist (regimeEvents higher sortedEvents .sideways) := by
  have fewer {p q : MarketEvent × MarketEvent → Bool} (implies : ∀ pair, p pair = true → q pair = true) :
      (((sortedEvents.zip sortedEvents.tail).filter p).map Prod.snd).Sublist
        (((sortedEvents.zip sortedEvents.tail).filter q).map Prod.snd) :=
    (List.monotone_filter_right _ implies).map Prod.snd
  refine ⟨fewer fun pair => ?_, fewer fun pair => ?_, fewer fun pair => ?_⟩
  · simp only [regimeOf]
    grind
  · simp only [regimeOf]
    grind
  · simp only [regimeOf]
    grind

end Split

/-! ## The report -/

section Report
variable {events : List MarketEvent} {symbol : String} {targetQtyFn : MarketEvent → ℚ} {config : RegimeSplitConfig}

/-- What the report says of the events of a regime: their metrics, if there are some. -/
def Reports (symbol : String) (targetQtyFn : MarketEvent → ℚ) (config : RegimeSplitConfig) (regimeEvents : List MarketEvent)
    (metrics : Option StrategyMetrics) : Prop :=
  if regimeEvents = [] then metrics = none
  else ∃ evaluated, metrics = some evaluated ∧
    evaluateStrategyMetrics regimeEvents symbol targetQtyFn config.initialEquity config.feeBps config.slippageBps = .ok evaluated

theorem metricsOrNone_reports {regimeEvents : List MarketEvent} (own : ∀ event ∈ regimeEvents, event.symbol = symbol)
    (positive : ∀ event ∈ regimeEvents, 0 < event.close) (initial : 0 < config.initialEquity) (fee : 0 ≤ config.feeBps)
    (slippage : 0 ≤ config.slippageBps) : ∃ metrics, metricsOrNone symbol targetQtyFn config regimeEvents = .ok metrics ∧
      Reports symbol targetQtyFn config regimeEvents metrics := by
  unfold metricsOrNone Reports
  by_cases none_ : regimeEvents = []
  · rw [if_pos none_]
    exact ⟨none, rfl, if_pos none_ ▸ rfl⟩
  · obtain ⟨event, member⟩ := List.exists_mem_of_ne_nil regimeEvents none_
    obtain ⟨metrics, -, -, -, -, -, evaluated, -⟩ := evaluateStrategyMetrics_eq_replay targetQtyFn "robust"
      ⟨event, member, own event member⟩ (fun event member _ => positive event member) initial fee slippage
    rw [if_neg none_, evaluated]
    exact ⟨some metrics, rfl, by rw [if_neg none_]; exact ⟨metrics, rfl, rfl⟩⟩

/-- **The split by regime.** The validation returns. Every event of the symbol but the first is in
one regime, the events of a regime in their order; the report has the metrics of every
regime with events and of no other; and with a higher threshold fewer events, and no
others, are in a trend. -/
theorem regime_split (some_ : ∃ event ∈ events, event.symbol = symbol)
    (positive : ∀ event ∈ events, event.symbol = symbol → 0 < event.close)
    (initial : 0 < config.initialEquity) (fee : 0 ≤ config.feeBps) (slippage : 0 ≤ config.slippageBps) :
    let sortedEvents := sortedByTs (events.filter fun event => event.symbol = symbol)
    let split := regimeEvents config.returnThreshold sortedEvents
    (∃ report, runRegimeSplitValidation symbol targetQtyFn config events = .ok report ∧
      Reports symbol targetQtyFn config (split .bull) report.bull ∧
      Reports symbol targetQtyFn config (split .sideways) report.sideways ∧
      Reports symbol targetQtyFn config (split .bear) report.bear) ∧
    (split .bull ++ (split .sideways ++ split .bear)).Perm sortedEvents.tail ∧
    (∀ regime, (split regime).Sublist sortedEvents ∧ (split regime).Pairwise fun a b => a.ts ≤ b.ts) ∧
    (∀ higher, 0 < config.returnThreshold → config.returnThreshold ≤ higher →
      (regimeEvents higher sortedEvents .bull).Sublist (split .bull) ∧
      (regimeEvents higher sortedEvents .bear).Sublist (split .bear) ∧
      (split .sideways).Sublist (regimeEvents higher sortedEvents .sideways)) := by
  intro sortedEvents split
  have ensured : ensureSorted events symbol = .ok sortedEvents := by
    obtain ⟨event, member, own⟩ := some_
    exact ensureSorted_ok_iff.mpr ⟨List.ne_nil_of_mem (List.mem_filter.mpr ⟨member, decide_eq_true own⟩), rfl⟩
  have member : ∀ event ∈ sortedEvents, event.symbol = symbol ∧ 0 < event.close := by
    intro event among
    obtain ⟨among, own⟩ := List.mem_filter.mp (mem_sortedByTs.mp among)
    exact ⟨of_decide_eq_true own, positive event among (of_decide_eq_true own)⟩
  have divides : (sortedEvents.zip sortedEvents.tail).findSome? divisionFails = none := by
    refine List.findSome?_eq_none_iff.mpr fun pair among => if_neg ?_
    exact (member pair.1 (List.of_mem_zip among).1).2.ne'
  have regime (r : Regime) : ∃ metrics, metricsOrNone symbol targetQtyFn config (split r) = .ok metrics ∧
      Reports symbol targetQtyFn config (split r) metrics :=
    metricsOrNone_reports (fun event among => (member event ((regimeEvents_sublist r).subset among)).1)
      (fun event among => (member event ((regimeEvents_sublist r).subset among)).2) initial fee slippage
  obtain ⟨bull, evaluatedBull, reportsBull⟩ := regime .bull
  obtain ⟨sideways, evaluatedSideways, reportsSideways⟩ := regime .sideways
  obtain ⟨bear, evaluatedBear, reportsBear⟩ := regime .bear
  refine ⟨⟨⟨bull, sideways, bear⟩, ?_, reportsBull, reportsSideways, reportsBear⟩, regimeEvents_perm,
    fun r => ⟨regimeEvents_sublist r, (pairwise_sortedByTs _).sublist (regimeEvents_sublist r)⟩,
    fun higher positive le => regimeEvents_higher positive le⟩
  have lists (r : Regime) := at_rounds config.returnThreshold (sortedEvents.zip sortedEvents.tail) r ⟨[], [], []⟩
  rw [runRegimeSplitValidation, ensured]
  simp only [Bind.bind, Except.bind]
  rw [Run.foldlM_checked RegimeEvents.round_eq, divides, Option.elim_none]
  generalize (sortedEvents.zip sortedEvents.tail).foldl _ _ = st at lists ⊢
  have bullList : st.bull = split .bull := lists .bull
  have sidewaysList : st.sideways = split .sideways := lists .sideways
  have bearList : st.bear = split .bear := lists .bear
  simp only [bullList, sidewaysList, bearList, evaluatedBull, evaluatedSideways, evaluatedBear]
  rfl

/-- A rise, a fall, and an event of another symbol. -/
def swing : List MarketEvent :=
  [⟨"BTC", .m1, 100, 1, "a"⟩, ⟨"ETH", .m1, 7, 2, "a"⟩, ⟨"BTC", .m1, 110, 3, "a"⟩, ⟨"BTC", .m1, 100, 4, "a"⟩]

theorem regime_split_swing : ∃ report, runRegimeSplitValidation "BTC" (fun _ => 1) {} swing = .ok report ∧
    report.sideways = none := by
  obtain ⟨⟨report, returns, -, sideways, -⟩, -⟩ := @regime_split swing "BTC" (fun _ => 1) {} (by decide +kernel)
    (by decide +kernel) (by norm_num) (by norm_num) (by norm_num)
  have quiet : regimeEvents (2 / 1000) (sortedByTs (swing.filter fun event => event.symbol = "BTC")) .sideways = [] := by
    decide +kernel
  rw [Reports, if_pos quiet] at sideways
  exact ⟨report, returns, sideways⟩

end Report

end CryptoQuant.Robustness
