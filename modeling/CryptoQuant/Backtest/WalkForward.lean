import CryptoQuant.Backtest.ReplayAgreement
import CryptoQuant.Lib.Windows

/-!
# The windows of the walk-forward validation

The loop of `run_walk_forward_validation` starts a slice at every `step`-th event while the
train and the test window fit. Every slice evaluates, so the validation returns, with as many
slices as fit.
-/

namespace CryptoQuant.Robustness
set_option autoImplicit false

/-! ## Windows of the events -/

section Window
variable {l : List MarketEvent} {start stop : ℕ}

theorem getElem?_window (l : List MarketEvent) (start stop k : ℕ) :
    (window l start stop)[k]? = if start + k < stop then l[start + k]? else none := by
  rw [window, List.getElem?_drop, List.getElem?_take]

theorem length_window (fits : stop ≤ l.length) : (window l start stop).length = stop - start := by
  rw [window, List.length_drop, List.length_take, Nat.min_eq_left fits]

/-- The events of a window are those at its places. -/
theorem mem_window {event : MarketEvent} :
    event ∈ window l start stop ↔ ∃ place ∈ Finset.Ico start stop, l[place]? = some event := by
  rw [List.mem_iff_getElem?]
  simp only [getElem?_window, Finset.mem_Ico]
  constructor
  · rintro ⟨k, found⟩
    split at found
    · exact ⟨start + k, by omega, found⟩
    · cases found
  · rintro ⟨place, within, found⟩
    refine ⟨place - start, ?_⟩
    have back : start + (place - start) = place := by omega
    rw [back, if_pos within.2, found]

theorem firstItem_window {event : MarketEvent} (some_ : start < stop) (found : l[start]? = some event) :
    firstItem (window l start stop) = .ok event := by
  rw [firstItem, List.head?_eq_getElem?, getElem?_window, if_pos (by omega), Nat.add_zero, found]

theorem lastItem_window {event : MarketEvent} (some_ : start < stop) (fits : stop ≤ l.length)
    (found : l[stop - 1]? = some event) : lastItem (window l start stop) = .ok event := by
  have place : start + (stop - start - 1) = stop - 1 := by omega
  rw [lastItem, List.getLast?_eq_getElem?, length_window fits, getElem?_window, place, if_pos (by omega), found]

/-- Two windows next to each other are one. -/
theorem window_append {middle : ℕ} (first : start ≤ middle) (second : middle ≤ stop) (fits : stop ≤ l.length) :
    window l start middle ++ window l middle stop = window l start stop := by
  have left : l.take middle = (l.take stop).take middle := by rw [List.take_take, Nat.min_eq_left second]
  have size : ((l.take stop).take middle).length = middle := by
    rw [List.length_take, List.length_take, Nat.min_eq_left fits, Nat.min_eq_left second]
  rw [window, window, window, left, ← List.drop_append_of_le_length (by omega), List.take_append_drop]

end Window

/-! ## Slices -/

section Slices
variable (sortedEvents : List MarketEvent) (symbol : String) (targetQtyFn : MarketEvent → ℚ) (config : WalkForwardConfig)

/-- Where slice `i` begins. -/
def WalkForwardConfig.start (i : ℕ) : ℕ := i * config.step.toNat

/-- The places of the events that slice `i` trains on. -/
def WalkForwardConfig.trainWindow (i : ℕ) : Finset ℕ := Finset.Ico (config.start i) (config.start i + config.trainSize.toNat)

/-- The places of the events that it tests on. -/
def WalkForwardConfig.testWindow (i : ℕ) : Finset ℕ :=
  Finset.Ico (config.start i + config.trainSize.toNat) (config.start i + config.trainSize.toNat + config.testSize.toNat)

/-- The events of the train window of a slice that begins at a place. -/
def trainEvents (start : ℕ) : List MarketEvent := window sortedEvents start (start + config.trainSize.toNat)

/-- The events of its test window. -/
def testEvents (start : ℕ) : List MarketEvent :=
  window sortedEvents (start + config.trainSize.toNat) (start + config.trainSize.toNat + config.testSize.toNat)

/-- What a slice reports: the times of the first and the last event of its train and its test
window, and the metrics of their events. -/
structure IsSlice (start : ℕ) (slice : WalkForwardSliceResult) : Prop where
  trainStart : (sortedEvents[start]?).map MarketEvent.ts = some slice.trainStart
  trainEnd : (sortedEvents[start + config.trainSize.toNat - 1]?).map MarketEvent.ts = some slice.trainEnd
  testStart : (sortedEvents[start + config.trainSize.toNat]?).map MarketEvent.ts = some slice.testStart
  testEnd : (sortedEvents[start + config.trainSize.toNat + config.testSize.toNat - 1]?).map MarketEvent.ts = some slice.testEnd
  trainMetrics : evaluate symbol targetQtyFn config (trainEvents sortedEvents config start) = .ok slice.trainMetrics
  testMetrics : evaluate symbol targetQtyFn config (testEvents sortedEvents config start) = .ok slice.testMetrics

/-- Events that evaluate: of the symbol, at positive closes, with costs that are accepted. -/
structure Evaluates : Prop where
  own : ∀ event ∈ sortedEvents, event.symbol = symbol
  positive : ∀ event ∈ sortedEvents, 0 < event.close
  initial : 0 < config.initialEquity
  fee : 0 ≤ config.feeBps
  slippage : 0 ≤ config.slippageBps

variable {sortedEvents symbol targetQtyFn config}

theorem Evaluates.window (evaluates : Evaluates sortedEvents symbol config) {start stop : ℕ} (some_ : start < stop)
    (fits : stop ≤ sortedEvents.length) : ∃ metrics, evaluate symbol targetQtyFn config (window sortedEvents start stop) = .ok metrics := by
  have among : ∀ event ∈ Robustness.window sortedEvents start stop, event ∈ sortedEvents := fun event member =>
    List.mem_of_mem_take (List.mem_of_mem_drop member)
  obtain ⟨event, member⟩ : ∃ event, event ∈ Robustness.window sortedEvents start stop := by
    apply List.exists_mem_of_length_pos
    rw [length_window fits]
    omega
  obtain ⟨metrics, -, -, -, -, -, evaluated, -⟩ := evaluateStrategyMetrics_eq_replay targetQtyFn "walk"
    ⟨event, member, evaluates.own event (among event member)⟩ (fun event member _ => evaluates.positive event (among event member))
    evaluates.initial evaluates.fee evaluates.slippage
  exact ⟨metrics, evaluated⟩

/-- **One round** evaluates where both windows fit. -/
theorem Evaluates.slice (evaluates : Evaluates sortedEvents symbol config) (train : 0 < config.trainSize) (test : 0 < config.testSize)
    {start : ℕ} (fits : start + (config.trainSize.toNat + config.testSize.toNat) ≤ sortedEvents.length) :
    ∃ slice, walkForwardSlice sortedEvents symbol targetQtyFn config start = .ok slice ∧
      IsSlice sortedEvents symbol targetQtyFn config start slice := by
  have trains : start < start + config.trainSize.toNat := by omega
  have tests : start + config.trainSize.toNat < start + config.trainSize.toNat + config.testSize.toNat := by omega
  have inside : start + config.trainSize.toNat + config.testSize.toNat ≤ sortedEvents.length := by omega
  obtain ⟨trainMetrics, trained⟩ : ∃ metrics, evaluate symbol targetQtyFn config _ = .ok metrics :=
    evaluates.window trains (by omega)
  obtain ⟨testMetrics, tested⟩ : ∃ metrics, evaluate symbol targetQtyFn config _ = .ok metrics := evaluates.window tests inside
  have at_ (place : ℕ) (within : place < sortedEvents.length) : ∃ event, sortedEvents[place]? = some event :=
    ⟨_, List.getElem?_eq_getElem within⟩
  obtain ⟨trainFirst, first⟩ := at_ start (by omega)
  obtain ⟨trainLast, last⟩ := at_ (start + config.trainSize.toNat - 1) (by omega)
  obtain ⟨testFirst, first'⟩ := at_ (start + config.trainSize.toNat) (by omega)
  obtain ⟨testLast, last'⟩ := at_ (start + config.trainSize.toNat + config.testSize.toNat - 1) (by omega)
  refine ⟨⟨trainFirst.ts, trainLast.ts, testFirst.ts, testLast.ts, trainMetrics, testMetrics⟩, ?_, ?_⟩
  · unfold walkForwardSlice
    simp only [trained, tested, firstItem_window trains first, lastItem_window trains (by omega) last, firstItem_window tests first',
      lastItem_window tests inside last', bind, Except.bind]
  · constructor
    · rw [first, Option.map_some]
    · rw [last, Option.map_some]
    · rw [first', Option.map_some]
    · rw [last', Option.map_some]
    · exact trained
    · exact tested

/-- **The loop** goes through the places where slices start. -/
theorem walkForwardLoop_eq {step : ℕ} (moves : 0 < step) (start : ℕ) (slices : List WalkForwardSliceResult) :
    walkForwardLoop sortedEvents symbol targetQtyFn config step moves start slices =
      ((Windows.starts (config.trainSize.toNat + config.testSize.toNat) step sortedEvents.length start).mapM
        (walkForwardSlice sortedEvents symbol targetQtyFn config)).map (slices ++ ·) := by
  fun_induction walkForwardLoop sortedEvents symbol targetQtyFn config step moves start slices with
  | case1 start slices fits e raises =>
    rw [Windows.starts_of_fits moves (by omega), List.mapM_cons, raises]
    rfl
  | case2 start slices fits slice returns ih =>
    have places := Windows.starts_of_fits moves (show start + (config.trainSize.toNat + config.testSize.toNat) ≤ sortedEvents.length by omega)
    rw [ih, places, List.mapM_cons, returns]
    cases rest : (Windows.starts (config.trainSize.toNat + config.testSize.toNat) step sortedEvents.length (start + step)).mapM
        (walkForwardSlice sortedEvents symbol targetQtyFn config) with
    | error e => rfl
    | ok others => exact congrArg Except.ok (List.append_assoc slices [slice] others)
  | case3 start slices full =>
    rw [Windows.starts_of_full (by omega)]
    exact congrArg Except.ok (List.append_nil slices).symm

/-- **The whole loop** returns, with a slice for every place where one starts. -/
theorem Evaluates.slices (evaluates : Evaluates sortedEvents symbol config) (train : 0 < config.trainSize) (test : 0 < config.testSize)
    {step : ℕ} (moves : 0 < step) :
    ∃ slices, walkForwardLoop sortedEvents symbol targetQtyFn config step moves 0 [] = .ok slices ∧
      slices.length = Windows.count (config.trainSize.toNat + config.testSize.toNat) step sortedEvents.length 0 ∧
      ∀ i slice, slices[i]? = some slice → i * step + (config.trainSize.toNat + config.testSize.toNat) ≤ sortedEvents.length ∧
        IsSlice sortedEvents symbol targetQtyFn config (i * step) slice := by
  have each : ∀ start ∈ Windows.starts (config.trainSize.toNat + config.testSize.toNat) step sortedEvents.length 0,
      ∃ slice, walkForwardSlice sortedEvents symbol targetQtyFn config start = .ok slice := by
    intro start member
    obtain ⟨slice, returns, -⟩ := evaluates.slice train test (Windows.fits_of_mem_starts moves member)
    exact ⟨slice, returns⟩
  obtain ⟨slices, mapped⟩ := Run.mapM_of_forall each
  have pairs := Run.forall₂_of_mapM mapped
  refine ⟨slices, ?_, ?_, ?_⟩
  · rw [walkForwardLoop_eq, mapped]
    rfl
  · rw [← pairs.length_eq, Windows.length_starts]
  · intro i slice found
    obtain ⟨below, rfl⟩ := List.getElem?_eq_some_iff.mp found
    have here := pairs.length_eq ▸ below
    have returns : walkForwardSlice _ _ _ _ _ = Except.ok _ := pairs.get here below
    have member := List.getElem_mem here
    rw [List.get_eq_getElem, List.get_eq_getElem] at returns
    rw [Windows.getElem_starts, Nat.zero_add] at returns member
    have fits := Windows.fits_of_mem_starts moves member
    obtain ⟨slice, returns', isSlice⟩ : ∃ slice, walkForwardSlice sortedEvents symbol targetQtyFn config (i * step) = .ok slice ∧ _ :=
      evaluates.slice train test fits
    rw [Except.ok.inj (returns.symm.trans returns')]
    exact ⟨fits, isSlice⟩

end Slices

/-! ## The validation -/

section Validation
variable {events sortedEvents : List MarketEvent} {symbol : String} {targetQtyFn : MarketEvent → ℚ} {config : WalkForwardConfig}

/-- Both windows are full, the test window right behind the train window: no place is in both, no test
event is earlier than a train event, and none is one of them unless the events hold it twice. -/
structure LeakFree (sortedEvents : List MarketEvent) (config : WalkForwardConfig) (i : ℕ) : Prop where
  inside : ∀ place ∈ config.trainWindow i ∪ config.testWindow i, place < sortedEvents.length
  behind : ∀ place ∈ config.trainWindow i, ∀ place' ∈ config.testWindow i, place < place'
  adjacent : trainEvents sortedEvents config (config.start i) ++ testEvents sortedEvents config (config.start i) =
    window sortedEvents (config.start i) (config.start i + config.trainSize.toNat + config.testSize.toNat)
  later : ∀ event ∈ trainEvents sortedEvents config (config.start i), ∀ event' ∈ testEvents sortedEvents config (config.start i),
    event.ts ≤ event'.ts
  apart : sortedEvents.Nodup →
    ∀ event ∈ testEvents sortedEvents config (config.start i), event ∉ trainEvents sortedEvents config (config.start i)

theorem leakFree_of_fits (sorted : sortedEvents.Pairwise fun a b => a.ts ≤ b.ts) {i : ℕ}
    (fits : config.start i + (config.trainSize.toNat + config.testSize.toNat) ≤ sortedEvents.length) :
    LeakFree sortedEvents config i := by
  have behind : ∀ place ∈ config.trainWindow i, ∀ place' ∈ config.testWindow i, place < place' := by
    intro place train place' test
    exact (Finset.mem_Ico.mp train).2.trans_le (Finset.mem_Ico.mp test).1
  constructor
  case inside =>
    intro place within
    rcases Finset.mem_union.mp within with train | test
    · have bounds := Finset.mem_Ico.mp train
      omega
    · have bounds := Finset.mem_Ico.mp test
      omega
  case behind => exact behind
  case adjacent => exact window_append (by omega) (by omega) (by omega)
  case later =>
    intro event train event' test
    obtain ⟨place, within, found⟩ := mem_window.mp train
    obtain ⟨place', within', found'⟩ := mem_window.mp test
    obtain ⟨below, rfl⟩ := List.getElem?_eq_some_iff.mp found
    obtain ⟨below', rfl⟩ := List.getElem?_eq_some_iff.mp found'
    exact List.pairwise_iff_getElem.mp sorted place place' below below' (behind place within place' within')
  case apart =>
    intro distinct event test train
    obtain ⟨place, within, found⟩ := mem_window.mp train
    obtain ⟨place', within', found'⟩ := mem_window.mp test
    have below := (List.getElem?_eq_some_iff.mp found).1
    exact (behind place within place' within').ne ((List.getElem?_inj below distinct).mp (found.trans found'.symm))

theorem WalkForwardConfig.step_eq (moves : ∀ stepSize ∈ config.stepSize, 0 < stepSize) :
    config.step = config.stepSize.getD config.testSize := by
  unfold WalkForwardConfig.step
  cases given : config.stepSize with
  | none => rfl
  | some stepSize => exact if_neg (moves stepSize given).ne'

theorem WalkForwardConfig.step_pos (test : 0 < config.testSize) (moves : ∀ stepSize ∈ config.stepSize, 0 < stepSize) :
    0 < config.step := by
  rw [WalkForwardConfig.step_eq moves]
  cases given : config.stepSize with
  | none => exact test
  | some stepSize => exact moves stepSize given

/-- With the default step the test windows lie next to each other. -/
theorem WalkForwardConfig.testWindow_default (default_ : config.stepSize = none) (i : ℕ) :
    config.testWindow i = Finset.Ico (config.trainSize.toNat + i * config.testSize.toNat)
      (config.trainSize.toNat + i * config.testSize.toNat + config.testSize.toNat) := by
  have step : config.step = config.testSize := by rw [WalkForwardConfig.step, default_]
  rw [WalkForwardConfig.testWindow, WalkForwardConfig.start, step, Nat.add_comm (i * _)]

theorem mean_ok {data : List ℚ} (some_ : data ≠ []) : mean data = .ok (data.sum / data.length) := if_neg some_

/-- There is a report where there is a slice. -/
theorem exists_report {slices : List WalkForwardSliceResult} (some_ : slices ≠ []) :
    ∃ report, WalkForwardReport.of slices = .ok report ∧ report.slices = slices := by
  unfold WalkForwardReport.of
  rw [mean_ok (by simpa using some_), mean_ok (by simpa using some_)]
  exact ⟨_, rfl, rfl⟩

/-- Past its checks the validation is the loop and the report. -/
theorem runWalkForwardValidation_eq (train : 0 < config.trainSize) (test : 0 < config.testSize) (advances : 0 < config.step)
    (ensured : ensureSorted events symbol = .ok sortedEvents) (enough : config.trainSize + config.testSize ≤ sortedEvents.length) :
    runWalkForwardValidation events symbol targetQtyFn config =
      walkForwardLoop sortedEvents symbol targetQtyFn config config.step.toNat (by omega) 0 [] >>= WalkForwardReport.of := by
  have sizes : raiseIf (config.trainSize ≤ 0 ∨ config.testSize ≤ 0) (.valueError "train_size/test_size must be > 0") = .ok () :=
    raiseIf_ok.mpr (by omega)
  have many : raiseIf (sortedEvents.length < config.trainSize + config.testSize)
      (.valueError "insufficient events for requested walk-forward windows") = .ok () := raiseIf_ok.mpr (by omega)
  unfold runWalkForwardValidation
  rw [sizes, ensured]
  simp only [many, bind, Except.bind]
  rw [dif_neg (by omega)]

/-- **The windows** of the validation. It returns, with as many slices as fit; slice `i` trains on the
events from `i * step` on and tests on those right behind them, and with the default step every
event from the first test event to the last is in one test window. -/
theorem walk_forward_windows (targetQtyFn : MarketEvent → ℚ) (positive : ∀ event ∈ events, event.symbol = symbol → 0 < event.close)
    (initial : 0 < config.initialEquity) (fee : 0 ≤ config.feeBps) (slippage : 0 ≤ config.slippageBps)
    (train : 0 < config.trainSize) (test : 0 < config.testSize) (moves : ∀ stepSize ∈ config.stepSize, 0 < stepSize)
    (enough : config.trainSize + config.testSize ≤ events.countP fun event => event.symbol = symbol) :
    ∃ sortedEvents report, sortedEvents = sortedByTs (events.filter fun event => event.symbol = symbol) ∧
      runWalkForwardValidation events symbol targetQtyFn config = .ok report ∧
      (report.slices.length : ℤ) = ((events.countP fun event => event.symbol = symbol) - config.trainSize - config.testSize) /
        config.stepSize.getD config.testSize + 1 ∧
      (∀ i slice, report.slices[i]? = some slice →
        IsSlice sortedEvents symbol targetQtyFn config (config.start i) slice ∧ LeakFree sortedEvents config i) ∧
      (config.stepSize = none → ∀ place : ℕ, config.trainSize ≤ place →
        place < config.start (report.slices.length - 1) + config.trainSize + config.testSize →
          ∃! i, i < report.slices.length ∧ place ∈ config.testWindow i) := by
  let sortedEvents := sortedByTs (events.filter fun event => event.symbol = symbol)
  have length : sortedEvents.length = events.countP fun event => event.symbol = symbol := by
    rw [(sortedByTs_perm _).length_eq, List.countP_eq_length_filter]
  have ensured : ensureSorted events symbol = .ok sortedEvents := by
    refine ensureSorted_ok_iff.mpr ⟨fun none_ => ?_, rfl⟩
    rw [List.countP_eq_length_filter, none_, List.length_nil] at enough
    omega
  have member : ∀ event ∈ sortedEvents, event ∈ events ∧ event.symbol = symbol := by
    intro event among
    obtain ⟨among, own⟩ := List.mem_filter.mp (mem_sortedByTs.mp among)
    exact ⟨among, of_decide_eq_true own⟩
  have evaluates : Evaluates sortedEvents symbol config :=
    ⟨fun event among => (member event among).2, fun event among => positive event (member event among).1 (member event among).2,
      initial, fee, slippage⟩
  have advances := WalkForwardConfig.step_pos test moves
  obtain ⟨slices, loops, count, spec⟩ : ∃ slices, walkForwardLoop sortedEvents symbol targetQtyFn config config.step.toNat _ 0 [] =
      .ok slices ∧ _ := evaluates.slices train test (by omega)
  have fits : 0 + (config.trainSize.toNat + config.testSize.toNat) ≤ sortedEvents.length := by omega
  rw [Windows.count, if_pos fits] at count
  obtain ⟨report, reported, same⟩ := exists_report (List.ne_nil_of_length_eq_add_one count)
  refine ⟨sortedEvents, report, rfl, ?_, ?_, ?_, ?_⟩
  · rw [runWalkForwardValidation_eq train test advances ensured (by omega), loops]
    exact reported
  · have total : ((sortedEvents.length - (config.trainSize.toNat + config.testSize.toNat) - 0 : ℕ) : ℤ) =
        (events.countP fun event => event.symbol = symbol) - config.trainSize - config.testSize := by omega
    have every : (config.step.toNat : ℤ) = config.stepSize.getD config.testSize := by
      rw [← WalkForwardConfig.step_eq moves]
      omega
    rw [same, count, Nat.cast_add, Nat.cast_one, Int.natCast_ediv, total, every]
  · intro i slice found
    obtain ⟨inside, isSlice⟩ := spec i slice (same ▸ found)
    exact ⟨isSlice, leakFree_of_fits (pairwise_sortedByTs _) inside⟩
  · intro default_ place least most
    have step : config.step = config.testSize := by rw [WalkForwardConfig.step, default_]
    simp only [WalkForwardConfig.testWindow_default default_]
    apply Windows.existsUnique_tile
    · omega
    · obtain ⟨k, more⟩ : ∃ k, report.slices.length = k + 1 := ⟨_, same ▸ count⟩
      rw [more, WalkForwardConfig.start, step, Nat.add_sub_cancel] at most
      rw [more, Nat.succ_mul]
      omega

/-- Ten events, the closes from 95 to 104. -/
def risingEvents : List MarketEvent := (List.range 10).map fun i : ℕ => ⟨"BTCUSDT", .m1, 95 + i, 60000000 * i, "test"⟩

/-- Train on four events, test on two, go on by two. -/
def fourAndTwo : WalkForwardConfig := { trainSize := 4, testSize := 2, stepSize := some 2, feeBps := 0, slippageBps := 0 }

/-- Three slices of the ten events. -/
theorem walk_forward_windows_rising : ∃ report,
    runWalkForwardValidation risingEvents "BTCUSDT" (fun event => if 100 ≤ event.close then 1 else -1) fourAndTwo = .ok report ∧
      report.slices.length = 3 := by
  have positive : ∀ event ∈ risingEvents, event.symbol = "BTCUSDT" → 0 < event.close := by decide +kernel
  have enough : fourAndTwo.trainSize + fourAndTwo.testSize ≤ risingEvents.countP fun event => event.symbol = "BTCUSDT" := by
    decide +kernel
  obtain ⟨-, report, -, returns, slices, -⟩ := @walk_forward_windows risingEvents "BTCUSDT" fourAndTwo
    (fun event => if 100 ≤ event.close then 1 else -1) positive (by norm_num [fourAndTwo]) le_rfl le_rfl (by decide) (by decide)
    (by decide) enough
  exact ⟨report, returns, Int.ofNat_inj.mp slices⟩

end Validation

end CryptoQuant.Robustness
