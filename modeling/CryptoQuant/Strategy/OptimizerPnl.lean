import CryptoQuant.Backtest.Robustness
import CryptoQuant.Execution.Targeting
import CryptoQuant.Lib.Text
import CryptoQuant.Strategy.Optimizer
import Mathlib.Algebra.Order.BigOperators.Group.List

/-!
# The profit the optimizer reports

The optimizer books its fills against an average entry price; the robustness
metrics add up the cash the same fills moved. The two agree on the positions and
the fees. They differ by the slippage: the fill prices already contain it, and
the optimizer subtracts it once more.
-/

namespace CryptoQuant
set_option autoImplicit false

open PaperExecutor Ledger

section CashAccounting
variable (fills : List Fill)

theorem Robustness.totals_snoc (fill : Fill) :
    Robustness.totals (fills ++ [fill]) = (Robustness.totals fills).add fill := by
  rw [Robustness.totals, List.foldl_append]
  rfl

theorem Robustness.totals_position : (Robustness.totals fills).position = (fills.map Fill.qty).sum := by
  induction fills using List.reverseRecOn with
  | nil => rfl
  | append_singleton fills fill ih => simp [Robustness.totals_snoc, Robustness.Totals.add, ih]

theorem Robustness.totals_cash :
    (Robustness.totals fills).cash =
      -(fills.map fun fill => fill.qty * fill.fillPrice).sum - (fills.map Fill.fee).sum := by
  induction fills using List.reverseRecOn with
  | nil => simp [Robustness.totals]
  | append_singleton fills fill ih =>
    simp only [Robustness.totals_snoc, Robustness.Totals.add, ih, List.map_append, List.map_cons, List.map_nil,
      List.sum_append, List.sum_cons, List.sum_nil]
    ring

end CashAccounting

section AverageCost
variable {ev : Evaluation} {fills : List Fill}

namespace Evaluation

/-- The books of the replay as an average-cost account. -/
def account (ev : Evaluation) : AvgCost ℚ := ⟨ev.position.qty, ev.position.avgEntryPrice, ev.realizedPnl⟩

/-- Booking a fill is one trade of the account. -/
theorem account_book (ev : Evaluation) (fill : Fill) :
    (ev.book fill).account = ev.account.trade fill.qty fill.fillPrice := by
  by_cases grows : ev.account.Extends fill.qty
  · have opens : ev.position.qty = 0 ∨ 0 < ev.position.qty * fill.qty := grows
    rw [AvgCost.trade, if_pos grows]
    simp only [book, PositionState.applyFill, if_pos opens]
    rfl
  · have closes : ¬ (ev.position.qty = 0 ∨ 0 < ev.position.qty * fill.qty) := grows
    rw [AvgCost.trade, if_neg grows]
    simp only [book, PositionState.applyFill, if_neg closes]
    by_cases closed : ev.account.qty + fill.qty = 0
    · rw [if_pos (show ev.position.qty + fill.qty = 0 from closed), if_pos closed, closed]
      rfl
    · rw [if_neg (show ¬ ev.position.qty + fill.qty = 0 from closed), if_neg closed]
      by_cases side : 0 < ev.account.qty * (ev.account.qty + fill.qty)
      · rw [if_pos (show 0 < ev.position.qty * (ev.position.qty + fill.qty) from side), if_pos side]
        rfl
      · rw [if_neg (show ¬ 0 < ev.position.qty * (ev.position.qty + fill.qty) from side), if_neg side]
        rfl

theorem netPnl_eq (ev : Evaluation) (lastPx : ℚ) : ev.netPnl lastPx = ev.account.worth lastPx - ev.feesAndSlippage := by
  unfold netPnl AvgCost.worth account
  simp only
  split
  · rename_i flat
    rw [flat, zero_mul]
  · rfl

/-- The books hold exactly these fills. -/
structure Booked (ev : Evaluation) (fills : List Fill) : Prop where
  account : ev.account = AvgCost.flat.trades (fills.map fun fill => (fill.qty, fill.fillPrice))
  costs : ev.feesAndSlippage = (fills.map Fill.fee).sum + (fills.map Fill.slippageCost).sum
  count : ev.fills = fills.length

theorem booked_start (executor : PaperExecutor) : (start executor).Booked [] where
  account := rfl
  costs := by simp [start]
  count := rfl

@[simp] theorem book_feesAndSlippage (fill : Fill) :
    (ev.book fill).feesAndSlippage = ev.feesAndSlippage + (fill.fee + fill.slippageCost) := by
  simp only [book]
  split <;> rfl

@[simp] theorem book_fills (fill : Fill) : (ev.book fill).fills = ev.fills + 1 := by
  simp only [book]
  split <;> rfl

@[simp] theorem book_bars (fill : Fill) : (ev.book fill).bars = ev.bars := by
  simp only [book]
  split <;> rfl

@[simp] theorem book_executor (fill : Fill) : (ev.book fill).executor = ev.executor := by
  simp only [book]
  split <;> rfl

theorem foldl_bars (ev : Evaluation) (legs : List Fill) : (legs.foldl book ev).bars = ev.bars :=
  Run.foldl_frame Evaluation.bars (fun _ _ => book_bars _) ev legs

theorem foldl_executor (ev : Evaluation) (legs : List Fill) : (legs.foldl book ev).executor = ev.executor :=
  Run.foldl_frame Evaluation.executor (fun _ _ => book_executor _) ev legs

theorem Booked.book (booked : ev.Booked fills) (fill : Fill) : (ev.book fill).Booked (fills ++ [fill]) where
  account := by
    rw [account_book, booked.account, List.map_append, List.map_cons, List.map_nil, AvgCost.trades_snoc]
  costs := by
    rw [book_feesAndSlippage, booked.costs]
    simp only [List.map_append, List.map_cons, List.map_nil, List.sum_append, List.sum_cons, List.sum_nil]
    ring
  count := by simp [booked.count]

theorem Booked.foldl (booked : ev.Booked fills) (legs : List Fill) :
    (legs.foldl Evaluation.book ev).Booked (fills ++ legs) := by
  induction legs generalizing ev fills with
  | nil => simpa using booked
  | cons leg legs ih => simpa using ih (booked.book leg)

/-- **The books against the cash.** The reported profit is the cash result of
the same fills, less their slippage costs. -/
theorem Booked.netPnl (booked : ev.Booked fills) (nonzero : ∀ fill ∈ fills, fill.qty ≠ 0) (lastPx : ℚ) :
    ev.netPnl lastPx = Robustness.equity fills lastPx - (fills.map Fill.slippageCost).sum := by
  have trades : ∀ t ∈ fills.map fun fill => (fill.qty, fill.fillPrice), t.1 ≠ 0 := by
    intro t member
    obtain ⟨fill, among, rfl⟩ := List.mem_map.mp member
    exact nonzero fill among
  have worth := AvgCost.worth_trades _ trades AvgCost.flat lastPx
  have flat : (AvgCost.flat : AvgCost ℚ).worth lastPx = 0 := by simp [AvgCost.worth, AvgCost.flat]
  rw [← booked.account, flat] at worth
  simp only [List.map_map, Function.comp_def] at worth
  rw [netPnl_eq, worth, booked.costs, Robustness.equity]
  simp only [Robustness.totals_cash, Robustness.totals_position]
  ring

end Evaluation

end AverageCost

section Slippage

/-- What a fill costs against its mark price. -/
structure Slipped (rate : ℚ) (fill : Fill) : Prop where
  qty : fill.qty ≠ 0
  price : 0 < fill.requestedPrice
  cost : fill.slippageCost = |fill.qty| * (fill.requestedPrice * rate)

theorem slipped_fillOf {ex : PaperExecutor} {o : MarketOrder} (qty : o.qty ≠ 0) (mark : 0 < o.markPrice)
    (rate : 0 ≤ ex.slippageRate) : Slipped ex.slippageRate (ex.fillOf o) where
  qty := qty
  price := mark
  cost := by
    have moved : |ex.fillPrice o.qty o.markPrice - o.markPrice| = o.markPrice * ex.slippageRate := by
      have cost : 0 ≤ o.markPrice * ex.slippageRate := mul_nonneg mark.le rate
      unfold PaperExecutor.fillPrice
      split
      · rw [← abs_of_nonneg cost]
        congr 1
        ring
      · rw [← abs_of_nonneg cost, ← abs_neg]
        congr 1
        ring
    show |o.qty| * |ex.fillPrice o.qty o.markPrice - o.markPrice| = |o.qty| * (o.markPrice * ex.slippageRate)
    rw [moved]

/-- Fills cost nothing only without slippage. -/
theorem slippage_eq_zero_iff {rate : ℚ} (nonneg : 0 ≤ rate) {fills : List Fill}
    (slipped : ∀ fill ∈ fills, Slipped rate fill) :
    (fills.map Fill.slippageCost).sum = 0 ↔ rate = 0 ∨ fills = [] := by
  constructor
  · intro free
    by_contra h
    rw [not_or] at h
    obtain ⟨charged, traded⟩ := h
    have positive : 0 < rate := lt_of_le_of_ne nonneg (Ne.symm charged)
    have costs : ∀ c ∈ fills.map Fill.slippageCost, 0 < c := by
      intro c member
      obtain ⟨fill, among, rfl⟩ := List.mem_map.mp member
      obtain ⟨qty, price, cost⟩ := slipped fill among
      rw [cost]
      exact mul_pos (abs_pos.mpr qty) (mul_pos price positive)
    have total := List.sum_pos _ costs (by simpa using traded)
    exact total.ne' free
  · rintro (rfl | rfl)
    · have costs : fills.map Fill.slippageCost = fills.map fun _ => 0 := by
        apply List.map_congr_left
        intro fill among
        rw [(slipped fill among).cost, mul_zero, mul_zero]
      rw [costs]
      simp
    · rfl

end Slippage

namespace AutomatedStrategyOptimizer
variable {optimizer : AutomatedStrategyOptimizer} {params : StrategyParameterSet}
  {strategy : MovingAverageCrossoverStrategy}

/-- Two ids of the replay are equal only within one event. -/
theorem idPrefix_inj {i j : ℕ} {s t : String} (hs : s ∈ legSuffixes) (ht : t ∈ legSuffixes)
    (same : idPrefix params i ++ s = idPrefix params j ++ t) : i = j :=
  numbered_inj hs ht same

/-- The strategy asks for no position on any prefix of the events. -/
def NeverTrades (strategy : MovingAverageCrossoverStrategy) (events : List MarketEvent) : Prop :=
  ∀ k, strategy.targetQty ((events.take k).map marketEventToBar) = 0

/-- What holds of the replay after a prefix of the numbered events. -/
structure Replayed (optimizer : AutomatedStrategyOptimizer) (params : StrategyParameterSet)
    (strategy : MovingAverageCrossoverStrategy) (done : List (MarketEvent × ℕ)) (ev : Evaluation) : Prop where
  bars : ev.bars = (done.map Prod.fst).map marketEventToBar
  unguarded : ev.executor.killSwitch = none
  rate : ev.executor.slippageRate = optimizer.slippageBps / 10000
  fresh : ∀ idx, done.length < idx → ∀ suffix ∈ legSuffixes, ev.executor.Fresh (idPrefix params idx ++ suffix)
  booked : ev.Booked ev.executor.fills.values
  slipped : ∀ fill ∈ ev.executor.fills.values, Slipped (optimizer.slippageBps / 10000) fill
  position : ev.executor.position optimizer.symbol = (ev.executor.fills.values.map Fill.qty).sum
  target : ev.executor.position optimizer.symbol = strategy.targetQty ev.bars
  quiet : ev.executor.fills.values = [] ↔ NeverTrades strategy (done.map Prod.fst)

theorem NeverTrades.nil (strategy : MovingAverageCrossoverStrategy) : NeverTrades strategy [] := by
  intro k
  rw [List.take_nil]
  exact strategy.targetQty_nil

theorem neverTrades_snoc {events : List MarketEvent} {event : MarketEvent} :
    NeverTrades strategy (events ++ [event]) ↔
      NeverTrades strategy events ∧ strategy.targetQty ((events ++ [event]).map marketEventToBar) = 0 := by
  constructor
  · intro never
    refine ⟨fun k => ?_, ?_⟩
    · -- A prefix of the shorter list is one of the longer list.
      have bounded := never (min k events.length)
      rw [List.take_append_of_le_length (min_le_right _ _)] at bounded
      rwa [← List.take_length (l := events), List.take_take]
    · have whole := never (events ++ [event]).length
      rwa [List.take_length] at whole
  · rintro ⟨never, last⟩ k
    rcases Nat.lt_or_ge events.length k with all | within
    · have covered : (events ++ [event]).length ≤ k := by
        rw [List.length_append, List.length_singleton]
        omega
      rw [List.take_of_length_le covered]
      exact last
    · rw [List.take_append_of_le_length within]
      exact never k

theorem replayed_start {executor : PaperExecutor}
    (built : PaperExecutor.new OMS.init optimizer.feeBps optimizer.slippageBps = .ok executor) :
    Replayed optimizer params strategy [] (.start executor) := by
  have fresh := PaperExecutor.fresh_new built
  unfold PaperExecutor.new at built
  split at built
  · cases built
  · cases built
    exact {
      bars := rfl
      unguarded := rfl
      rate := rfl
      fresh := fun idx _ suffix _ => fresh _
      booked := Evaluation.booked_start _
      slipped := fun fill member => absurd member List.not_mem_nil
      position := rfl
      target := strategy.targetQty_nil.symm
      quiet := ⟨fun _ => NeverTrades.nil strategy, fun _ => rfl⟩ }

/-- **One event** of the replay succeeds and keeps the books. -/
theorem Replayed.step {done : List (MarketEvent × ℕ)} {ev : Evaluation} {event : MarketEvent}
    (h : Replayed optimizer params strategy done ev) (slippage : 0 ≤ optimizer.slippageBps) (close : 0 < event.close) :
    ∃ ev', optimizer.replayStep params strategy ev (event, done.length + 1) = .ok ev' ∧
      Replayed optimizer params strategy (done ++ [(event, done.length + 1)]) ev' := by
  let bars := ev.bars ++ [marketEventToBar event]
  have allows : ev.executor.assertAllowsExecution = .ok () := by
    unfold assertAllowsExecution
    rw [h.unguarded]
  obtain ⟨fills, ex', executes, toward⟩ := executeToTarget_toward allows (h.fresh _ (Nat.lt_succ_self _))
    optimizer.symbol (strategy.targetQty bars) close event.ts
  have executor := Evaluation.foldl_executor { ev with bars, executor := ex' } fills
  have seen := Evaluation.foldl_bars { ev with bars, executor := ex' } fills
  have barsOf : bars = ((done ++ [(event, done.length + 1)]).map Prod.fst).map marketEventToBar := by
    simp only [bars, h.bars, List.map_append, List.map_cons, List.map_nil]
  refine ⟨fills.foldl Evaluation.book { ev with bars, executor := ex' }, ?_, ?_⟩
  · unfold replayStep
    simp only
    rw [executes]
  constructor
  case bars => exact seen.trans barsOf
  case unguarded => rw [executor]; exact toward.killSwitch.trans h.unguarded
  case rate => rw [executor]; exact toward.slippageRate.trans h.rate
  case fresh =>
    intro idx later suffix among
    rw [List.length_append, List.length_singleton] at later
    rw [executor]
    apply toward.fresh _ (h.fresh idx (by omega) suffix among)
    intro suffix' among' same
    have sameEvent := idPrefix_inj among among' same
    omega
  case booked =>
    have booked : ({ ev with bars, executor := ex' } : Evaluation).Booked ev.executor.fills.values :=
      ⟨h.booked.account, h.booked.costs, h.booked.count⟩
    rw [executor, toward.values]
    exact booked.foldl fills
  case slipped =>
    intro fill member
    rw [executor, toward.values] at member
    rcases List.mem_append.mp member with old | new
    · exact h.slipped fill old
    · obtain ⟨o, rfl, -, qty, mark⟩ := toward.fill fill new
      have rate : 0 ≤ ev.executor.slippageRate := by rw [h.rate]; positivity
      exact h.rate ▸ slipped_fillOf qty (mark ▸ close) rate
  case position =>
    rw [executor, toward.values, List.map_append, List.sum_append, ← h.position]
    exact toward.moved
  case target => rw [executor, seen]; exact toward.arrived
  case quiet =>
    rw [executor, toward.values, List.append_eq_nil_iff, h.quiet, toward.nothing, List.map_append]
    simp only [List.map_cons, List.map_nil]
    rw [neverTrades_snoc]
    refine and_congr_right fun never => ?_
    have flat : ev.executor.position optimizer.symbol = 0 := by
      have last := never done.length
      rw [h.target, h.bars, ← last, List.take_of_length_le (by simp)]
    rw [flat, barsOf, List.map_append]
    exact eq_comm

/-- The replay of the whole list succeeds. -/
theorem replay_spec (valid : MovingAverageCrossoverStrategy.new params.fastWindow params.slowWindow
      optimizer.baseQty = .ok strategy) (fee : 0 ≤ optimizer.feeBps) (slippage : 0 ≤ optimizer.slippageBps)
    {events : List MarketEvent} (closes : ∀ e ∈ events, 0 < e.close) :
    ∃ ev, optimizer.replay events params = .ok ev ∧
      Replayed optimizer params strategy (events.zipIdx 1) ev := by
  obtain ⟨executor, built⟩ := PaperExecutor.exists_new fee slippage OMS.init none
  have go : ∀ done item rest ev, events.zipIdx 1 = done ++ item :: rest →
      Replayed optimizer params strategy done ev →
      ∃ ev', optimizer.replayStep params strategy ev item = .ok ev' ∧
        Replayed optimizer params strategy (done ++ [item]) ev' := by
    rintro done ⟨event, idx⟩ rest ev split holds
    have member : (event, idx) ∈ events.zipIdx 1 := split ▸ List.mem_append_right done List.mem_cons_self
    obtain rfl : idx = done.length + 1 := Run.number_of_split split
    exact holds.step slippage (closes event (List.fst_mem_of_mem_zipIdx member))
  obtain ⟨ev, run, holds⟩ := Run.progress (replayed_start built) go (List.append_nil (events.zipIdx 1)).symm
  refine ⟨ev, ?_, holds⟩
  unfold replay
  rw [valid, built]
  exact run

/-- **What the optimizer reports.** The replay succeeds, and its profit is the
cash result of the fills exactly when there is no slippage or no trade. -/
theorem net_pnl_iff (valid : MovingAverageCrossoverStrategy.new params.fastWindow params.slowWindow
      optimizer.baseQty = .ok strategy) (fee : 0 ≤ optimizer.feeBps) (slippage : 0 ≤ optimizer.slippageBps)
    {events : List MarketEvent} (nonempty : events ≠ []) (closes : ∀ e ∈ events, 0 < e.close) :
    ∃ ev evaluation last, optimizer.replay events params = .ok ev ∧ optimizer.evaluate events params = .ok evaluation ∧
      events.getLast? = some last ∧
      ev.executor.position optimizer.symbol = (Robustness.totals ev.executor.fills.values).position ∧
      (evaluation.metrics.netPnl = Robustness.equity ev.executor.fills.values last.close ↔
        optimizer.slippageBps = 0 ∨ NeverTrades strategy events) := by
  obtain ⟨ev, run, holds⟩ := replay_spec valid fee slippage closes
  have last := List.getLast?_eq_some_getLast nonempty
  refine ⟨ev, optimizer.report params ev (events.getLast nonempty).close, _, run, ?_, last, ?_, ?_⟩
  · unfold evaluate lastItem
    rw [run, last]
    rfl
  · rw [holds.position, Robustness.totals_position]
  · have gap := holds.booked.netPnl (fun fill member => (holds.slipped fill member).qty) (events.getLast nonempty).close
    have free := slippage_eq_zero_iff (by positivity) holds.slipped
    have quiet := holds.quiet
    rw [List.zipIdx_map_fst] at quiet
    have rate : optimizer.slippageBps / 10000 = 0 ↔ optimizer.slippageBps = 0 := by simp
    rw [rate, quiet] at free
    rw [← free]
    show ev.netPnl _ = _ ↔ _
    rw [gap]
    exact sub_eq_self

/-- An optimizer that pays one percent of slippage and no fee. -/
def onePercent : AutomatedStrategyOptimizer where
  symbol := "BTCUSDT"
  baseQty := 1
  objective := .netPnl
  feeBps := 0
  slippageBps := 100
  baseQty_pos := by decide

/-- Two rising closes. -/
def rise : List MarketEvent :=
  [{ symbol := "BTCUSDT", timeframe := .m1, close := 100, ts := 0 },
    { symbol := "BTCUSDT", timeframe := .m1, close := 110, ts := 60000000 }]

/-- The last close against the mean of the two. -/
def oneOverTwo : MovingAverageCrossoverStrategy := ⟨1, 2, 1, by decide, by decide, by decide⟩

theorem net_pnl_iff_rise : ∃ ev evaluation last, onePercent.replay rise ⟨1, 2⟩ = .ok ev ∧
    onePercent.evaluate rise ⟨1, 2⟩ = .ok evaluation ∧ rise.getLast? = some last ∧
    ev.executor.position onePercent.symbol = (Robustness.totals ev.executor.fills.values).position ∧
    (evaluation.metrics.netPnl = Robustness.equity ev.executor.fills.values last.close ↔
      onePercent.slippageBps = 0 ∨ NeverTrades oneOverTwo rise) :=
  net_pnl_iff rfl (by decide) (by decide) (by decide) (by decide)

/-- The single fill, of one unit at 111.1, loses 1.1 against the last close; the
report says 2.2. -/
theorem net_pnl_slips_twice : (∀ e ∈ rise, e.symbol = onePercent.symbol ∧ 0 < e.close) ∧
    0 ≤ onePercent.slippageBps ∧ onePercent.slippageBps < 10000 ∧
    ∃ ev evaluation, onePercent.replay rise ⟨1, 2⟩ = .ok ev ∧ onePercent.evaluate rise ⟨1, 2⟩ = .ok evaluation ∧
      Robustness.equity ev.executor.fills.values 110 = -11 / 10 ∧ evaluation.metrics.netPnl = -11 / 5 := by
  obtain ⟨ev, replayed, equity⟩ := Run.endsIn_iff.mp (show Run.endsIn (onePercent.replay rise ⟨1, 2⟩) (fun ev =>
    decide (Robustness.equity ev.executor.fills.values 110 = -11 / 10)) = true by decide +kernel)
  obtain ⟨evaluation, evaluated, pnl⟩ := Run.endsIn_iff.mp (show Run.endsIn (onePercent.evaluate rise ⟨1, 2⟩)
    (fun evaluation => decide (evaluation.metrics.netPnl = -11 / 5)) = true by decide +kernel)
  exact ⟨by decide, by decide, by decide, ev, evaluation, replayed, evaluated, of_decide_eq_true equity, of_decide_eq_true pnl⟩

end AutomatedStrategyOptimizer

end CryptoQuant
