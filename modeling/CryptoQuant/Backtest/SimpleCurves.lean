import CryptoQuant.Backtest.Simple
import CryptoQuant.Indicators.NoLookAhead
import CryptoQuant.Lib.Run
import Mathlib.Algebra.Order.BigOperators.Group.List
import Mathlib.Algebra.Order.Field.Basic
import Mathlib.Order.Bounds.Basic

/-!
# The curves of the SMA crossover backtest

A round reads two bars and the value at the first of them, and appends one entry
to each curve. So the state after the first bars is that of the backtest on them,
and the later rounds only extend its curves.
-/

namespace CryptoQuant.Simple
set_option autoImplicit false

open Indicators

section Rounds
variable {bars : List Bar} {values : List (Option ℚ)} {st st' : Walk} {i k : ℕ}

theorem itemAt_ok {α : Type} {xs : List α} {x : α} : itemAt xs i = .ok x ↔ xs[i]? = some x := by
  unfold itemAt
  cases xs[i]? <;> simp

theorem itemAt_take {α : Type} (below : i < k) (xs : List α) : itemAt (xs.take k) i = itemAt xs i := by
  unfold itemAt
  rw [List.getElem?_take_of_lt below]

/-- What a round does, and when it can. -/
theorem turn_ok : turn bars values st i = .ok st' ↔
    ∃ prev cur signal, bars[i - 1]? = some prev ∧ bars[i]? = some cur ∧ values[i - 1]? = some signal ∧
      prev.close ≠ 0 ∧ st.next prev cur signal = st' := by
  unfold turn
  simp only [Run.bind_ok, itemAt_ok, raiseIf_ok]
  constructor
  · rintro ⟨prev, hprev, cur, hcur, signal, hsignal, -, priced, same⟩
    exact ⟨prev, cur, signal, hprev, hcur, hsignal, priced, Except.ok.inj same⟩
  · rintro ⟨prev, cur, signal, hprev, hcur, hsignal, priced, rfl⟩
    exact ⟨prev, hprev, cur, hcur, signal, hsignal, (), priced, rfl⟩

/-- A round below the end of a prefix is the same on the prefix. -/
theorem turn_take (below : i < k) (st : Walk) : turn (bars.take k) (values.take k) st i = turn bars values st i := by
  have before : i - 1 < k := by omega
  unfold turn
  rw [itemAt_take before, itemAt_take below, itemAt_take before]

end Rounds

section Drawdown

/-- Every drawdown is the distance of its equity from the highest one so far. -/
def Drawdowns (curve drawdowns : List ℚ) : Prop :=
  drawdowns.length = curve.length ∧
    ∀ i e, curve[i]? = some e → ∃ peak, IsGreatest {x | x ∈ curve.take (i + 1)} peak ∧
      drawdowns[i]? = some (1 - e / peak) ∧ 0 ≤ 1 - e / peak ∧ 1 - e / peak < 1

theorem isGreatest_snoc {xs : List ℚ} {most : ℚ} (greatest : IsGreatest {x | x ∈ xs} most) (x : ℚ) :
    IsGreatest {y | y ∈ xs ++ [x]} (max most x) := by
  have same : {y | y ∈ xs ++ [x]} = insert x {y | y ∈ xs} := by
    ext y
    simp [or_comm]
  rw [same, max_comm]
  exact greatest.insert x

theorem drawdown_bounds {e peak : ℚ} (positive : 0 < e) (below : e ≤ peak) :
    0 ≤ 1 - e / peak ∧ 1 - e / peak < 1 := by
  have high : 0 < peak := positive.trans_le below
  have share : e / peak ≤ 1 := (div_le_one high).mpr below
  have some_ : 0 < e / peak := div_pos positive high
  constructor <;> linarith

theorem Drawdowns.snoc {curve drawdowns : List ℚ} (all : Drawdowns curve drawdowns) {e peak : ℚ} (positive : 0 < e)
    (greatest : IsGreatest {x | x ∈ curve ++ [e]} peak) : Drawdowns (curve ++ [e]) (drawdowns ++ [1 - e / peak]) := by
  obtain ⟨length, each⟩ := all
  refine ⟨by simp [length], ?_⟩
  intro i x found
  rcases Nat.lt_or_ge i curve.length with old | new
  · rw [List.getElem?_append_left old] at found
    obtain ⟨peak, greatest, entry, bounds⟩ := each i x found
    refine ⟨peak, ?_, ?_, bounds⟩
    · rwa [List.take_append_of_le_length old]
    · rwa [List.getElem?_append_left (by omega)]
  · have last : i = curve.length := by
      have := (List.getElem?_eq_some_iff.mp found).1
      simp at this
      omega
    subst last
    have same : e = x := by simpa using found
    subst same
    refine ⟨peak, ?_, ?_, drawdown_bounds positive (greatest.2 (by simp))⟩
    · rwa [List.take_of_length_le (by simp)]
    · rw [← length, List.getElem?_concat_length]

/-- What the loop keeps: the peak and the maximum belong to the whole history. -/
structure Tracks (st : Walk) : Prop where
  equity : 0 < st.equity
  positive : ∀ e ∈ st.curve, 0 < e
  peak : IsGreatest {e | e ∈ st.curve} st.peak
  maxDrawdown : IsGreatest {d | d ∈ st.drawdownCurve} st.maxDrawdown
  drawdowns : Drawdowns st.curve st.drawdownCurve

theorem tracks_start : Tracks {} where
  equity := one_pos
  positive := by simp
  peak := by simp
  maxDrawdown := by simp
  drawdowns := by
    refine ⟨rfl, ?_⟩
    intro i e found
    obtain ⟨rfl, rfl⟩ : i = 0 ∧ 1 = e := by
      cases i with
      | zero => simpa using found
      | succ i => simp at found
    exact ⟨1, by simp, by norm_num, by norm_num, by norm_num⟩

/-- **One round** keeps what the loop keeps. -/
theorem Tracks.next {st : Walk} (tracks : Tracks st) {prev cur : Bar} (before : 0 < prev.close) (after : 0 < cur.close)
    (signal : Option ℚ) : Tracks (st.next prev cur signal) := by
  have equity : 0 < (st.next prev cur signal).equity := by
    unfold Walk.next
    dsimp only
    split
    · rw [add_sub_cancel]
      exact mul_pos tracks.equity (div_pos after before)
    · exact tracks.equity
  have peak : IsGreatest {e | e ∈ (st.next prev cur signal).curve} (st.next prev cur signal).peak :=
    isGreatest_snoc tracks.peak (st.next prev cur signal).equity
  have high : 0 < (st.next prev cur signal).peak := equity.trans_le (le_max_right _ _)
  have entry : (st.next prev cur signal).drawdownCurve = st.drawdownCurve ++
      [1 - (st.next prev cur signal).equity / (st.next prev cur signal).peak] := by
    have value : 1 - (st.next prev cur signal).equity / (st.next prev cur signal).peak =
        ((st.next prev cur signal).peak - (st.next prev cur signal).equity) / (st.next prev cur signal).peak := by
      rw [sub_div, div_self high.ne']
    rw [value]
    have deep : (st.next prev cur signal).peak ≠ 0 := high.ne'
    unfold Walk.next at deep ⊢
    dsimp only at deep ⊢
    rw [if_pos deep]
  refine ⟨equity, ?_, peak, isGreatest_snoc tracks.maxDrawdown _, ?_⟩
  · intro e member
    rcases List.mem_append.mp member with old | new
    · exact tracks.positive e old
    · rw [List.mem_singleton.mp new]
      exact equity
  · rw [entry]
    exact tracks.drawdowns.snoc equity peak

end Drawdown

section Loop
variable {bars : List Bar} {values : List (Option ℚ)} {k : ℕ}

/-- The loop of the backtest. -/
def walked (bars : List Bar) (values : List (Option ℚ)) : Except PyError Walk :=
  (List.range' 1 (bars.length - 1)).foldlM (turn bars values) {}

/-- The later state has the earlier one's lists, and more entries. -/
structure Extends (st later : Walk) : Prop where
  curve : st.curve <+: later.curve
  drawdownCurve : st.drawdownCurve <+: later.drawdownCurve
  activeReturns : st.activeReturns <+: later.activeReturns

theorem Extends.next {st later : Walk} (grown : Extends st later) (prev cur : Bar) (signal : Option ℚ) :
    Extends st (later.next prev cur signal) where
  curve := grown.curve.trans (List.prefix_append _ _)
  drawdownCurve := grown.drawdownCurve.trans (List.prefix_append _ _)
  activeReturns := by
    unfold Walk.next
    dsimp only
    split
    · exact grown.activeReturns.trans (List.prefix_append _ _)
    · exact grown.activeReturns

theorem extends_of_rounds {is : List ℕ} {st st' : Walk} (run : is.foldlM (turn bars values) st = .ok st') :
    Extends st st' := by
  refine Run.invariant (P := fun _ later => Extends st later) ⟨List.prefix_rfl, List.prefix_rfl, List.prefix_rfl⟩ ?_
    (List.append_nil is).symm run
  intro done i rest t u split grown round
  obtain ⟨prev, cur, signal, -, -, -, -, rfl⟩ := turn_ok.mp round
  exact grown.next prev cur signal

/-- **Prefix rule.** The backtest on the first bars is the first part of the
backtest on all of them. -/
theorem walked_take (some_ : 1 ≤ k) (short : k ≤ bars.length) :
    walked bars values = walked (bars.take k) (values.take k) >>= fun st =>
      (List.range' k (bars.length - k)).foldlM (turn bars values) st := by
  have rounds : List.range' 1 (bars.length - 1) = List.range' 1 (k - 1) ++ List.range' k (bars.length - k) := by
    have start : k = 1 + (k - 1) := by omega
    have count : bars.length - 1 = (k - 1) + (bars.length - k) := by omega
    rw [count]
    conv_rhs => rw [show List.range' k (bars.length - k) = List.range' (1 + (k - 1)) (bars.length - k) by rw [← start]]
    rw [List.range'_append_1]
  have same : (List.range' 1 (k - 1)).foldlM (turn bars values) {} = walked (bars.take k) (values.take k) := by
    unfold walked
    rw [List.length_take, Nat.min_eq_left short]
    refine Run.foldlM_congr (fun i member st => (turn_take ?_ st).symm) _
    have place := (List.mem_range'_1.mp member).2
    omega
  rw [← same, walked, rounds, List.foldlM_append]

theorem length_walked {st : Walk} (run : walked bars values = .ok st) (some_ : bars ≠ []) :
    st.curve.length = bars.length ∧ st.drawdownCurve.length = bars.length := by
  have nonempty := List.length_pos_iff.mpr some_
  have counts : st.curve.length = (List.range' 1 (bars.length - 1)).length + 1 ∧
      st.drawdownCurve.length = (List.range' 1 (bars.length - 1)).length + 1 := by
    refine Run.invariant (P := fun done st => st.curve.length = done.length + 1 ∧
      st.drawdownCurve.length = done.length + 1) ⟨rfl, rfl⟩ ?_ (List.append_nil _).symm run
    intro done i rest t u split counts round
    obtain ⟨prev, cur, signal, -, -, -, -, rfl⟩ := turn_ok.mp round
    simpa [Walk.next] using counts
  rw [List.length_range'] at counts
  omega

theorem tracks_walked {st : Walk} (positive : ∀ bar ∈ bars, 0 < bar.close) (run : walked bars values = .ok st) :
    Tracks st := by
  refine Run.invariant (P := fun _ st => Tracks st) tracks_start ?_ (List.append_nil _).symm run
  intro done i rest t u split tracks round
  obtain ⟨prev, cur, signal, hprev, hcur, -, -, rfl⟩ := turn_ok.mp round
  exact tracks.next (positive prev (List.mem_of_getElem? hprev)) (positive cur (List.mem_of_getElem? hcur)) signal

/-- The loop ends when there is a value for every bar but the last. -/
theorem walked_returns (positive : ∀ bar ∈ bars, 0 < bar.close) (enough : bars.length ≤ values.length + 1) :
    ∃ st, walked bars values = .ok st := by
  have rounds : ∀ done i rest (t : Walk), List.range' 1 (bars.length - 1) = done ++ i :: rest → True →
      ∃ u, turn bars values t i = .ok u ∧ True := by
    intro done i rest t split _
    have member : i ∈ List.range' 1 (bars.length - 1) := by simp [split]
    obtain ⟨least, most⟩ := List.mem_range'_1.mp member
    have below : i < bars.length := by omega
    have before : i - 1 < bars.length := by omega
    have valued : i - 1 < values.length := by omega
    have priced : bars[i - 1].close ≠ 0 := (positive _ (List.getElem_mem before)).ne'
    exact ⟨_, turn_ok.mpr ⟨_, _, _, List.getElem?_eq_getElem before, List.getElem?_eq_getElem below,
      List.getElem?_eq_getElem valued, priced, rfl⟩, trivial⟩
  obtain ⟨st, run, -⟩ := Run.progress (P := fun _ _ => True) trivial rounds (List.append_nil _).symm
  exact ⟨st, run⟩

end Loop

section Report
variable {py : Numerics} {timeframe : String} {returns : List ℚ}

theorem periods_of_annualized {r x : ℚ} {n : ℕ} (many : 2 ≤ n) (returned : annualizedReturn py r n timeframe = .ok x) :
    ∃ periods, periodsPerYear py timeframe = .ok periods ∧ periods ≠ 0 := by
  unfold annualizedReturn at returned
  rw [if_neg (by omega)] at returned
  obtain ⟨periods, counted, rest⟩ := Run.bind_ok.mp returned
  obtain ⟨_, nonzero, _⟩ := Run.bind_ok.mp rest
  exact ⟨periods, counted, raiseIf_ok.mp nonzero⟩

variable (py) in
/-- The annual return needs a time frame only, and of one bar not even that. -/
theorem annualized_returns (r : ℚ) (n : ℕ)
    (counts : 2 ≤ n → ∃ periods, periodsPerYear py timeframe = .ok periods ∧ periods ≠ 0) :
    ∃ x, annualizedReturn py r n timeframe = .ok x := by
  unfold annualizedReturn
  by_cases few : n ≤ 1
  · exact ⟨0, by rw [if_pos few]; rfl⟩
  obtain ⟨periods, counted, nonzero⟩ := counts (by omega)
  have divides : raiseIf (periods = 0) (zeroDivision "division by zero") = .ok () := raiseIf_ok.mpr nonzero
  rw [if_neg few, counted]
  simp only [bind, Except.bind]
  rw [divides]
  dsimp only
  split
  · exact ⟨0, rfl⟩
  · exact ⟨_, rfl⟩

theorem variance_nonneg (many : 2 ≤ returns.length) : 0 ≤ variance returns := by
  have enough : (2 : ℚ) ≤ returns.length := by exact_mod_cast many
  unfold variance
  refine div_nonneg (List.sum_nonneg ?_) (by linarith)
  simp only [List.mem_map]
  rintro _ ⟨r, -, rfl⟩
  exact sq_nonneg _

/-- Returns without variance are all the same. -/
theorem variance_eq_zero_iff (many : 2 ≤ returns.length) : variance returns = 0 ↔ ∃ c, ∀ r ∈ returns, r = c := by
  have enough : (2 : ℚ) ≤ returns.length := by exact_mod_cast many
  unfold variance
  rw [div_eq_zero_iff, or_iff_left (by linarith)]
  constructor
  · intro none_
    refine ⟨returns.sum / returns.length, ?_⟩
    intro r member
    have squares : ∀ x ∈ returns.map fun r => (r - returns.sum / returns.length) ^ 2, (0 : ℚ) ≤ x := by
      simp only [List.mem_map]
      rintro _ ⟨r, -, rfl⟩
      exact sq_nonneg _
    have zero := List.all_zero_of_le_zero_le_of_sum_eq_zero squares none_ (List.mem_map_of_mem member)
    exact sub_eq_zero.mp (pow_eq_zero_iff two_ne_zero |>.mp zero)
  · rintro ⟨c, same⟩
    have copies : returns = List.replicate returns.length c := List.eq_replicate_iff.mpr ⟨rfl, same⟩
    have mean : returns.sum / returns.length = c := by
      rw [copies, List.sum_replicate, List.length_replicate, nsmul_eq_mul, mul_div_cancel_left₀]
      linarith
    rw [mean, List.sum_eq_zero]
    simp only [List.mem_map]
    rintro _ ⟨r, member, rfl⟩
    rw [same r member, sub_self, zero_pow two_ne_zero]

theorem mathSqrt_ok {x y : ℚ} : mathSqrt py x = .ok y ↔ 0 ≤ x ∧ py.sqrt x = y := by
  unfold mathSqrt
  rw [Run.bind_ok]
  constructor
  · rintro ⟨_, nonneg, same⟩
    exact ⟨not_lt.mp (raiseIf_ok.mp nonneg), Except.ok.inj same⟩
  · rintro ⟨nonneg, rfl⟩
    exact ⟨(), raiseIf_ok.mpr (not_lt.mpr nonneg), rfl⟩

/-- When `_sharpe_ratio` returns: with variance, the periods need a root. -/
theorem sharpe_ok_iff (many : 2 ≤ returns.length) : (∃ x, sharpeRatio py returns timeframe = .ok x) ↔
    (variance returns ≠ 0 → ∃ periods, periodsPerYear py timeframe = .ok periods ∧ 0 ≤ periods) := by
  have nonneg := variance_nonneg many
  have root : mathSqrt py (variance returns) = .ok (py.sqrt (variance returns)) := mathSqrt_ok.mpr ⟨nonneg, rfl⟩
  unfold sharpeRatio
  rw [if_neg (by omega), root]
  simp only [bind, Except.bind]
  by_cases flat : variance returns = 0
  · rw [if_pos ((py.sqrt_eq_zero nonneg).mpr flat)]
    exact ⟨fun _ varies => absurd flat varies, fun _ => ⟨0, rfl⟩⟩
  rw [if_neg (mt (py.sqrt_eq_zero nonneg).mp flat)]
  constructor
  · rintro ⟨x, returned⟩ -
    obtain ⟨periods, counted, rest⟩ := Run.bind_ok.mp returned
    obtain ⟨y, rooted, -⟩ := Run.bind_ok.mp rest
    exact ⟨periods, counted, by exact_mod_cast (mathSqrt_ok.mp rooted).1⟩
  · intro counts
    obtain ⟨periods, counted, positive⟩ := counts flat
    have rooted : mathSqrt py periods = .ok (py.sqrt periods) := mathSqrt_ok.mpr ⟨by exact_mod_cast positive, rfl⟩
    rw [counted]
    dsimp only
    rw [rooted]
    exact ⟨_, rfl⟩

/-- Where the ratio of all returns is computed, that of the first ones is. -/
theorem sharpe_returns {first : List ℚ} (earlier : first <+: returns)
    (returned : ∃ x, sharpeRatio py returns timeframe = .ok x) : ∃ x, sharpeRatio py first timeframe = .ok x := by
  by_cases few : first.length < 2
  · exact ⟨0, by rw [sharpeRatio, if_pos few]; rfl⟩
  have some_ : 2 ≤ first.length := not_lt.mp few
  have many : 2 ≤ returns.length := some_.trans earlier.length_le
  refine (sharpe_ok_iff some_).mpr fun varies => (sharpe_ok_iff many).mp returned fun flat => varies ?_
  obtain ⟨c, same⟩ := (variance_eq_zero_iff many).mp flat
  exact (variance_eq_zero_iff some_).mpr ⟨c, fun r member => same r (earlier.subset member)⟩

end Report

section Backtest
variable {py : Numerics} {indicator : IndicatorPlugin} {bars : List Bar} {result : BacktestResult}

/-- What the backtest of some bars returns, and when it does. -/
theorem run_ok {first : Bar} {rest : List Bar} :
    runSmaCrossoverBacktest py (first :: rest) indicator = .ok result ↔
      ∃ values st annualized sharpe, indicator.compute ⟨first :: rest⟩ = .ok values ∧
        walked (first :: rest) values = .ok st ∧
        annualizedReturn py (st.equity - 1) (rest.length + 1) first.timeframe = .ok annualized ∧
        sharpeRatio py st.activeReturns first.timeframe = .ok sharpe ∧
        result = ⟨st.curve, st.drawdownCurve,
          { symbol := first.symbol, timeframe := first.timeframe, bars := rest.length + 1, trades := st.trades
            totalReturn := st.equity - 1, maxDrawdown := st.maxDrawdown, annualizedReturn := annualized
            sharpeRatio := sharpe, winRate := winRate st.activeReturns, finalEquity := st.equity }⟩ := by
  unfold runSmaCrossoverBacktest walked
  simp only [Run.bind_ok, List.length_cons]
  constructor
  · rintro ⟨values, computed, st, run, annualized, annual, sharpe, ratio, same⟩
    exact ⟨values, st, annualized, sharpe, computed, run, annual, ratio, (Except.ok.inj same).symm⟩
  · rintro ⟨values, st, annualized, sharpe, computed, run, annual, ratio, rfl⟩
    exact ⟨values, computed, st, run, annualized, annual, sharpe, ratio, rfl⟩

/-- The indicator's output on the first bars is the first part of its output. -/
def OnPrefixes (indicator : IndicatorPlugin) : Prop :=
  ∀ bars values k, 1 ≤ k → indicator.compute ⟨bars⟩ = .ok values →
    indicator.compute ⟨bars.take k⟩ = .ok (values.take k)

theorem onPrefixes_of_noLookAhead (causal : NoLookAhead fun bars => indicator.compute ⟨bars⟩) : OnPrefixes indicator := by
  intro bars values k _ computed
  obtain ⟨out, whole, part⟩ := causal bars k
  cases whole.symm.trans computed
  exact part

/-- The first bars of a backtest that returns are one that returns, with the first
entries of its curves. -/
theorem run_take (causal : OnPrefixes indicator) (returned : runSmaCrossoverBacktest py bars indicator = .ok result)
    {k : ℕ} (some_ : 1 ≤ k) :
    ∃ earlier, runSmaCrossoverBacktest py (bars.take k) indicator = .ok earlier ∧
      earlier.equityCurve = result.equityCurve.take k ∧ earlier.drawdownCurve = result.drawdownCurve.take k := by
  cases bars with
  | nil =>
    cases returned
    exact ⟨_, by rw [List.take_nil]; rfl, List.take_nil.symm, List.take_nil.symm⟩
  | cons first rest =>
    obtain ⟨values, st, annualized, sharpe, computed, run, annual, ratio, rfl⟩ := run_ok.mp returned
    have lengths := length_walked run (by simp)
    by_cases long : (first :: rest).length ≤ k
    · rw [List.take_of_length_le long]
      refine ⟨_, returned, ?_, ?_⟩
      · exact (List.take_of_length_le (by dsimp only; omega)).symm
      · exact (List.take_of_length_le (by dsimp only; omega)).symm
    have short : k ≤ (first :: rest).length := by omega
    obtain ⟨mid, before, after⟩ := Run.bind_ok.mp ((walked_take some_ short).symm.trans run)
    have grown := extends_of_rounds after
    obtain ⟨j, rfl⟩ : ∃ j, k = j + 1 := ⟨k - 1, by omega⟩
    rw [List.take_succ_cons] at before ⊢
    have first_ := length_walked before (by simp)
    have computed' := causal _ _ (j + 1) some_ computed
    rw [List.take_succ_cons] at computed'
    obtain ⟨annualized', annual'⟩ := annualized_returns py (mid.equity - 1) ((rest.take j).length + 1)
      fun many => periods_of_annualized (by simp at many ⊢; omega) annual
    obtain ⟨sharpe', ratio'⟩ := sharpe_returns grown.activeReturns ⟨sharpe, ratio⟩
    refine ⟨_, run_ok.mpr ⟨_, mid, annualized', sharpe', computed', before, annual', ratio', rfl⟩, ?_, ?_⟩
    · have entries : mid.curve.length = j + 1 := by simp at first_ short; omega
      rw [← entries]
      exact List.prefix_iff_eq_take.mp grown.curve
    · have entries : mid.drawdownCurve.length = j + 1 := by simp at first_ short; omega
      rw [← entries]
      exact List.prefix_iff_eq_take.mp grown.drawdownCurve

/-- A backtest returns when there is a value for every bar but the last and the time
frame is at most a year. -/
theorem run_returns (positive : ∀ bar ∈ bars, 0 < bar.close) {values : List (Option ℚ)}
    (computed : indicator.compute ⟨bars⟩ = .ok values) (enough : bars.length ≤ values.length + 1)
    (counts : ∀ bar ∈ bars, ∃ minutes, timeframeToMinutes py bar.timeframe = .ok minutes ∧
      0 < minutes ∧ minutes ≤ 365 * 24 * 60) :
    ∃ result, runSmaCrossoverBacktest py bars indicator = .ok result := by
  cases bars with
  | nil => exact ⟨_, rfl⟩
  | cons first rest =>
    obtain ⟨st, run⟩ := walked_returns positive enough
    obtain ⟨minutes, parsed, least, most⟩ := counts first List.mem_cons_self
    have counted : periodsPerYear py first.timeframe = .ok ((365 * 24 * 60 : ℤ).tdiv minutes) := by
      unfold periodsPerYear
      exact Run.bind_ok.mpr ⟨minutes, parsed, Run.bind_ok.mpr ⟨(), raiseIf_ok.mpr least.ne', rfl⟩⟩
    have positive : 0 < (365 * 24 * 60 : ℤ).tdiv minutes := by
      rw [Int.tdiv_eq_ediv_of_nonneg (by norm_num)]
      exact Int.le_ediv_of_mul_le least (by omega)
    obtain ⟨annualized, annual⟩ := annualized_returns py (st.equity - 1) (rest.length + 1)
      fun _ => ⟨_, counted, positive.ne'⟩
    by_cases few : st.activeReturns.length < 2
    · exact ⟨_, run_ok.mpr ⟨values, st, annualized, 0, computed, run, annual, by rw [sharpeRatio, if_pos few]; rfl, rfl⟩⟩
    · obtain ⟨sharpe, ratio⟩ := (sharpe_ok_iff (not_lt.mp few)).mpr fun _ => ⟨_, counted, positive.le⟩
      exact ⟨_, run_ok.mpr ⟨values, st, annualized, sharpe, computed, run, annual, ratio, rfl⟩⟩

/-- **No look-ahead and correct drawdowns**, of every backtest that returns; it does
when there are values and the time frame is at most a year. -/
theorem smaCrossover_curves (py : Numerics) {indicator : IndicatorPlugin} (causal : OnPrefixes indicator)
    {bars : List Bar} (positive : ∀ bar ∈ bars, 0 < bar.close) :
    (∀ values, indicator.compute ⟨bars⟩ = .ok values → bars.length ≤ values.length + 1 →
      (∀ bar ∈ bars, ∃ minutes, timeframeToMinutes py bar.timeframe = .ok minutes ∧
        0 < minutes ∧ minutes ≤ 365 * 24 * 60) →
      ∃ result, runSmaCrossoverBacktest py bars indicator = .ok result) ∧
    ∀ result, runSmaCrossoverBacktest py bars indicator = .ok result →
      (∀ k, 1 ≤ k → ∃ earlier, runSmaCrossoverBacktest py (bars.take k) indicator = .ok earlier ∧
        earlier.equityCurve = result.equityCurve.take k ∧ earlier.drawdownCurve = result.drawdownCurve.take k) ∧
      result.equityCurve.length = bars.length ∧
      (∀ e ∈ result.equityCurve, 0 < e) ∧
      Drawdowns result.equityCurve result.drawdownCurve ∧
      (bars ≠ [] → IsGreatest {d | d ∈ result.drawdownCurve} result.report.maxDrawdown) := by
  refine ⟨fun values => run_returns positive, ?_⟩
  intro result returned
  refine ⟨fun k => run_take causal returned, ?_⟩
  cases bars with
  | nil =>
    cases returned
    exact ⟨rfl, by simp, ⟨rfl, by simp⟩, fun some_ => absurd rfl some_⟩
  | cons first rest =>
    obtain ⟨values, st, annualized, sharpe, computed, run, annual, ratio, rfl⟩ := run_ok.mp returned
    have tracks := tracks_walked positive run
    exact ⟨(length_walked run (by simp)).1, tracks.positive, tracks.drawdowns, fun _ => tracks.maxDrawdown⟩

end Backtest

/-- Rationals, with the root of a ratio of squares. -/
def rationals : Numerics where
  sqrt x := (Nat.sqrt x.num.toNat : ℚ) / (Nat.sqrt x.den : ℚ)
  sqrt_eq_zero := by
    intro x nonneg
    have below : Nat.sqrt x.den ≠ 0 := Nat.sqrt_eq_zero.not.mpr x.den_ne_zero
    have num := Rat.num_nonneg.mpr nonneg
    rw [div_eq_zero_iff, or_iff_left (Nat.cast_ne_zero.mpr below), Nat.cast_eq_zero, Nat.sqrt_eq_zero, Int.toNat_eq_zero,
      ← Rat.num_eq_zero]
    omega
  pow x y := x ^ y.num
  int text :=
    if text ≠ "" ∧ text.toList.all Char.isDigit then .ok (text.toList.foldl (fun n c => 10 * n + (c.toNat - 48 : ℤ)) 0)
    else .error (.valueError "invalid literal for int()")

/-- Three bars of a rising market. -/
def rising : List Bar :=
  [1, 2, 4].map fun close => { symbol := "BTCUSDT", timeframe := "1m", ts := 0, «open» := close, high := close,
                               low := close, close }

theorem smaCrossover_curves_rising :
    ∃ result earlier, runSmaCrossoverBacktest rationals rising (SMAIndicator.plugin ⟨2, "sma"⟩) = .ok result ∧
      runSmaCrossoverBacktest rationals (rising.take 2) (SMAIndicator.plugin ⟨2, "sma"⟩) = .ok earlier ∧
      earlier.equityCurve = result.equityCurve.take 2 ∧
      IsGreatest {d | d ∈ result.drawdownCurve} result.report.maxDrawdown := by
  have causal : OnPrefixes (SMAIndicator.plugin ⟨2, "sma"⟩) :=
    onPrefixes_of_noLookAhead (SMAIndicator.noLookAhead Bar.close (by decide))
  have positive : ∀ bar ∈ rising, 0 < bar.close := by decide +kernel
  obtain ⟨returns, curves⟩ := smaCrossover_curves rationals causal positive
  have parsed : timeframeToMinutes rationals "1m" = .ok 1 := by decide +kernel
  obtain ⟨result, returned⟩ := returns [none, some (3 / 2), some 3] (by decide +kernel) (by decide) fun bar member =>
    ⟨1, by
      have frame : bar.timeframe = "1m" := by
        simp only [rising, List.mem_map] at member
        obtain ⟨_, _, rfl⟩ := member
        rfl
      rw [frame, parsed], by norm_num, by norm_num⟩
  obtain ⟨prefixes, -, -, -, most⟩ := curves result returned
  obtain ⟨earlier, ran, same, -⟩ := prefixes 2 (by norm_num)
  exact ⟨result, earlier, returned, ran, same, most (by decide)⟩

end CryptoQuant.Simple
