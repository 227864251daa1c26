import CryptoQuant.Backtest.ReplayAgreement
import CryptoQuant.Execution.FlipFlow

/-!
# What the win rate counts

`evaluate_strategy_metrics` calls a fill a win when its price is no worse than the mark
price, so without slippage every fill is one and with slippage none is. The optimizer
calls a close a win when it realises a profit against the average entry price. Both
books are kept along the targets, and the rates agree exactly when every close is a
profit, or none, as the slippage has it.
-/

namespace CryptoQuant.Robustness
set_option autoImplicit false

open PaperExecutor Ledger

section Favourable

/-- The fill that the metrics count as a win. -/
def Favourable (fill : Fill) : Prop :=
  (0 < fill.qty ∧ fill.fillPrice ≤ fill.requestedPrice) ∨ (fill.qty < 0 ∧ fill.requestedPrice ≤ fill.fillPrice)

instance (fill : Fill) : Decidable (Favourable fill) := inferInstanceAs (Decidable (_ ∨ _))

theorem totals_realizedWins (fills : List Fill) : (totals fills).realizedWins = fills.countP fun fill => Favourable fill := by
  induction fills using List.reverseRecOn with
  | nil => rfl
  | append_singleton fills fill ih =>
    rw [totals_snoc, List.countP_append, List.countP_singleton, ← ih]
    show (if Favourable fill then (totals fills).realizedWins + 1 else (totals fills).realizedWins) = _
    by_cases wins : Favourable fill
    · rw [if_pos wins]
      simp [wins]
    · rw [if_neg wins]
      simp [wins]

/-- A fill at a mark price, with slippage at a rate. -/
structure MarkedUp (rate : ℚ) (fill : Fill) : Prop where
  qty : fill.qty ≠ 0
  mark : 0 < fill.requestedPrice
  price : fill.fillPrice = fill.requestedPrice * (1 + (if 0 < fill.qty then 1 else -1) * rate)

/-- Without slippage every fill is a win, with slippage none. -/
theorem MarkedUp.favourable_iff {rate : ℚ} {fill : Fill} (marked : MarkedUp rate fill) (nonneg : 0 ≤ rate) :
    Favourable fill ↔ rate = 0 := by
  have cost : 0 ≤ fill.requestedPrice * rate := mul_nonneg marked.mark.le nonneg
  have free : fill.requestedPrice * rate = 0 ↔ rate = 0 := by
    rw [mul_eq_zero, or_iff_right marked.mark.ne']
  unfold Favourable
  rw [marked.price, ← free]
  rcases lt_or_gt_of_ne marked.qty with sells | buys
  · have price : fill.requestedPrice * (1 + -1 * rate) = fill.requestedPrice - fill.requestedPrice * rate := by ring
    rw [if_neg (not_lt.mpr sells.le), price]
    constructor
    · rintro (⟨buys, -⟩ | ⟨-, better⟩)
      · exact absurd sells (not_lt.mpr buys.le)
      · linarith
    · intro none_
      exact .inr ⟨sells, by linarith⟩
  · have price : fill.requestedPrice * (1 + 1 * rate) = fill.requestedPrice + fill.requestedPrice * rate := by ring
    rw [if_pos buys, price]
    constructor
    · rintro (⟨-, better⟩ | ⟨sells, -⟩)
      · linarith
      · exact absurd sells (not_lt.mpr buys.le)
    · intro none_
      exact .inl ⟨buys, by linarith⟩

/-- The rate of wins that the metrics report. -/
theorem winRate_metricsOf {rate : ℚ} (nonneg : 0 ≤ rate) {fills : List Fill} (marked : ∀ fill ∈ fills, MarkedUp rate fill)
    (initialEquity finalPrice : ℚ) :
    (metricsOf fills initialEquity finalPrice).winRate = if fills ≠ [] ∧ rate = 0 then 1 else 0 := by
  show (if fills = [] then (0 : ℚ) else (totals fills).realizedWins / fills.length) = _
  rw [totals_realizedWins]
  by_cases none_ : fills = []
  · rw [if_pos none_, if_neg fun some_ => some_.1 none_]
  have length : (fills.length : ℚ) ≠ 0 := by simpa using none_
  rw [if_neg none_]
  by_cases free : rate = 0
  · have all : (fills.countP fun fill => Favourable fill) = fills.length :=
      List.countP_eq_length.mpr fun fill member => decide_eq_true ((marked fill member).favourable_iff nonneg |>.mpr free)
    rw [all, div_self length, if_pos ⟨none_, free⟩]
  · have never : (fills.countP fun fill => Favourable fill) = 0 :=
      List.countP_eq_zero.mpr fun fill member wins =>
        free ((marked fill member).favourable_iff nonneg |>.mp (of_decide_eq_true wins))
    rw [never, Nat.cast_zero, zero_div, if_neg fun both => free both.2]

end Favourable

section Books

/-- A position at its average entry price, and the profits of its closes. -/
structure Held where
  account : AvgCost ℚ
  closes : List ℚ

/-- One trade. A close is one that does not extend the position. -/
def Held.trade (held : Held) (qty price : ℚ) : Held where
  account := held.account.trade qty price
  closes := if held.account.Extends qty then held.closes else held.closes ++ [held.account.closePnl qty price]

/-- One target, reached at a close with slippage. -/
def Held.toward (rate : ℚ) (held : Held) (targetAndClose : ℚ × ℚ) : Held :=
  let qty := targetAndClose.1 - held.account.qty
  if qty = 0 then held
  else held.trade qty (targetAndClose.2 * (1 + (if 0 < qty then 1 else -1) * rate))

/-- The position along the targets. -/
def heldAlong (rate : ℚ) (targets : List (ℚ × ℚ)) : Held := targets.foldl (Held.toward rate) ⟨.flat, []⟩

theorem heldAlong_snoc (rate : ℚ) (targets : List (ℚ × ℚ)) (next : ℚ × ℚ) :
    heldAlong rate (targets ++ [next]) = (heldAlong rate targets).toward rate next := List.foldl_append

theorem Held.qty_toward (rate : ℚ) (held : Held) (targetAndClose : ℚ × ℚ) :
    (held.toward rate targetAndClose).account.qty = targetAndClose.1 := by
  unfold Held.toward
  simp only
  split
  · rename_i reached
    exact (sub_eq_zero.mp reached).symm
  · exact (AvgCost.qty_trade _ _ _).trans (add_sub_cancel _ _)

/-- A flip by a close and an opening, or at once. -/
theorem Held.trade_flip {held : Held} {target : ℚ} (flips : held.account.qty * target < 0) (price : ℚ) :
    (held.trade (-held.account.qty) price).trade target price = held.trade (target - held.account.qty) price := by
  obtain ⟨beyond, ends⟩ := AvgCost.not_extends_of_flip flips
  have flat : (held.account.trade (-held.account.qty) price).Extends target := by
    left
    rw [AvgCost.qty_trade, add_neg_cancel]
  unfold Held.trade
  simp only [if_pos flat, if_neg beyond, if_neg ends, AvgCost.closePnl_flip flips, AvgCost.trade_flip flips]

/-- A fill that extends the position closes nothing. -/
theorem applyFill_opens {ev : Evaluation} {qty : ℚ} (opens : ev.account.Extends qty) (price : ℚ) :
    (ev.position.applyFill qty price).2 = (0, false) := by
  unfold PositionState.applyFill
  simp only
  rw [if_pos (show ev.position.qty = 0 ∨ 0 < ev.position.qty * qty from opens)]

/-- Any other realises its profit. -/
theorem applyFill_closes {ev : Evaluation} {qty : ℚ} (closes : ¬ ev.account.Extends qty) (price : ℚ) :
    (ev.position.applyFill qty price).2 = (ev.account.closePnl qty price, true) := by
  unfold PositionState.applyFill
  simp only
  rw [if_neg (show ¬ (ev.position.qty = 0 ∨ 0 < ev.position.qty * qty) from closes)]
  split
  · rfl
  · split <;> rfl

theorem book_opens {ev : Evaluation} {fill : Fill} (opens : ev.account.Extends fill.qty) :
    (ev.book fill).closeTrades = ev.closeTrades ∧ (ev.book fill).winningCloses = ev.winningCloses := by
  have applied := applyFill_opens opens fill.fillPrice
  unfold Evaluation.book
  generalize ev.position.applyFill fill.qty fill.fillPrice = outcome at applied
  obtain ⟨position, closePnl, closed⟩ := outcome
  cases applied
  exact ⟨rfl, rfl⟩

theorem book_closes {ev : Evaluation} {fill : Fill} (closes : ¬ ev.account.Extends fill.qty) :
    (ev.book fill).closeTrades = ev.closeTrades + 1 ∧ (ev.book fill).winningCloses =
      if 0 < ev.account.closePnl fill.qty fill.fillPrice then ev.winningCloses + 1 else ev.winningCloses := by
  have applied := applyFill_closes closes fill.fillPrice
  unfold Evaluation.book
  generalize ev.position.applyFill fill.qty fill.fillPrice = outcome at applied
  obtain ⟨position, closePnl, closed⟩ := outcome
  cases applied
  exact ⟨rfl, rfl⟩

/-- What the optimizer's books say of its closes. -/
structure Books (held : Held) (ev : Evaluation) : Prop where
  account : ev.account = held.account
  closeTrades : ev.closeTrades = held.closes.length
  winningCloses : ev.winningCloses = held.closes.countP fun profit => 0 < profit

theorem Books.book {held : Held} {ev : Evaluation} (books : Books held ev) (fill : Fill) :
    Books (held.trade fill.qty fill.fillPrice) (ev.book fill) := by
  have account : (ev.book fill).account = held.account.trade fill.qty fill.fillPrice := by
    rw [Evaluation.account_book, books.account]
  by_cases grows : held.account.Extends fill.qty
  · obtain ⟨closes, wins⟩ := book_opens (books.account ▸ grows : ev.account.Extends fill.qty)
    refine ⟨account, ?_, ?_⟩
    · rw [closes, books.closeTrades, Held.trade, if_pos grows]
    · rw [wins, books.winningCloses, Held.trade, if_pos grows]
  · obtain ⟨closes, wins⟩ := book_closes (books.account ▸ grows : ¬ ev.account.Extends fill.qty)
    refine ⟨account, ?_, ?_⟩
    · rw [closes, books.closeTrades, Held.trade, if_neg grows, List.length_append, List.length_singleton]
    · rw [wins, books.winningCloses, books.account, Held.trade, if_neg grows, List.countP_append, List.countP_singleton]
      split
      · rename_i profit
        rw [if_pos (decide_eq_true profit)]
      · rename_i loss
        rw [if_neg (by simpa using loss), add_zero]

/-- No close is a profit: the rate is zero. -/
theorem Books.winRate_eq_zero_iff {held : Held} {ev : Evaluation} (books : Books held ev) :
    ev.winRate = 0 ↔ ∀ profit ∈ held.closes, profit ≤ 0 := by
  have wins : held.closes.countP (fun profit => 0 < profit) = 0 ↔ ∀ profit ∈ held.closes, profit ≤ 0 := by
    rw [List.countP_eq_zero]
    simp only [decide_eq_true_eq, not_lt]
  unfold Evaluation.winRate
  rw [books.closeTrades, books.winningCloses, ← wins]
  by_cases none_ : held.closes.length = 0
  · rw [if_pos none_, List.length_eq_zero_iff.mp none_]
    exact ⟨fun _ => rfl, fun _ => rfl⟩
  · rw [if_neg none_, div_eq_zero_iff, or_iff_left (Nat.cast_ne_zero.mpr none_), Nat.cast_eq_zero]

/-- Every close is a profit: the rate is one. -/
theorem Books.winRate_eq_one_iff {held : Held} {ev : Evaluation} (books : Books held ev) :
    ev.winRate = 1 ↔ held.closes ≠ [] ∧ ∀ profit ∈ held.closes, 0 < profit := by
  have wins : held.closes.countP (fun profit => 0 < profit) = held.closes.length ↔ ∀ profit ∈ held.closes, 0 < profit := by
    rw [List.countP_eq_length]
    simp only [decide_eq_true_eq]
  unfold Evaluation.winRate
  rw [books.closeTrades, books.winningCloses, ← wins, Ne, ← List.length_eq_zero_iff]
  by_cases none_ : held.closes.length = 0
  · rw [if_pos none_]
    exact ⟨fun zero => absurd zero zero_ne_one, fun some_ => absurd none_ some_.1⟩
  · rw [if_neg none_, div_eq_one_iff_eq (Nat.cast_ne_zero.mpr none_), Nat.cast_inj, and_iff_right none_]

/-- **The books of one event** follow its target. -/
theorem Books.legs {held : Held} {ev : Evaluation} (books : Books held ev) {ex : PaperExecutor} {symbol : String}
    (position : ex.position symbol = held.account.qty) (start : String) (target mark : ℚ) (ts : DateTime) :
    Books (held.toward ex.slippageRate (target, mark))
      (((ex.legs start symbol target mark ts).map ex.fillOf).foldl Evaluation.book ev) := by
  rcases legs_cases ex start symbol target mark ts with ⟨reached, legs⟩ | ⟨moves, -, legs⟩ | ⟨moves, flips, legs⟩
  · have still : target - held.account.qty = 0 := sub_eq_zero.mpr (position ▸ reached.symm)
    rw [legs, Held.toward]
    simp only
    rw [if_pos still]
    exact books
  · have away : target - held.account.qty ≠ 0 := sub_ne_zero.mpr (position ▸ moves.symm)
    have booked := books.book (ex.fillOf (ex.singleLeg start symbol target mark ts))
    rw [legs, Held.toward]
    simp only
    rw [if_neg away, ← position]
    exact booked
  · have away : target - held.account.qty ≠ 0 := sub_ne_zero.mpr (position ▸ moves.symm)
    have booked := (books.book (ex.fillOf (ex.closeLeg start symbol mark ts))).book
      (ex.fillOf (openLeg start symbol target mark ts))
    -- Both legs go the way of the whole trade, so they have its price.
    have sides : (0 < -ex.position symbol ↔ 0 < target - ex.position symbol) ∧ (0 < target ↔ 0 < target - ex.position symbol) := by
      rcases mul_neg_iff.mp flips with ⟨long, below⟩ | ⟨short, above⟩
      · exact ⟨iff_of_false (by linarith) (by linarith), iff_of_false (by linarith) (by linarith)⟩
      · exact ⟨iff_of_true (by linarith) (by linarith), iff_of_true (by linarith) (by linarith)⟩
    have closePrice : (ex.fillOf (ex.closeLeg start symbol mark ts)).fillPrice =
        mark * (1 + (if 0 < target - ex.position symbol then 1 else -1) * ex.slippageRate) := by
      rw [← if_congr sides.1 rfl rfl]
      rfl
    have openPrice : (ex.fillOf (openLeg start symbol target mark ts)).fillPrice =
        mark * (1 + (if 0 < target - ex.position symbol then 1 else -1) * ex.slippageRate) := by
      rw [← if_congr sides.2 rfl rfl]
      rfl
    rw [closePrice, openPrice] at booked
    rw [legs, Held.toward]
    simp only
    rw [if_neg away, ← Held.trade_flip (position ▸ flips), ← position]
    exact booked

end Books

section Replay

/-- Where executing toward a target returns, its fills are those of the legs, at a positive
price if there are any. -/
theorem executeToTarget_ok {ex ex' : PaperExecutor} {start symbol : String} {target mark : ℚ} {ts : DateTime} {fills : List Fill}
    (allows : ex.assertAllowsExecution = .ok ()) (fresh : ∀ suffix ∈ legSuffixes, ex.Fresh (start ++ suffix))
    (returned : ex.executeToTarget start symbol (ex.position symbol) target mark ts = (.ok fills, ex')) :
    fills = (ex.legs start symbol target mark ts).map ex.fillOf ∧ ex' = (ex.legs start symbol target mark ts).foldl executed ex ∧
      (ex.position symbol = target ∨ 0 < mark) := by
  by_cases positive : 0 < mark
  · cases returned.symm.trans (executeToTarget_fresh allows fresh symbol target positive ts)
    exact ⟨rfl, rfl, .inr positive⟩
  · have fails (o : MarketOrder) (same : o.markPrice = mark) : ∃ error, ex.executeMarket o = (.error error, ex) := by
      unfold executeMarket
      by_cases qty : o.qty = 0
      · exact ⟨_, if_pos qty⟩
      · rw [if_neg qty, if_pos (same ▸ not_lt.mp positive)]
        exact ⟨_, rfl⟩
    by_cases reached : ex.position symbol = target
    · unfold executeToTarget at returned
      rw [if_pos reached] at returned
      cases returned
      rw [legs_eq_nil.mpr reached]
      exact ⟨rfl, rfl, .inl reached⟩
    · exfalso
      unfold executeToTarget at returned
      rw [if_neg reached] at returned
      split at returned
      · obtain ⟨error, failed⟩ := fails (ex.singleLeg start symbol target mark ts) rfl
        unfold singleLeg at failed
        rw [failed] at returned
        cases returned
      · obtain ⟨error, failed⟩ := fails (ex.closeLeg start symbol mark ts) rfl
        unfold closeLeg at failed
        simp only at returned
        rw [failed] at returned
        cases returned

variable (symbol : String) (targetQtyFn : MarketEvent → ℚ) (rate : ℚ)

/-- What holds of the replay after some numbered events. -/
structure Followed (start : Evaluation) (done : List (MarketEvent × ℕ)) (st : List Fill × PaperExecutor) : Prop where
  books : Books (heldAlong rate (done.map fun item => (targetQtyFn item.1, item.1.close))) (st.1.foldl Evaluation.book start)
  position : st.2.position symbol =
    (heldAlong rate (done.map fun item => (targetQtyFn item.1, item.1.close))).account.qty
  unguarded : st.2.killSwitch = none
  slippage : st.2.slippageRate = rate
  fresh : ∀ idx, done.length < idx → ∀ suffix ∈ legSuffixes, st.2.Fresh ("robust-" ++ toString idx ++ suffix)
  marked : ∀ fill ∈ st.1, MarkedUp rate fill
  quiet : st.1 = [] ↔ ∀ item ∈ done, targetQtyFn item.1 = 0

variable {symbol targetQtyFn rate} {start : Evaluation} {done : List (MarketEvent × ℕ)} {st st' : List Fill × PaperExecutor}

/-- **One event** of the replay. -/
theorem Followed.step (followed : Followed symbol targetQtyFn rate start done st) (empty : start.account = .flat) {event : MarketEvent}
    (stepped : replayStep symbol targetQtyFn st (event, done.length + 1) = .ok st') :
    Followed symbol targetQtyFn rate start (done ++ [(event, done.length + 1)]) st' := by
  obtain ⟨fills, ex⟩ := st
  have allows : ex.assertAllowsExecution = .ok () := by
    unfold assertAllowsExecution
    rw [followed.unguarded]
  unfold replayStep at stepped
  simp only at stepped
  split at stepped
  · cases stepped
  rename_i legs_ after executes
  cases stepped
  obtain ⟨rfl, rfl, positive⟩ := executeToTarget_ok allows (followed.fresh (done.length + 1) (Nat.lt_succ_self _)) executes
  have along : heldAlong rate ((done ++ [(event, done.length + 1)]).map fun item => (targetQtyFn item.1, item.1.close)) =
      (heldAlong rate (done.map fun item => (targetQtyFn item.1, item.1.close))).toward rate (targetQtyFn event, event.close) := by
    rw [List.map_append, ← heldAlong_snoc]
    rfl
  have leg {o : MarketOrder} (member : o ∈ ex.legs ("robust-" ++ toString (done.length + 1)) symbol (targetQtyFn event) event.close event.ts) :=
    mem_legs member
  constructor
  case books =>
    rw [along, List.foldl_append, ← followed.slippage]
    exact (followed.slippage ▸ followed.books).legs (followed.slippage ▸ followed.position) _ _ _ _
  case position =>
    dsimp only
    rw [along, Held.qty_toward, foldl_executed_position fun o member => (leg member).2.1, sum_legs]
  case unguarded => rw [foldl_executed_killSwitch, followed.unguarded]
  case slippage => rw [foldl_executed_slippageRate, followed.slippage]
  case fresh =>
    intro idx later suffix among
    rw [List.length_append, List.length_singleton] at later
    apply (followed.fresh idx (by omega) suffix among).foldl_executed
    intro o member same
    obtain ⟨⟨suffix', among', named⟩, -⟩ := leg member
    have equal := numbered_inj among among' (same.trans named)
    omega
  case marked =>
    intro fill member
    rcases List.mem_append.mp member with old | new
    · exact followed.marked fill old
    · obtain ⟨o, among, rfl⟩ := List.mem_map.mp new
      obtain ⟨-, -, qty, mark⟩ := leg among
      have moves : ¬ ex.position symbol = targetQtyFn event := fun reached => by
        rw [legs_eq_nil.mpr reached] at among
        exact absurd among List.not_mem_nil
      have price : 0 < o.markPrice := mark ▸ positive.resolve_left moves
      exact ⟨qty, price, by rw [← followed.slippage]; rfl⟩
  case quiet =>
    rw [List.append_eq_nil_iff, List.map_eq_nil_iff, legs_eq_nil, followed.quiet]
    simp only [List.mem_append, List.mem_singleton, or_imp, forall_and, forall_eq]
    apply and_congr_right
    intro never
    have flat : ex.position symbol = 0 := by
      have none_ : fills = [] := followed.quiet.mpr never
      have account := followed.books.account
      simp only [none_, List.foldl_nil, empty] at account
      rw [followed.position, ← account]
      rfl
    rw [flat]
    exact eq_comm

/-- **The whole replay** of a new executor. -/
theorem followed_replay {executor : PaperExecutor} {feeBps slippageBps : ℚ} (built : new OMS.init feeBps slippageBps = .ok executor)
    {events : List MarketEvent} {fills : List Fill} {ex : PaperExecutor}
    (replayed : (events.zipIdx 1).foldlM (replayStep symbol targetQtyFn) ([], executor) = .ok (fills, ex)) (other : PaperExecutor) :
    Followed symbol targetQtyFn (slippageBps / 10000) (.start other) (events.zipIdx 1) (fills, ex) ∧ 0 ≤ slippageBps := by
  have fresh := fresh_new built
  unfold new at built
  split at built
  · cases built
  rename_i costs
  cases built
  refine ⟨?_, not_lt.mp (not_or.mp costs).2⟩
  refine Run.invariant (P := Followed symbol targetQtyFn (slippageBps / 10000) (.start other)) ?_ ?_ (List.append_nil _).symm replayed
  · exact {
      books := ⟨rfl, rfl, rfl⟩
      position := rfl
      unguarded := rfl
      slippage := rfl
      fresh := fun idx _ suffix _ => fresh _
      marked := fun fill member => absurd member List.not_mem_nil
      quiet := by simp }
  · rintro done ⟨event, idx⟩ rest t u split followed stepped
    obtain rfl : idx = done.length + 1 := Run.number_of_split split
    exact followed.step rfl stepped

end Replay

section WinRate

/-- The profits of the closes along the targets. -/
def closesAlong (slippageBps : ℚ) (targets : List (ℚ × ℚ)) : List ℚ := (heldAlong (slippageBps / 10000) targets).closes

/-- There is a close, and each is a profit. -/
def AllProfit (closes : List ℚ) : Prop := closes ≠ [] ∧ ∀ profit ∈ closes, 0 < profit

instance (closes : List ℚ) : Decidable (AllProfit closes) := inferInstanceAs (Decidable (_ ∧ _))

/-- The condition on the targets and closes under which wins are profitable closes: without
slippage every close is a profit, and there is one unless there is no trade at all; with
slippage no close is a profit. -/
def WinsAreCloses (slippageBps : ℚ) (targets : List (ℚ × ℚ)) : Prop :=
  if slippageBps = 0 then (∀ target ∈ targets, target.1 = 0) ∨ AllProfit (closesAlong slippageBps targets)
  else ∀ profit ∈ closesAlong slippageBps targets, profit ≤ 0

instance (slippageBps : ℚ) (targets : List (ℚ × ℚ)) : Decidable (WinsAreCloses slippageBps targets) :=
  inferInstanceAs (Decidable (if slippageBps = 0 then (∀ target ∈ targets, target.1 = 0) ∨ AllProfit (closesAlong slippageBps targets)
    else ∀ profit ∈ closesAlong slippageBps targets, profit ≤ 0))

variable {events : List MarketEvent} {symbol : String} {targetQtyFn : MarketEvent → ℚ}
  {initialEquity feeBps slippageBps : ℚ} {metrics : StrategyMetrics}

/-- **The win rate** of the metrics is the optimizer's rate of profitable closes on the same
fills exactly under the condition. -/
theorem win_rate_iff (returned : evaluateStrategyMetrics events symbol targetQtyFn initialEquity feeBps slippageBps = .ok metrics) :
    ∃ fills, replayedFills events symbol targetQtyFn feeBps slippageBps = .ok fills ∧ ∀ executor,
      (metrics.winRate = (fills.foldl Evaluation.book (.start executor)).winRate ↔
        WinsAreCloses slippageBps ((sortedByTs (events.filter fun event => event.symbol = symbol)).map
          fun event => (targetQtyFn event, event.close))) := by
  unfold evaluateStrategyMetrics at returned
  simp only [Run.bind_ok] at returned
  obtain ⟨-, -, sorted, ensured, fills, made, last, -, same⟩ := returned
  cases same
  have replayedFills_ : replayedFills events symbol targetQtyFn feeBps slippageBps = .ok fills :=
    Run.bind_ok.mpr ⟨sorted, ensured, made⟩
  obtain ⟨executor, built, made⟩ := Run.bind_ok.mp made
  obtain ⟨⟨fills_, ex⟩, replayed, same⟩ := Run.bind_ok.mp made
  cases same
  obtain ⟨-, sorted_⟩ := ensureSorted_ok_iff.mp ensured
  refine ⟨fills, replayedFills_, ?_⟩
  intro other
  obtain ⟨followed, nonneg⟩ := followed_replay built replayed other
  have targets : ((sorted.zipIdx 1).map fun item => (targetQtyFn item.1, item.1.close)) =
      sorted.map fun event => (targetQtyFn event, event.close) := by
    conv_rhs => rw [← List.zipIdx_map_fst 1 sorted, List.map_map]
    rfl
  have books := followed.books
  have quiet : fills = [] ↔ ∀ target ∈ sorted.map fun event => (targetQtyFn event, event.close), target.1 = 0 := by
    rw [followed.quiet, ← targets, List.forall_mem_map]
  rw [targets] at books
  rw [← sorted_]
  show (metricsOf fills initialEquity last.close).winRate = _ ↔ _
  rw [winRate_metricsOf (by positivity) followed.marked]
  unfold WinsAreCloses AllProfit closesAlong
  by_cases free : slippageBps = 0
  · rw [if_pos free, ← quiet, ← books.winRate_eq_one_iff]
    by_cases none_ : fills = []
    · rw [if_neg fun both => both.1 none_, none_]
      exact ⟨fun _ => .inl rfl, fun _ => rfl⟩
    · rw [if_pos ⟨none_, by rw [free, zero_div]⟩, or_iff_right none_]
      exact eq_comm
  · have rate : slippageBps / 10000 ≠ 0 := div_ne_zero free (by norm_num)
    rw [if_neg free, if_neg fun both => rate both.2, ← books.winRate_eq_zero_iff]
    exact eq_comm

/-- Long at a close of at least 100, short below. -/
def trendFollowTarget (event : MarketEvent) : ℚ := if 100 ≤ event.close then 1 else -1

/-- Closes that turn against every position. -/
def turningCloses : List MarketEvent :=
  [{ symbol := "BTCUSDT", timeframe := .m1, close := 99, ts := 0 },
    { symbol := "BTCUSDT", timeframe := .m1, close := 201 / 2, ts := 60000000 },
    { symbol := "BTCUSDT", timeframe := .m1, close := 101, ts := 120000000 },
    { symbol := "BTCUSDT", timeframe := .m1, close := 98, ts := 180000000 },
    { symbol := "BTCUSDT", timeframe := .m1, close := 102, ts := 240000000 }]

/-- All three closes lose, and every fill is a win. -/
theorem win_rate_counts_losses : ∃ metrics fills executor,
    evaluateStrategyMetrics turningCloses "BTCUSDT" trendFollowTarget 10000 0 0 = .ok metrics ∧
    replayedFills turningCloses "BTCUSDT" trendFollowTarget 0 0 = .ok fills ∧ new OMS.init 0 0 = .ok executor ∧
    metrics.winRate = 1 ∧ (fills.foldl Evaluation.book (.start executor)).closeTrades = 3 ∧
    (fills.foldl Evaluation.book (.start executor)).winRate = 0 := by
  obtain ⟨metrics, evaluated, wins⟩ := Run.endsIn_iff.mp (show Run.endsIn
    (evaluateStrategyMetrics turningCloses "BTCUSDT" trendFollowTarget 10000 0 0)
    (fun metrics => decide (metrics.winRate = 1)) = true by decide +kernel)
  obtain ⟨ev, booked, losses⟩ := Run.endsIn_iff.mp (show Run.endsIn
    (new OMS.init 0 0 >>= fun executor => replayedFills turningCloses "BTCUSDT" trendFollowTarget 0 0 >>= fun fills =>
      .ok (fills.foldl Evaluation.book (.start executor)))
    (fun ev => decide (ev.closeTrades = 3 ∧ ev.winRate = 0)) = true by decide +kernel)
  obtain ⟨executor, built, replays⟩ := Run.bind_ok.mp booked
  obtain ⟨fills, replayed, same⟩ := Run.bind_ok.mp replays
  cases same
  exact ⟨metrics, fills, executor, evaluated, replayed, built, of_decide_eq_true wins, of_decide_eq_true losses⟩

/-- The rates differ there, whatever executor the books are opened for. -/
theorem win_rate_iff_turning : ∃ metrics fills,
    evaluateStrategyMetrics turningCloses "BTCUSDT" trendFollowTarget 10000 0 0 = .ok metrics ∧
    replayedFills turningCloses "BTCUSDT" trendFollowTarget 0 0 = .ok fills ∧
    ∀ executor, metrics.winRate ≠ (fills.foldl Evaluation.book (.start executor)).winRate := by
  obtain ⟨metrics, evaluated, -⟩ := Run.endsIn_iff.mp (show Run.endsIn
    (evaluateStrategyMetrics turningCloses "BTCUSDT" trendFollowTarget 10000 0 0) (fun _ => true) = true by decide +kernel)
  obtain ⟨fills, replayed, agrees⟩ := win_rate_iff evaluated
  refine ⟨metrics, fills, evaluated, replayed, ?_⟩
  intro executor same
  exact absurd ((agrees executor).mp same) (by decide +kernel)

end WinRate

end CryptoQuant.Robustness
