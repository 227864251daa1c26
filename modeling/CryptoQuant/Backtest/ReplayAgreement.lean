import CryptoQuant.Backtest.Replay
import CryptoQuant.Strategy.OptimizerPnl

/-!
# Two replays trade alike

`evaluate_strategy_metrics` sorts the events of its symbol and replays all of
them; `EventReplayer.run` sorts all events, numbers them, and skips the other
symbols and the events whose target is reached. A stable sort keeps the order of
the events of one symbol, and the ids of both loops are fresh at every event, so
the executors move together and the fills differ in their ids alone.
-/

namespace CryptoQuant
set_option autoImplicit false

/-- Inserting into a list in time order, seen by a selection. -/
theorem filter_orderedInsert (p : MarketEvent → Bool) (a : MarketEvent) {events : List MarketEvent}
    (sorted : events.Pairwise fun a b => a.ts ≤ b.ts) :
    (events.orderedInsert (fun a b => a.ts ≤ b.ts) a).filter p =
      if p a then (events.filter p).orderedInsert (fun a b => a.ts ≤ b.ts) a else events.filter p := by
  induction events with
  | nil => simp [List.filter_cons]
  | cons b events ih =>
    obtain ⟨first, sorted⟩ := List.pairwise_cons.mp sorted
    rw [List.orderedInsert_cons]
    by_cases before : a.ts ≤ b.ts
    · -- every event that is kept comes after `a`
      have later : ∀ c ∈ (b :: events).filter p, a.ts ≤ c.ts := by
        intro c member
        rcases List.mem_cons.mp (List.mem_filter.mp member).1 with rfl | within
        · exact before
        · exact before.trans (first c within)
      rw [if_pos before, List.filter_cons]
      generalize (b :: events).filter p = kept at later
      cases kept with
      | nil => rw [List.orderedInsert_nil]
      | cons c kept => rw [List.orderedInsert_cons, if_pos (later c List.mem_cons_self)]
    · rw [if_neg before, List.filter_cons, List.filter_cons, ih sorted]
      by_cases here : p b
      · rw [if_pos here, if_pos here, List.orderedInsert_cons, if_neg before]
        split <;> rfl
      · rw [if_neg here, if_neg here]

/-- Sorting by time and selecting commute: the sort is stable. -/
theorem filter_sortedByTs (p : MarketEvent → Bool) (events : List MarketEvent) :
    (sortedByTs events).filter p = sortedByTs (events.filter p) := by
  unfold sortedByTs
  induction events with
  | nil => rfl
  | cons a events ih =>
    rw [List.insertionSort_cons, filter_orderedInsert p a (List.pairwise_insertionSort _ events), ih, List.filter_cons]
    split
    · rw [List.insertionSort_cons]
    · rfl

/-- Two fills of the same trade, under different order ids. -/
structure Fill.SameTrade (f g : Fill) : Prop where
  symbol : f.symbol = g.symbol
  qty : f.qty = g.qty
  requestedPrice : f.requestedPrice = g.requestedPrice
  fillPrice : f.fillPrice = g.fillPrice
  slippageCost : f.slippageCost = g.slippageCost
  fee : f.fee = g.fee
  notional : f.notional = g.notional
  ts : f.ts = g.ts

/-- What does not read the id is the same list of values for the same trades. -/
theorem Fill.map_eq_of_sameTrade {α : Type} (value : Fill → α) {fs gs : List Fill}
    (reads : ∀ f g : Fill, f.SameTrade g → value f = value g) (same : List.Forall₂ Fill.SameTrade fs gs) :
    fs.map value = gs.map value := by
  induction same with
  | nil => rfl
  | cons first _ ih => rw [List.map_cons, List.map_cons, reads _ _ first, ih]

namespace PaperExecutor

@[simp] theorem executed_feeRate (ex : PaperExecutor) (o : MarketOrder) : (ex.executed o).feeRate = ex.feeRate := rfl

theorem foldl_executed_feeRate (ex : PaperExecutor) (orders : List MarketOrder) :
    (orders.foldl executed ex).feeRate = ex.feeRate :=
  Run.foldl_frame PaperExecutor.feeRate executed_feeRate ex orders

theorem foldl_executed_allows (ex : PaperExecutor) (orders : List MarketOrder) :
    (orders.foldl executed ex).assertAllowsExecution = ex.assertAllowsExecution :=
  Run.foldl_frame PaperExecutor.assertAllowsExecution (fun _ _ => executed_allows) ex orders

/-- Two executors that trade one symbol alike: the same costs, the same position,
and no kill switch in the way. -/
structure Alongside (symbol : String) (a b : PaperExecutor) : Prop where
  feeRate : a.feeRate = b.feeRate
  slippageRate : a.slippageRate = b.slippageRate
  position : a.position symbol = b.position symbol
  allowsLeft : a.assertAllowsExecution = .ok ()
  allowsRight : b.assertAllowsExecution = .ok ()

section Alongside
variable {a b : PaperExecutor} {symbol : String}

/-- An order is filled alike, whatever its id is and whether or not it may only reduce. -/
theorem Alongside.fillOf (along : Alongside symbol a b) {o p : MarketOrder} (symbols : o.symbol = p.symbol)
    (qty : o.qty = p.qty) (mark : o.markPrice = p.markPrice) (ts : o.ts = p.ts) :
    (a.fillOf o).SameTrade (b.fillOf p) := by
  have price : a.fillPrice o.qty o.markPrice = b.fillPrice p.qty p.markPrice := by
    unfold PaperExecutor.fillPrice
    rw [qty, mark, along.slippageRate]
  constructor <;> simp only [PaperExecutor.fillOf, price, symbols, ts, along.feeRate] <;> simp only [qty, mark]

/-- The legs toward one target are filled alike, under any two prefixes. -/
theorem Alongside.legs (along : Alongside symbol a b) (start start' : String) (target mark : ℚ) (ts : DateTime) :
    List.Forall₂ Fill.SameTrade ((a.legs start symbol target mark ts).map a.fillOf)
      ((b.legs start' symbol target mark ts).map b.fillOf) := by
  unfold PaperExecutor.legs
  simp only [along.position]
  split
  · exact List.Forall₂.nil
  · split
    · exact List.Forall₂.cons (along.fillOf rfl rfl rfl rfl) List.Forall₂.nil
    · exact List.Forall₂.cons (along.fillOf rfl rfl rfl rfl)
        (List.Forall₂.cons (along.fillOf rfl rfl rfl rfl) List.Forall₂.nil)

/-- After the legs both stand at the target. -/
theorem Alongside.executed (along : Alongside symbol a b) (start start' : String) (target mark : ℚ) (ts : DateTime) :
    Alongside symbol ((a.legs start symbol target mark ts).foldl executed a)
      ((b.legs start' symbol target mark ts).foldl executed b) where
  feeRate := by rw [foldl_executed_feeRate, foldl_executed_feeRate, along.feeRate]
  slippageRate := by rw [foldl_executed_slippageRate, foldl_executed_slippageRate, along.slippageRate]
  position := by
    rw [foldl_executed_position (fun o member => (mem_legs member).2.1),
      foldl_executed_position (fun o member => (mem_legs member).2.1), sum_legs, sum_legs]
  allowsLeft := by rw [foldl_executed_allows, along.allowsLeft]
  allowsRight := by rw [foldl_executed_allows, along.allowsRight]

end Alongside

/-- No order was submitted under the ids that a loop takes for some of its numbers. -/
def FreshFor (ex : PaperExecutor) (start : String) (numbers : List ℕ) : Prop :=
  ∀ idx ∈ numbers, ∀ suffix ∈ legSuffixes, ex.Fresh (start ++ toString idx ++ suffix)

/-- The legs of one number use up no id of the later ones. -/
theorem FreshFor.executed {ex : PaperExecutor} {start : String} {idx : ℕ} {numbers : List ℕ}
    (fresh : ex.FreshFor start (idx :: numbers)) (apart : idx ∉ numbers) (symbol : String) (target mark : ℚ)
    (ts : DateTime) :
    ((ex.legs (start ++ toString idx) symbol target mark ts).foldl PaperExecutor.executed ex).FreshFor start
      numbers := by
  intro later member suffix among
  apply (fresh later (List.mem_cons_of_mem _ member) suffix among).foldl_executed
  intro o leg same
  obtain ⟨⟨suffix', among', named⟩, -⟩ := mem_legs leg
  have equal : later = idx := numbered_inj among among' (same.trans named)
  exact apart (equal ▸ member)

end PaperExecutor

namespace EventReplayer
open PaperExecutor (Alongside FreshFor)

variable {symbol : String} {targetQtyFn : MarketEvent → ℚ} {orderIdPrefix : String}

/-- The events of other symbols are skipped. -/
theorem replayLoop_filter (items : Numbered) (fills : List Fill) (ex : PaperExecutor) :
    replayLoop (some symbol) targetQtyFn orderIdPrefix items fills ex =
      replayLoop (some symbol) targetQtyFn orderIdPrefix
        (items.filter fun item => item.1.symbol = symbol) fills ex := by
  induction items generalizing fills ex with
  | nil => rfl
  | cons item items ih =>
    obtain ⟨event, idx⟩ := item
    by_cases own : event.symbol = symbol
    · rw [List.filter_cons_of_pos (by simpa using own)]
      unfold replayLoop
      split
      · exact ih _ _
      · split
        · exact ih _ _
        · split
          · rfl
          · exact ih _ _
    · have skipped : replays (some symbol) event = false := decide_eq_false own
      rw [List.filter_cons_of_neg (by simpa using own), replayLoop, if_pos skipped]
      exact ih _ _

/-- Two loops at the same place: their executors, and the fills so far. -/
structure InStep (symbol : String) (robust replay : List Fill × PaperExecutor) : Prop where
  executors : Alongside symbol robust.2 replay.2
  fills : List.Forall₂ Fill.SameTrade robust.1 replay.1
  position : replay.2.position symbol = (replay.1.map Fill.qty).sum

variable (targetQtyFn) in
/-- **One event** takes both loops to the same place, and uses up no id of the
later numbers of either. -/
theorem InStep.event {robust replay : List Fill × PaperExecutor} (inStep : InStep symbol robust replay)
    {event : MarketEvent} (own : event.symbol = symbol) (positive : 0 < event.close) {i j : ℕ} {is js : List ℕ}
    (fresh : robust.2.FreshFor "robust-" (i :: is)) (apart : i ∉ is)
    (fresh' : replay.2.FreshFor (orderIdPrefix ++ "-") (j :: js)) (apart' : j ∉ js) :
    ∃ robust' replay' : List Fill × PaperExecutor,
      Robustness.replayStep symbol targetQtyFn robust (event, i) = .ok robust' ∧
      (∀ later, replayLoop (some symbol) targetQtyFn orderIdPrefix ((event, j) :: later) replay.1 replay.2 =
        replayLoop (some symbol) targetQtyFn orderIdPrefix later replay'.1 replay'.2) ∧
      InStep symbol robust' replay' ∧ robust'.2.FreshFor "robust-" is ∧ replay'.2.FreshFor (orderIdPrefix ++ "-") js := by
  obtain ⟨fills, a⟩ := robust
  obtain ⟨fills', b⟩ := replay
  obtain ⟨along, traded, position⟩ := inStep
  simp only at along traded position fresh fresh' ⊢
  let orders := a.legs ("robust-" ++ toString i) symbol (targetQtyFn event) event.close event.ts
  let orders' := b.legs (orderIdPrefix ++ "-" ++ toString j) symbol (targetQtyFn event) event.close event.ts
  have executes := PaperExecutor.executeToTarget_fresh along.allowsLeft (fresh i List.mem_cons_self) symbol
    (targetQtyFn event) positive event.ts
  have executes' := PaperExecutor.executeToTarget_fresh along.allowsRight (fresh' j List.mem_cons_self) symbol
    (targetQtyFn event) positive event.ts
  refine ⟨(fills ++ orders.map a.fillOf, orders.foldl PaperExecutor.executed a),
    (fills' ++ orders'.map b.fillOf, orders'.foldl PaperExecutor.executed b), ?_, ?_,
    ⟨along.executed _ _ _ _ _, List.rel_append traded (along.legs _ _ _ _ _), ?_⟩,
    fresh.executed apart _ _ _ _, fresh'.executed apart' _ _ _ _⟩
  · unfold Robustness.replayStep
    simp only
    rw [show s!"robust-{i}" = "robust-" ++ toString i from rfl, executes]
  · intro later
    rw [replayLoop, if_neg (by simp [replays, own]), own]
    by_cases reached : b.position symbol = targetQtyFn event
    · -- the replayer skips the event, and there would have been no leg
      have idle : orders' = [] := PaperExecutor.legs_eq_nil.mpr reached
      rw [if_pos reached, idle, List.map_nil, List.append_nil, List.foldl_nil]
    · rw [if_neg reached, show s!"{orderIdPrefix}-{j}" = orderIdPrefix ++ "-" ++ toString j from rfl, executes']
  · have one : ∀ o ∈ orders', o.symbol = symbol := fun o member => (PaperExecutor.mem_legs member).2.1
    have quantities : (orders'.map b.fillOf).map Fill.qty = orders'.map MarketOrder.qty := by
      rw [List.map_map]
      rfl
    show (orders'.foldl PaperExecutor.executed b).position symbol = _
    rw [PaperExecutor.foldl_executed_position one, List.map_append, List.sum_append, quantities, ← position]

/-- **Both loops** over the same events, whatever their numbers. -/
theorem InStep.events {items items' : Numbered} {robust replay : List Fill × PaperExecutor}
    (inStep : InStep symbol robust replay) (same : items.map Prod.fst = items'.map Prod.fst)
    (own : ∀ item ∈ items, item.1.symbol = symbol) (positive : ∀ item ∈ items, 0 < item.1.close)
    (apart : (items.map Prod.snd).Nodup) (apart' : (items'.map Prod.snd).Nodup)
    (fresh : robust.2.FreshFor "robust-" (items.map Prod.snd))
    (fresh' : replay.2.FreshFor (orderIdPrefix ++ "-") (items'.map Prod.snd)) :
    ∃ robust' replay' : List Fill × PaperExecutor,
      items.foldlM (Robustness.replayStep symbol targetQtyFn) robust = .ok robust' ∧
      replayLoop (some symbol) targetQtyFn orderIdPrefix items' replay.1 replay.2 = (.ok ⟨replay'.1⟩, replay'.2) ∧
      InStep symbol robust' replay' := by
  induction items generalizing items' robust replay with
  | nil =>
    obtain rfl : items' = [] := List.map_eq_nil_iff.mp same.symm
    exact ⟨robust, replay, rfl, rfl, inStep⟩
  | cons item items ih =>
    cases items' with
    | nil => cases same
    | cons item' items' =>
      obtain ⟨event, i⟩ := item
      obtain ⟨event', j⟩ := item'
      obtain ⟨rfl, tails⟩ : event = event' ∧ items.map Prod.fst = items'.map Prod.fst := List.cons.inj same
      obtain ⟨new, apart⟩ := List.nodup_cons.mp apart
      obtain ⟨new', apart'⟩ := List.nodup_cons.mp apart'
      obtain ⟨robust₁, replay₁, stepped, looped, inStep, fresh, fresh'⟩ :=
        inStep.event targetQtyFn (own _ List.mem_cons_self) (positive _ List.mem_cons_self) fresh new
          fresh' new'
      obtain ⟨robust', replay', run, run', after⟩ := ih inStep tails
        (fun item later => own item (List.mem_cons_of_mem _ later))
        (fun item later => positive item (List.mem_cons_of_mem _ later)) apart apart' fresh fresh'
      refine ⟨robust', replay', Run.foldlM_cons_ok.mpr ⟨robust₁, stepped, run⟩, ?_, after⟩
      rw [looped, run']

end EventReplayer

namespace Robustness
open PaperExecutor (FreshFor)

variable {events : List MarketEvent} {symbol : String} {initialEquity feeBps slippageBps : ℚ}

theorem ensureSorted_ok (some_ : ∃ event ∈ events, event.symbol = symbol) :
    ensureSorted events symbol = .ok ((sortedByTs events).filter fun event => event.symbol = symbol) := by
  have nonempty : (events.filter fun event => event.symbol = symbol) ≠ [] := by
    obtain ⟨event, member, of⟩ := some_
    exact List.ne_nil_of_mem (List.mem_filter.mpr ⟨member, decide_eq_true of⟩)
  rw [filter_sortedByTs]
  exact ensureSorted_ok_iff.mpr ⟨nonempty, rfl⟩

/-- The metrics are an account of the fills. -/
theorem evaluateStrategyMetrics_of_fills {targetQtyFn : MarketEvent → ℚ} {fills : List Fill} (initial : 0 < initialEquity)
    (replayed : replayedFills events symbol targetQtyFn feeBps slippageBps = .ok fills) :
    ∃ last, ((sortedByTs events).filter fun event => event.symbol = symbol).getLast? = some last ∧
      evaluateStrategyMetrics events symbol targetQtyFn initialEquity feeBps slippageBps =
        .ok (metricsOf fills initialEquity last.close) := by
  unfold replayedFills at replayed
  obtain ⟨sorted, ensured, replayed⟩ := Run.bind_ok.mp replayed
  have checked : raiseIf (initialEquity ≤ 0) (.valueError "initial_equity must be > 0") = .ok () :=
    raiseIf_ok.mpr (not_le.mpr initial)
  have events_ : sorted = (sortedByTs events).filter (fun event => event.symbol = symbol) ∧ sorted ≠ [] := by
    obtain ⟨nonempty, rfl⟩ := ensureSorted_ok_iff.mp ensured
    refine ⟨(filter_sortedByTs _ _).symm, fun none_ => nonempty ?_⟩
    exact (none_ ▸ sortedByTs_perm (events.filter fun event => event.symbol = symbol)).nil_eq.symm
  obtain ⟨last, final⟩ : ∃ last, sorted.getLast? = some last := ⟨_, List.getLast?_eq_some_getLast events_.2⟩
  have item : lastItem sorted = .ok last := by
    unfold lastItem
    rw [final]
  refine ⟨last, events_.1 ▸ final, ?_⟩
  unfold evaluateStrategyMetrics
  simp only [checked, ensured, replayed, item, bind, Except.bind]

/-- Numbering the events of a symbol, or taking them from all the numbered events: the
events are the same. -/
theorem numbered_symbol (events : List MarketEvent) (symbol : String) :
    (((sortedByTs events).filter fun event => event.symbol = symbol).zipIdx 1).map Prod.fst =
      ((numbered events).filter fun item => item.1.symbol = symbol).map Prod.fst := by
  have ordered : (numbered events).map Prod.fst = sortedByTs events := List.zipIdx_map_fst _ _
  show _ = ((numbered events).filter ((fun event => decide (event.symbol = symbol)) ∘ Prod.fst)).map Prod.fst
  rw [List.zipIdx_map_fst, ← List.filter_map, ordered]

theorem nodup_numbers (events : List MarketEvent) : ((events.zipIdx 1).map Prod.snd).Nodup := by
  rw [List.zipIdx_map_snd]
  exact List.nodup_range'

/-- The fills behind the metrics are those of the event replayer. -/
theorem replayedFills_eq_replay (targetQtyFn : MarketEvent → ℚ) (orderIdPrefix : String)
    (some_ : ∃ event ∈ events, event.symbol = symbol)
    (positive : ∀ event ∈ events, event.symbol = symbol → 0 < event.close)
    (fee : 0 ≤ feeBps) (slippage : 0 ≤ slippageBps) :
    ∃ fills executor result r,
      replayedFills events symbol targetQtyFn feeBps slippageBps = .ok fills ∧
      PaperExecutor.new OMS.init feeBps slippageBps = .ok executor ∧
      (⟨executor, some symbol⟩ : EventReplayer).run events targetQtyFn orderIdPrefix = (.ok result, r) ∧
      List.Forall₂ Fill.SameTrade fills result.fills ∧
      r.executor.position symbol = (result.fills.map Fill.qty).sum := by
  obtain ⟨executor, built⟩ := PaperExecutor.exists_new fee slippage OMS.init none
  have fresh : ∀ start numbers, executor.FreshFor start numbers :=
    fun start numbers idx _ suffix _ => PaperExecutor.fresh_new built _
  have initial : executor.assertAllowsExecution = .ok () ∧ executor.position symbol = 0 := by
    unfold PaperExecutor.new at built
    split at built
    · cases built
    · cases built
      exact ⟨rfl, rfl⟩
  let own := (sortedByTs events).filter fun event => event.symbol = symbol
  let items : Numbered := own.zipIdx 1
  let items' : Numbered := (numbered events).filter fun item => item.1.symbol = symbol
  have member : ∀ item ∈ items, item.1 ∈ events ∧ item.1.symbol = symbol := by
    intro item within
    have firsts : items.map Prod.fst = own := List.zipIdx_map_fst _ _
    have here : item.1 ∈ own := firsts ▸ List.mem_map_of_mem within
    obtain ⟨sorted, of⟩ := List.mem_filter.mp here
    exact ⟨mem_sortedByTs.mp sorted, of_decide_eq_true of⟩
  have start : EventReplayer.InStep symbol ([], executor) ([], executor) :=
    ⟨⟨rfl, rfl, rfl, initial.1, initial.1⟩, List.Forall₂.nil, initial.2⟩
  obtain ⟨⟨fills, ex⟩, ⟨fills', ex'⟩, replayed, run, ends⟩ := @EventReplayer.InStep.events symbol targetQtyFn orderIdPrefix
    items items' _ _ start (numbered_symbol events symbol) (fun item within => (member item within).2)
    (fun item within => positive _ (member item within).1 (member item within).2) (nodup_numbers _)
    ((List.filter_sublist.map Prod.snd).nodup (nodup_numbers _)) (fresh _ _) (fresh _ _)
  refine ⟨fills, executor, ⟨fills'⟩, ⟨ex', some symbol⟩, ?_, built, ?_, ends.fills, ends.position⟩
  · unfold replayedFills replaySorted
    rw [ensureSorted_ok some_, built]
    simp only [bind, Except.bind]
    rw [replayed]
  · unfold EventReplayer.run
    rw [EventReplayer.replayLoop_filter, run]

/-- **The replays trade alike.** For a symbol with an event and positive closes, the
metrics are those of the fills that the event replayer makes on a new executor
with the same costs, under any id prefix, and the fills behind the metrics are
these, one by one, but for their ids. -/
theorem evaluateStrategyMetrics_eq_replay (targetQtyFn : MarketEvent → ℚ) (orderIdPrefix : String)
    (some_ : ∃ event ∈ events, event.symbol = symbol)
    (positive : ∀ event ∈ events, event.symbol = symbol → 0 < event.close)
    (initial : 0 < initialEquity) (fee : 0 ≤ feeBps) (slippage : 0 ≤ slippageBps) :
    ∃ metrics fills executor result r last,
      evaluateStrategyMetrics events symbol targetQtyFn initialEquity feeBps slippageBps = .ok metrics ∧
      replayedFills events symbol targetQtyFn feeBps slippageBps = .ok fills ∧
      PaperExecutor.new OMS.init feeBps slippageBps = .ok executor ∧
      (⟨executor, some symbol⟩ : EventReplayer).run events targetQtyFn orderIdPrefix = (.ok result, r) ∧
      List.Forall₂ Fill.SameTrade fills result.fills ∧
      ((sortedByTs events).filter fun event => event.symbol = symbol).getLast? = some last ∧
      metrics.trades = result.fills.length ∧
      metrics.turnover = (result.fills.map fun fill => |fill.notional|).sum ∧
      metrics.pnl = r.executor.position symbol * last.close -
        ((result.fills.map fun fill => fill.qty * fill.fillPrice).sum + (result.fills.map Fill.fee).sum) := by
  obtain ⟨fills, executor, result, r, replayed, built, run, same, position⟩ :=
    replayedFills_eq_replay targetQtyFn orderIdPrefix some_ positive fee slippage
  obtain ⟨last, final, evaluated⟩ := evaluateStrategyMetrics_of_fills initial replayed
  refine ⟨_, fills, executor, result, r, last, evaluated, replayed, built, run, same, final, ?_, ?_, ?_⟩
  · exact same.length_eq
  · exact congrArg List.sum (Fill.map_eq_of_sameTrade _ (fun f g same => by rw [same.notional]) same)
  · have quantities := Fill.map_eq_of_sameTrade Fill.qty (fun f g same => same.qty) same
    have cash := Fill.map_eq_of_sameTrade (fun fill => fill.qty * fill.fillPrice)
      (fun f g same => by rw [same.qty, same.fillPrice]) same
    have fees := Fill.map_eq_of_sameTrade Fill.fee (fun f g same => same.fee) same
    show equity fills last.close = _
    unfold equity
    simp only [totals_cash, totals_position, quantities, cash, fees]
    rw [← position]
    ring

/-- A long position of one symbol that is flipped, beside an event of another. -/
theorem evaluateStrategyMetrics_eq_replay_flip :
    let events : List MarketEvent := [⟨"BTC", .m1, 100, 2, "a"⟩, ⟨"ETH", .m1, 7, 1, "a"⟩, ⟨"BTC", .m1, 110, 3, "a"⟩]
    let target : MarketEvent → ℚ := fun event => if event.close = 100 then 1 else -1
    ∃ metrics fills executor result r last,
      evaluateStrategyMetrics events "BTC" target 1000 4 2 = .ok metrics ∧
      replayedFills events "BTC" target 4 2 = .ok fills ∧
      PaperExecutor.new OMS.init 4 2 = .ok executor ∧
      (⟨executor, some "BTC"⟩ : EventReplayer).run events target "bt" = (.ok result, r) ∧
      List.Forall₂ Fill.SameTrade fills result.fills ∧
      ((sortedByTs events).filter fun event => event.symbol = "BTC").getLast? = some last ∧
      metrics.trades = result.fills.length ∧
      metrics.turnover = (result.fills.map fun fill => |fill.notional|).sum ∧
      metrics.pnl = r.executor.position "BTC" * last.close -
        ((result.fills.map fun fill => fill.qty * fill.fillPrice).sum + (result.fills.map Fill.fee).sum) :=
  evaluateStrategyMetrics_eq_replay _ "bt" (by decide) (by decide +kernel) (by norm_num) (by norm_num) (by norm_num)

end Robustness

end CryptoQuant
