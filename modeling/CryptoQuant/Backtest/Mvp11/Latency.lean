import CryptoQuant.Lib.Text
import CryptoQuant.Backtest.Mvp11.Book

/-!
# Latency of the simulated fills

An order carries the index of its symbol's series from which on it may be
filled. `_resolve_execute_idx` cuts that index off at the last event, and so does
the re-queueing of residuals: latency is a lower bound up to the last event of
the symbol. An order is followed by its sequence number, which the engine uses
once and prints into the id of every fill of the order.
-/

namespace CryptoQuant.Mvp11
set_option autoImplicit false

/-! ## The series of a symbol -/

/-- No two events of a symbol have one time stamp. -/
def BacktestArgs.DistinctStamps (args : BacktestArgs) : Prop :=
  args.events.Pairwise fun a b => a.symbol = b.symbol → a.ts ≠ b.ts

section Series
variable {args : BacktestArgs} {g : Engine}

theorem BacktestArgs.DistinctStamps.ordered (distinct : args.DistinctStamps) :
    args.ordered.Pairwise fun a b => a.symbol = b.symbol → a.ts < b.ts := by
  have apart : args.ordered.Pairwise fun a b => a.symbol = b.symbol → a.ts ≠ b.ts :=
    ((sortedByTs_perm args.events).pairwise_iff fun h own => (h own.symm).symm).mpr distinct
  have both := List.Pairwise.and apart (pairwise_sortedByTs args.events)
  exact both.imp fun h own => lt_of_le_of_ne h.2 (h.1 own)

/-- The series of a symbol is strictly increasing in time. -/
theorem BacktestArgs.DistinctStamps.series (distinct : args.DistinctStamps) (s : String) :
    (args.eventsOf s).Pairwise fun a b => a.ts < b.ts := by
  have sub : (args.eventsOf s).Sublist args.ordered := List.filter_sublist
  refine (distinct.ordered.sublist sub).imp_of_mem fun ha hb later => later ?_
  exact (mem_eventsOf.mp ha).2.trans (mem_eventsOf.mp hb).2.symm

/-- In a strictly increasing series indices are ordered as the time stamps. -/
theorem index_lt {seq : List MarketEvent} (increasing : seq.Pairwise fun a b => a.ts < b.ts) {i j : ℕ}
    {a b : MarketEvent} (ha : seq[i]? = some a) (hb : seq[j]? = some b) : a.ts < b.ts ↔ i < j := by
  obtain ⟨hi, rfl⟩ := List.getElem?_eq_some_iff.mp ha
  obtain ⟨hj, rfl⟩ := List.getElem?_eq_some_iff.mp hb
  have order := List.pairwise_iff_getElem.mp increasing
  constructor
  · intro earlier
    by_contra later
    rcases Nat.lt_or_ge j i with lt | ge
    · exact absurd (order j i hj hi lt) (not_lt.mpr earlier.le)
    · have same : i = j := by omega
      subst same
      exact absurd earlier (lt_irrefl _)
  · exact order i j hi hj

/-- The index recorded for an event is its place in the series of its symbol. -/
theorem Ready.place_of (ready : Ready args g) (distinct : args.DistinctStamps) {e : MarketEvent} {i : ℕ}
    (member : e ∈ args.ordered) (configured : e.symbol ∈ args.symbols)
    (index : g.eventIndex.get? (e.symbol, e.ts) = some i) : (args.eventsOf e.symbol)[i]? = some e := by
  obtain ⟨i', e', index', found, stamp⟩ := ready.index_of member configured
  have same : i' = i := Option.some.inj (index'.symm.trans index)
  subst same
  obtain ⟨j, place⟩ := List.mem_iff_getElem?.mp (mem_eventsOf.mpr ⟨member, rfl⟩ : e ∈ args.eventsOf e.symbol)
  have notBefore : ¬ i' < j := fun h => ((index_lt (distinct.series _) found place).mpr h).ne stamp
  have notAfter : ¬ j < i' := fun h => ((index_lt (distinct.series _) place found).mpr h).ne stamp.symm
  have here : i' = j := by omega
  rw [here]
  exact place

/-- The search stops at the first event that is not before the target. -/
theorem searchByTime_some {target : DateTime} :
    ∀ {events : List MarketEvent} {start k : ℕ}, searchByTime target events start = some k →
      ∃ d e, k = start + d ∧ events[d]? = some e ∧ target ≤ e.ts := by
  intro events
  induction events with
  | nil => intro start k found; cases found
  | cons e rest ih =>
    intro start k found
    unfold searchByTime at found
    split at found
    · rename_i reached
      cases found
      exact ⟨0, e, rfl, rfl, reached⟩
    · obtain ⟨d, e', at_, place, reached⟩ := ih found
      exact ⟨d + 1, e', by omega, place, reached⟩

/-- **What the execution index promises**: an event at or after it is late by
the configured bars and seconds, unless it is the last of the series. -/
theorem resolveExecuteIdx_le {seq : List MarketEvent} (increasing : seq.Pairwise fun a b => a.ts < b.ts)
    {config : ExecutionModelConfig} {i j : ℕ} {a b : MarketEvent} (ha : seq[i]? = some a)
    (hb : seq[j]? = some b) (later : i < j) (reached : resolveExecuteIdx seq i config ≤ j) :
    (i + config.latencyBars ≤ j ∨ j + 1 = seq.length) ∧
      (a.ts + config.latencySeconds * microsPerSecond ≤ b.ts ∨ j + 1 = seq.length) := by
  obtain ⟨bound, -⟩ := List.getElem?_eq_some_iff.mp hb
  have bars : min (i + config.latencyBars) ((seq.length : ℤ) - 1) ≤ j →
      i + config.latencyBars ≤ j ∨ j + 1 = seq.length := by omega
  unfold resolveExecuteIdx at reached
  by_cases none_ : config.latencySeconds = 0
  · rw [if_pos none_] at reached
    refine ⟨bars reached, .inl ?_⟩
    rw [none_, zero_mul, add_zero]
    exact ((index_lt increasing ha hb).mpr later).le
  · rw [if_neg none_] at reached
    obtain ⟨byBars, byTime⟩ := max_le_iff.mp reached
    refine ⟨bars byBars, ?_⟩
    simp only [ha, Option.map_some, Option.getD_some] at byTime
    cases found : searchByTime (a.ts + config.latencySeconds * microsPerSecond) (seq.drop i) i with
    | none =>
      rw [found] at byTime
      simp only at byTime
      exact .inr (by omega)
    | some k =>
      rw [found] at byTime
      simp only [Nat.cast_le] at byTime
      obtain ⟨d, e, at_, place, late⟩ := searchByTime_some found
      rw [List.getElem?_drop] at place
      refine .inl (late.trans ?_)
      rcases Nat.lt_or_ge (i + d) j with before | after
      · exact ((index_lt increasing place hb).mpr before).le
      · have same : i + d = j := by omega
        rw [same, hb, Option.some.injEq] at place
        rw [place]

end Series

/-! ## Following orders through an event -/

/-- The order an event of a run generates, if its target moves. -/
def generatedOrder (g : Engine) (st : LoopState) (event : MarketEvent) : Except PyError (Option PendingOrder) := do
  let symbolSeq ← getItem g.symbolEvents event.symbol
  let idx ← getItem g.eventIndex (event.symbol, event.ts)
  let targetQty ← targetQty g event
  let matched := matchedState event symbolSeq idx g st
  let delta := deltaQty event targetQty matched
  pure (if deadBand < |delta| then some (newOrder g event symbolSeq idx delta matched) else none)

/-- Every pending order and every fill has a property. -/
structure Holds (A : PendingOrder → Prop) (F : Fill → Prop) (st : LoopState) : Prop where
  pending : ∀ o ∈ st.pending, A o
  fills : ∀ fill ∈ st.fills, F fill

section Follow
variable {A : PendingOrder → Prop} {F : Fill → Prop} {g : Engine} {event : MarketEvent}

theorem Holds.of_same {st st' : LoopState} (h : Holds A F st) (pending : st'.pending = st.pending)
    (fills : st'.fills = st.fills) : Holds A F st' :=
  ⟨pending ▸ h.pending, fills ▸ h.fills⟩

theorem Holds.push {st st' : LoopState} (h : Holds A F st) {o : PendingOrder} (new : A o)
    (pending : st'.pending = st.pending ++ [o]) (fills : st'.fills = st.fills) : Holds A F st' := by
  refine ⟨fun o' member => ?_, fills ▸ h.fills⟩
  rw [pending, List.mem_append, List.mem_singleton] at member
  exact member.elim (h.pending o') fun same => same ▸ new

theorem Holds.book {st st' : LoopState} (h : Holds A F st) {fill : Fill} (new : F fill)
    (pending : st'.pending = st.pending) (fills : st'.fills = st.fills ++ [fill]) : Holds A F st' := by
  refine ⟨pending ▸ h.pending, fun f member => ?_⟩
  rw [fills, List.mem_append, List.mem_singleton] at member
  exact member.elim (h.fills f) fun same => same ▸ new

/-- Matching the orders of a queue that have the property. -/
theorem foldl_holds {idx seqLen : ℕ} (queue : List PendingOrder) {st : LoopState} (h : Holds A F st)
    (own : ∀ o ∈ queue, A o) (fill : ∀ o ∈ queue, ∀ isMaker, F (maturedFill g.config event o isMaker))
    (left : ∀ o ∈ queue, A (residualOrder g.config event idx seqLen o)) :
    Holds A F (queue.foldl (fillMatured g event idx seqLen) st) := by
  refine Run.foldl_invariant (P := Holds A F) ?_ h
  intro s o member before
  have outcome := fillMatured_matched g event idx seqLen s o
  generalize fillMatured g event idx seqLen s o = s' at outcome
  cases outcome with
  | nothing => exact before
  | requeued drawn => exact before.push (own o member) rfl rfl
  | residual isMaker drawn =>
    have booked : Holds A F (s.book (maturedFill g.config event o isMaker) s.pending drawn) :=
      before.book (fill o member isMaker) rfl rfl
    exact booked.push (left o member) rfl rfl
  | done isMaker drawn => exact before.book (fill o member isMaker) rfl rfl

/-- **Step lemma**: a property of the pending orders and the fills survives an
event if the fills and residuals of its matured orders, the order it generates
and liquidation fills have it. -/
theorem processEvent_holds {st st' : LoopState} {symbolSeq : List MarketEvent} {idx : ℕ} (h : Holds A F st)
    (seq : g.symbolEvents.get? event.symbol = some symbolSeq)
    (index : g.eventIndex.get? (event.symbol, event.ts) = some idx)
    (fill : ∀ o ∈ st.pending, isMatured event idx o = true → ∀ isMaker, F (maturedFill g.config event o isMaker))
    (left : ∀ o ∈ st.pending, isMatured event idx o = true → A (residualOrder g.config event idx symbolSeq.length o))
    (new : ∀ o, generatedOrder g st event = .ok (some o) → A o)
    (liquidation : ∀ f : Fill, (∃ (n : ℕ) (s : String), f.clientOrderId = s!"liq-{n}-{s}") → F f)
    (step : processEvent g st event = .ok st') : Holds A F st' := by
  obtain ⟨symbolSeq', idx', target, seq', index', goal, rfl⟩ := processEvent_ok.mp step
  have sameSeq : symbolSeq' = symbolSeq := Option.some.inj (seq'.symm.trans seq)
  have sameIdx : idx' = idx := Option.some.inj (index'.symm.trans index)
  subst sameSeq sameIdx
  have matched : Holds A F (matchedState event symbolSeq' idx' g st) := by
    refine foldl_holds _ ⟨fun o member => ?_, h.fills⟩ (fun o member => ?_) (fun o member => ?_) (fun o member => ?_)
    · exact h.pending o (List.mem_of_mem_filter member)
    · exact h.pending o (List.mem_of_mem_filter member)
    · exact fill o (List.mem_of_mem_filter member) (List.mem_filter.mp member).2
    · exact left o (List.mem_of_mem_filter member) (List.mem_filter.mp member).2
  have moved : Holds A F (updateTarget g event symbolSeq' idx' target (matchedState event symbolSeq' idx' g st)) := by
    by_cases move : deadBand < |deltaQty event target (matchedState event symbolSeq' idx' g st)|
    · have generated : generatedOrder g st event = .ok (some (newOrder g event symbolSeq' idx'
          (deltaQty event target (matchedState event symbolSeq' idx' g st)) (matchedState event symbolSeq' idx' g st))) := by
        unfold generatedOrder
        refine Run.bind_ok.mpr ⟨_, getItem_of_get? seq, Run.bind_ok.mpr ⟨_, getItem_of_get? index,
          Run.bind_ok.mpr ⟨target, goal, ?_⟩⟩⟩
        simp only [if_pos move, pure, Except.pure]
      rw [updateTarget_of_move g event idx' move]
      refine ⟨fun o member => ?_, matched.fills⟩
      rw [List.mem_append, List.mem_singleton] at member
      rcases member with kept | rfl
      · obtain ⟨pending, drawn, cancels, sub⟩ :=
          cancelAll_eq g (matchedState event symbolSeq' idx' g st)
            (staleOrders event target (matchedState event symbolSeq' idx' g st))
        unfold afterCancels at kept
        rw [cancels] at kept
        exact matched.pending o (sub.subset kept)
      · exact new _ generated
    · rw [updateTarget_of_still g event idx' move]
      exact matched
  have reached : Holds A F (beforeLiquidation g event symbolSeq' idx' target st) := moved.of_same rfl rfl
  have checked : Holds A F (checkLiquidation g event (beforeLiquidation g event symbolSeq' idx' target st)) := by
    unfold checkLiquidation
    split
    · refine Run.foldl_invariant (P := Holds A F) ?_ (reached.of_same rfl rfl)
      intro s symbol _ before
      rcases liquidateSymbol_cases g event s symbol with ⟨-, same⟩ | ⟨-, f, id, -, -, closed⟩
      · rw [same]
        exact before
      · rw [closed]
        exact before.book (liquidation f ⟨_, _, id⟩) rfl rfl
    · exact reached
  obtain ⟨regime, recorded⟩ := recordEquity_eq g event
    (checkLiquidation g event (beforeLiquidation g event symbolSeq' idx' target st))
  unfold eventStep
  rw [recorded]
  exact checked.of_same rfl rfl

/-- What an event generates carries the sequence number of the state before. -/
theorem generatedOrder_ok {st : LoopState} {o : PendingOrder}
    (generated : generatedOrder g st event = .ok (some o)) :
    o.sequence = st.sequence ∧ o.symbol = event.symbol ∧
      ∃ symbolSeq idx target, g.symbolEvents.get? event.symbol = some symbolSeq ∧
        g.eventIndex.get? (event.symbol, event.ts) = some idx ∧ targetQty g event = .ok target ∧
        o.executeIdx = resolveExecuteIdx symbolSeq idx g.config ∧
        deadBand < |deltaQty event target (matchedState event symbolSeq idx g st)| := by
  unfold generatedOrder at generated
  simp only [Run.bind_ok, getItem_ok, pure, Except.pure, Except.ok.injEq] at generated
  obtain ⟨symbolSeq, seq, idx, index, target, goal, generated⟩ := generated
  split at generated
  · rename_i move
    rw [Option.some.injEq] at generated
    subst generated
    have kept := (processMatured_frame g event idx symbolSeq.length
      { st with lastPrice := st.lastPrice.set event.symbol event.close }).sequence
    exact ⟨kept, rfl, symbolSeq, idx, target, seq, index, goal, rfl, move⟩
  · cases generated

/-- Liquidations only use up sequence numbers. -/
theorem checkLiquidation_sequence (g : Engine) (event : MarketEvent) (st : LoopState) :
    st.sequence ≤ (checkLiquidation g event st).sequence := by
  unfold checkLiquidation
  split
  · refine Run.foldl_invariant (P := fun s : LoopState => st.sequence ≤ s.sequence) ?_ le_rfl
    intro s symbol _ before
    rcases liquidateSymbol_cases g event s symbol with ⟨-, same⟩ | ⟨-, f, -, -, -, closed⟩
    · rw [same]
      exact before
    · rw [closed]
      exact before.trans (Nat.le_succ _)
  · exact le_rfl

/-- Sequence numbers never come back, and a generated order uses one up. -/
theorem processEvent_sequence {st st' : LoopState} (step : processEvent g st event = .ok st') :
    st.sequence ≤ st'.sequence ∧
      ∀ o, generatedOrder g st event = .ok (some o) → st.sequence < st'.sequence := by
  obtain ⟨symbolSeq, idx, target, seq, index, goal, rfl⟩ := processEvent_ok.mp step
  have kept : (matchedState event symbolSeq idx g st).sequence = st.sequence :=
    (processMatured_frame g event idx symbolSeq.length
      { st with lastPrice := st.lastPrice.set event.symbol event.close }).sequence
  have checked := checkLiquidation_sequence g event (beforeLiquidation g event symbolSeq idx target st)
  obtain ⟨regime, recorded⟩ := recordEquity_eq g event
    (checkLiquidation g event (beforeLiquidation g event symbolSeq idx target st))
  have last : (eventStep g event symbolSeq idx target st).sequence =
      (checkLiquidation g event (beforeLiquidation g event symbolSeq idx target st)).sequence := by
    unfold eventStep
    rw [recorded]
  have moved : (beforeLiquidation g event symbolSeq idx target st).sequence =
      (updateTarget g event symbolSeq idx target (matchedState event symbolSeq idx g st)).sequence := rfl
  rw [last]
  constructor
  · refine le_trans ?_ checked
    rw [moved]
    by_cases move : deadBand < |deltaQty event target (matchedState event symbolSeq idx g st)|
    · rw [updateTarget_of_move g event idx move, ← kept]
      exact Nat.le_succ _
    · rw [updateTarget_of_still g event idx move, kept]
  · intro o generated
    obtain ⟨-, -, symbolSeq', idx', target', seq', index', goal', -, move⟩ := generatedOrder_ok generated
    have sameSeq : symbolSeq' = symbolSeq := Option.some.inj (seq'.symm.trans seq)
    have sameIdx : idx' = idx := Option.some.inj (index'.symm.trans index)
    have sameTarget : target' = target := Except.ok.inj (goal'.symm.trans goal)
    subst sameSeq sameIdx sameTarget
    refine lt_of_lt_of_le ?_ checked
    rw [moved, updateTarget_of_move g event idx' move, ← kept]
    exact Nat.lt_succ_self _

end Follow

/-! ## Where the fills of a run come from -/

/-- The order with a sequence number was generated by one of the events `done`. -/
def Born (g : Engine) (done : List MarketEvent) (sequence : ℕ) : Prop :=
  ∃ before event after st order, done = before ++ event :: after ∧ g.run before = .ok st ∧
    generatedOrder g st event = .ok (some order) ∧ order.sequence = sequence

theorem Born.snoc {g : Engine} {done : List MarketEvent} {sequence : ℕ} (h : Born g done sequence)
    (event : MarketEvent) : Born g (done ++ [event]) sequence := by
  obtain ⟨before, e, after, st, order, split, run, generated, number⟩ := h
  exact ⟨before, e, after ++ [event], st, order, by rw [split]; simp, run, generated, number⟩

/-- A liquidation fill, by its id. -/
def IsLiquidation (fill : Fill) : Prop := ∃ (n : ℕ) (s : String), fill.clientOrderId = s!"liq-{n}-{s}"

/-- A fill of the order with a sequence number, by its id. -/
def FillOf (sequence : ℕ) (fill : Fill) : Prop := fill.clientOrderId = s!"mvp11-{sequence}"

theorem maturedFill_of (config : ExecutionModelConfig) (event : MarketEvent) (o : PendingOrder)
    (isMaker : Bool) : FillOf o.sequence (maturedFill config event o isMaker) := rfl

theorem FillOf.unique {m n : ℕ} {fill : Fill} (h : FillOf m fill) (k : FillOf n fill) : m = n :=
  Text.append_nat_inj (h.symm.trans k)

theorem FillOf.not_liquidation {m : ℕ} {fill : Fill} (h : FillOf m fill) : ¬ IsLiquidation fill := by
  rintro ⟨n, s, id⟩
  have same : "mvp11-" ++ toString m = "liq-" ++ (toString n ++ ("-" ++ s)) := by
    rw [← String.append_assoc, ← String.append_assoc]
    exact h.symm.trans id
  exact Text.append_ne_of_head (by decide) (by decide) (by decide) _ _ same

/-- Every order and every fill of a run after the events `done` is numbered by
an order generated before. -/
abbrev Numbered (g : Engine) (done : List MarketEvent) (bound : ℕ) (st : LoopState) : Prop :=
  Holds (fun o => o.sequence < bound ∧ Born g done o.sequence)
    (fun fill => IsLiquidation fill ∨ ∃ n < bound, FillOf n fill ∧ Born g done n) st

section Run
variable {args : BacktestArgs} {g : Engine}

/-- **Run lemma**: sequence numbers are used once and fills are numbered. -/
theorem numbered {done : List MarketEvent} {st : LoopState} (run : g.run done = .ok st) :
    Numbered g done st.sequence st := by
  have invariant : g.run done = .ok st ∧ Numbered g done st.sequence st := by
    refine Run.invariant (P := fun done st => g.run done = .ok st ∧ Numbered g done st.sequence st)
      ⟨rfl, fun o member => absurd member List.not_mem_nil, fun fill member => absurd member List.not_mem_nil⟩ ?_
      (List.append_nil done).symm run
    rintro done event rest t u - ⟨here, holds⟩ step
    have after : g.run (done ++ [event]) = .ok u := Run.foldlM_snoc_ok.mpr ⟨t, here, step⟩
    obtain ⟨grown, used⟩ := processEvent_sequence step
    obtain ⟨symbolSeq, idx, target, seq, index, -, -⟩ := processEvent_ok.mp step
    have kept : Numbered g (done ++ [event]) u.sequence t := by
      refine ⟨fun o member => ?_, fun fill member => (holds.fills fill member).imp id ?_⟩
      · obtain ⟨less, born⟩ := holds.pending o member
        exact ⟨less.trans_le grown, born.snoc event⟩
      · rintro ⟨n, less, own, born⟩
        exact ⟨n, less.trans_le grown, own, born.snoc event⟩
    refine ⟨after, processEvent_holds kept seq index ?_ ?_ ?_ (fun _ => .inl) step⟩
    · exact fun o member _ _ => .inr ⟨o.sequence, (kept.pending o member).1, rfl, (kept.pending o member).2⟩
    · exact fun o member _ => kept.pending o member
    · intro o generated
      have number := (generatedOrder_ok generated).1
      exact ⟨number ▸ used o generated, done, event, [], t, o, rfl, here, generated, rfl⟩
  exact invariant.2

/-- A fill of an order of the event `e` is late: it is at a later event of the
symbol, and late by the configured bars and seconds unless that is the last. -/
def LateFill (args : BacktestArgs) (e : MarketEvent) (fill : Fill) : Prop :=
  ∃ (i j : ℕ) (f : MarketEvent), (args.eventsOf e.symbol)[i]? = some e ∧ (args.eventsOf e.symbol)[j]? = some f ∧
    fill.symbol = e.symbol ∧ fill.ts = f.ts ∧ i < j ∧
    (i + args.config.latencyBars ≤ j ∨ j + 1 = (args.eventsOf e.symbol).length) ∧
    (e.ts + args.config.latencySeconds * microsPerSecond ≤ f.ts ∨ j + 1 = (args.eventsOf e.symbol).length)

/-- An order of an event, followed through the run: while pending it keeps its
symbol and waits at least for its execution index, and its fills are late. -/
abbrev Followed (args : BacktestArgs) (e : MarketEvent) (order : PendingOrder) (st : LoopState) : Prop :=
  Holds (fun o => o.sequence = order.sequence → o.symbol = e.symbol ∧ order.executeIdx ≤ o.executeIdx)
    (fun fill => FillOf order.sequence fill → LateFill args e fill) st

/-- **Step lemma**: a later event keeps an order followed. -/
theorem Followed.step (ready : Ready args g) (distinct : args.DistinctStamps) {e f : MarketEvent}
    {order : PendingOrder} {i : ℕ} {st st' : LoopState} (h : Followed args e order st)
    (used : order.sequence < st.sequence) (place : (args.eventsOf e.symbol)[i]? = some e)
    (index : order.executeIdx = resolveExecuteIdx (args.eventsOf e.symbol) i args.config)
    (member : f ∈ args.ordered) (later : e.symbol = f.symbol → e.ts < f.ts)
    (step : processEvent g st f = .ok st') : Followed args e order st' := by
  obtain ⟨symbolSeq, j, target, seq, at_, -, -⟩ := processEvent_ok.mp step
  have configured : f.symbol ∈ args.symbols := by
    rw [ready.symbolEvents, Py.Dict.get?_ofKeys] at seq
    by_contra missing
    rw [if_neg missing] at seq
    cases seq
  have series : symbolSeq = args.eventsOf f.symbol :=
    Option.some.inj (seq.symm.trans (ready.events_of configured))
  have place' := ready.place_of distinct member configured at_
  obtain ⟨bound, -⟩ := List.getElem?_eq_some_iff.mp place'
  refine processEvent_holds h seq at_ ?_ ?_ ?_ ?_ step
  · -- a fill of the order: the event has reached its execution index
    intro o pending matured isMaker own
    obtain ⟨symbol, reached⟩ := of_decide_eq_true matured
    have number : o.sequence = order.sequence := (maturedFill_of g.config f o isMaker).unique own
    obtain ⟨ours, waits⟩ := h.pending o pending number
    have same : f.symbol = e.symbol := symbol.symm.trans ours
    rw [same] at place' bound
    have before : i < j := (index_lt (distinct.series _) place place').mp (later same.symm)
    have late := resolveExecuteIdx_le (distinct.series _) place place' before
      (index ▸ waits.trans reached)
    exact ⟨i, j, f, place, place', ours, rfl, before, late⟩
  · -- its residual waits for the next event or the last one
    intro o pending matured number
    obtain ⟨symbol, reached⟩ := of_decide_eq_true matured
    obtain ⟨ours, waits⟩ := h.pending o pending number
    refine ⟨ours, ?_⟩
    show order.executeIdx ≤ min ((j : ℤ) + 1) ((symbolSeq.length : ℤ) - 1)
    rw [series]
    omega
  · -- a new order has another number
    intro o generated number
    exact absurd ((generatedOrder_ok generated).1.symm.trans number) used.ne'
  · exact fun fill liquidation own => absurd liquidation own.not_liquidation

/-- Right after its event an order is pending and has no fill yet. -/
theorem followed_of_generated {before : List MarketEvent} {event : MarketEvent} {order : PendingOrder} {st u : LoopState}
    (here : g.run before = .ok st) (generated : generatedOrder g st event = .ok (some order))
    (step : processEvent g st event = .ok u) : Followed args event order u := by
  obtain ⟨number, ours, symbolSeq, i, target, seq, at_, -⟩ := generatedOrder_ok generated
  have fresh := numbered here
  have nothing : Followed args event order st := by
    refine ⟨fun o pending same => ?_, fun fill filled own => ?_⟩
    · exact absurd ((fresh.pending o pending).1) (by omega)
    · rcases fresh.fills fill filled with liquidation | ⟨n, less, other, -⟩
      · exact absurd liquidation own.not_liquidation
      · exact absurd (FillOf.unique other own) (by omega)
  refine processEvent_holds nothing seq at_ ?_ ?_ ?_ ?_ step
  · intro o pending _ isMaker own
    have same : o.sequence = order.sequence := (maturedFill_of g.config event o isMaker).unique own
    exact absurd ((fresh.pending o pending).1) (by omega)
  · intro o pending _ same
    exact absurd ((fresh.pending o pending).1) (by rw [show o.sequence = order.sequence from same]; omega)
  · intro o generated' _
    have same : o = order := Option.some.inj (Except.ok.inj (generated'.symm.trans generated))
    exact ⟨same ▸ ours, same ▸ le_rfl⟩
  · exact fun fill liquidation own => absurd liquidation own.not_liquidation

/-- **Latency is a lower bound up to the last event of the symbol.** Every fill
of a run is a liquidation fill or belongs to an order one of the events
generated; and every fill of an order generated at an event is at a later event
of the symbol, late by `latency_bars` and by `latency_seconds` unless that event
is the last one of the symbol. -/
theorem fills_late (admitted : setUp args = .ok g) (configured : args.Configured)
    (distinct : args.DistinctStamps) :
    ∃ last, g.run args.ordered = .ok last ∧
      (∀ fill ∈ last.fills, IsLiquidation fill ∨ ∃ n, FillOf n fill ∧ Born g args.ordered n) ∧
      ∀ before event after st order, args.ordered = before ++ event :: after → g.run before = .ok st →
        generatedOrder g st event = .ok (some order) →
        ∀ fill ∈ last.fills, FillOf order.sequence fill → LateFill args event fill := by
  have ready := setUp_ready admitted
  obtain ⟨last, run⟩ := ready.run_total configured (List.append_nil args.ordered).symm
  refine ⟨last, run, ?_, ?_⟩
  · intro fill member
    exact ((numbered run).fills fill member).imp id fun ⟨n, _, own, born⟩ => ⟨n, own, born⟩
  intro before event after st order split here generated
  have member : event ∈ args.ordered := by
    rw [split]; exact List.mem_append_right _ List.mem_cons_self
  have symbol := configured.ordered member
  rw [split] at run
  obtain ⟨st', u, here', step, next, rest⟩ := Run.state_before run
  have same : st' = st := Except.ok.inj (here'.symm.trans here)
  subst same
  obtain ⟨number, ours, symbolSeq, i, target, seq, at_, -, index, -⟩ := generatedOrder_ok generated
  have series : symbolSeq = args.eventsOf event.symbol :=
    Option.some.inj (seq.symm.trans (ready.events_of symbol))
  have place := ready.place_of distinct member symbol at_
  rw [series, ready.config] at index
  have born : Followed args event order u := followed_of_generated here generated step
  have used : order.sequence < u.sequence := number ▸ (processEvent_sequence step).2 order generated
  have followed : Followed args event order last ∧ order.sequence < last.sequence := by
    refine Run.invariant (P := fun _ st => Followed args event order st ∧ order.sequence < st.sequence)
      ⟨born, used⟩ ?_ (List.append_nil after).symm rest
    rintro done f others t v cut ⟨followed, used⟩ step
    have inside : f ∈ args.ordered := by
      rw [split, cut]; simp
    have later : event.symbol = f.symbol → event.ts < f.ts := by
      have pairs := distinct.ordered
      rw [split, List.pairwise_append] at pairs
      have tail := (List.pairwise_cons.mp pairs.2.1).1
      exact tail f (by rw [cut]; simp)
    exact ⟨followed.step ready distinct used place index inside later step,
      used.trans_le (processEvent_sequence step).1⟩
  exact followed.1.fills

end Run

/-- The second of three events of a symbol. -/
def tailSignal : MarketEvent := ⟨"BTCUSDT", .m1, 100, 60000000, "test"⟩

/-- A target that moves two bars before the end, under a latency of two bars. -/
def tail : BacktestArgs where
  events := [⟨"BTCUSDT", .m1, 100, 0, "test"⟩, tailSignal, ⟨"BTCUSDT", .m1, 100, 120000000, "test"⟩]
  strategyTargetQtyFns := .ofKeys ["BTCUSDT"] fun _ => .ofKeys ["late"] fun _ e => if e.ts = 0 then 0 else 1
  config := { latencyBars := 2, baseFillRatio := 1 }
  draws := fun _ => 1 / 2

theorem tail_configured : tail.Configured := by
  unfold BacktestArgs.Configured
  decide +kernel

theorem tail_distinct : tail.DistinctStamps := by
  unfold BacktestArgs.DistinctStamps
  decide +kernel

/-- What the engine does with the signal of `tail`: order `0`, filled at the last event. -/
theorem tail_run : ∃ g st order last, setUp tail = .ok g ∧ g.run (tail.ordered.take 1) = .ok st ∧
    generatedOrder g st tailSignal = .ok (some order) ∧ order.sequence = 0 ∧ g.run tail.ordered = .ok last ∧
    ∃ fill ∈ last.fills, FillOf 0 fill ∧ fill.ts = 120000000 := by
  obtain ⟨g, admitted, check⟩ := Run.endsIn_iff.mp (show Run.endsIn (setUp tail) (fun g =>
    Run.endsIn (g.run (tail.ordered.take 1)) (fun st =>
      Run.endsIn (generatedOrder g st tailSignal) fun o => decide (o.map PendingOrder.sequence = some 0)) &&
    Run.endsIn (g.run tail.ordered) fun last =>
      last.fills.any fun fill => decide (fill.clientOrderId = "mvp11-0" ∧ fill.ts = 120000000)) = true by
    decide +kernel)
  obtain ⟨first, second⟩ := Bool.and_eq_true_iff.mp check
  obtain ⟨st, run, check⟩ := Run.endsIn_iff.mp first
  obtain ⟨o, generated, number⟩ := Run.endsIn_iff.mp check
  obtain ⟨order, found, zero⟩ := Option.map_eq_some_iff.mp (of_decide_eq_true number)
  obtain ⟨last, run', check⟩ := Run.endsIn_iff.mp second
  obtain ⟨fill, member, passes⟩ := List.any_eq_true.mp check
  obtain ⟨own, stamp⟩ := of_decide_eq_true passes
  exact ⟨g, st, order, last, admitted, run, found ▸ generated, zero, run', fill, member, own, stamp⟩

theorem fills_late_tail : ∃ (g : Engine) (last : LoopState), setUp tail = .ok g ∧ g.run tail.ordered = .ok last ∧
    ∃ fill ∈ last.fills, FillOf 0 fill ∧ LateFill tail tailSignal fill := by
  obtain ⟨g, st, order, last, admitted, run, generated, zero, run', fill, member, own, -⟩ := tail_run
  obtain ⟨last', run'', -, late⟩ := fills_late admitted tail_configured tail_distinct
  have same : last' = last := Except.ok.inj (run''.symm.trans run')
  subst same
  have split : tail.ordered = tail.ordered.take 1 ++ tailSignal :: tail.ordered.drop 2 := by decide +kernel
  refine ⟨g, last', admitted, run', fill, member, own, ?_⟩
  exact late _ _ _ st order split run generated fill member (zero ▸ own)

/-- The order of the second event is filled at the third, one bar after its
signal under a latency of two. -/
theorem fills_early_tail : ∃ g st order last fill, setUp tail = .ok g ∧ tail.Configured ∧ tail.DistinctStamps ∧
    g.run (tail.ordered.take 1) = .ok st ∧ generatedOrder g st tailSignal = .ok (some order) ∧
    g.run tail.ordered = .ok last ∧ fill ∈ last.fills ∧ FillOf order.sequence fill ∧
    (tail.eventsOf "BTCUSDT")[1]? = some tailSignal ∧
    ((tail.eventsOf "BTCUSDT")[2]?).map MarketEvent.ts = some fill.ts ∧ ¬ (1 + tail.config.latencyBars ≤ 2) := by
  obtain ⟨g, st, order, last, admitted, run, generated, zero, run', fill, member, own, stamp⟩ := tail_run
  have places : (tail.eventsOf "BTCUSDT")[1]? = some tailSignal ∧
      ((tail.eventsOf "BTCUSDT")[2]?).map MarketEvent.ts = some 120000000 := by decide +kernel
  exact ⟨g, st, order, last, fill, admitted, tail_configured, tail_distinct, run, generated, run', member,
    zero.symm ▸ own, places.1, stamp.symm ▸ places.2, by decide⟩

end CryptoQuant.Mvp11
