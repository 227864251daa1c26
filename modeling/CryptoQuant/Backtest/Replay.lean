import CryptoQuant.Events.Market
import CryptoQuant.Execution.Targeting
import Mathlib.Logic.Function.Basic

/-!
# Replaying events

`backtest/replay.py`: market events in time order, each turned into the orders
that take the executor to the target of its symbol. The ids of the orders are a
prefix and the place of the event in the run, and an id the executor already
knows is not executed again. So a run reaches its targets exactly when it needs
no id that an earlier one has used.
-/

namespace CryptoQuant
set_option autoImplicit false

/-- `BacktestResult`. -/
structure BacktestResult where
  fills : List Fill

/-- `EventReplayer`. -/
structure EventReplayer where
  executor : PaperExecutor
  symbol : Option String := none

/-- Events with their places in the run, from 1 on. -/
abbrev Numbered := List (MarketEvent × ℕ)

/-- `enumerate(sorted(events, key=lambda e: e.ts), start=1)`. -/
def numbered (events : List MarketEvent) : Numbered := (sortedByTs events).zipIdx 1

namespace EventReplayer

/-- The event is of a symbol that is replayed. -/
def replays (symbol : Option String) (event : MarketEvent) : Bool :=
  match symbol with
  | none => true
  | some symbol => decide (event.symbol = symbol)

/-- The loop of `run`, from an event on: the fills so far and the executor. -/
def replayLoop (symbol : Option String) (targetQtyFn : MarketEvent → ℚ) (orderIdPrefix : String) :
    Numbered → List Fill → PaperExecutor → Except PyError BacktestResult × PaperExecutor
  | [], fills, executor => (.ok ⟨fills⟩, executor)
  | (event, idx) :: rest, fills, executor =>
    if replays symbol event = false then replayLoop symbol targetQtyFn orderIdPrefix rest fills executor
    else if executor.position event.symbol = targetQtyFn event then
      replayLoop symbol targetQtyFn orderIdPrefix rest fills executor
    else
      match executor.executeToTarget s!"{orderIdPrefix}-{idx}" event.symbol (executor.position event.symbol)
        (targetQtyFn event) event.close event.ts with
      | (.error e, executor) => (.error e, executor)
      | (.ok legs, executor) => replayLoop symbol targetQtyFn orderIdPrefix rest (fills ++ legs) executor

/-- `run`. -/
def run (r : EventReplayer) (events : List MarketEvent) (targetQtyFn : MarketEvent → ℚ)
    (orderIdPrefix : String := "bt") : Except PyError BacktestResult × EventReplayer :=
  let (answer, executor) := replayLoop r.symbol targetQtyFn orderIdPrefix (numbered events) [] r.executor
  (answer, { r with executor })

end EventReplayer

/-! ## Orders one after the other -/

namespace PaperExecutor

/-- Orders executed in turn, up to the first that raises. -/
def executeAll : List MarketOrder → PaperExecutor → Except PyError (List Fill) × PaperExecutor
  | [], ex => (.ok [], ex)
  | o :: orders, ex =>
    match ex.executeMarket o with
    | (.error e, ex) => (.error e, ex)
    | (.ok fill, ex) =>
      match executeAll orders ex with
      | (.error e, ex) => (.error e, ex)
      | (.ok fills, ex) => (.ok (fill :: fills), ex)

/-- Every order passes every check, in the executor the orders before it left. -/
def AcceptsAll : List MarketOrder → PaperExecutor → Prop
  | [], _ => True
  | o :: orders, ex => ex.Accepts o ∧ AcceptsAll orders (ex.settled o)

section Orders
variable {ex : PaperExecutor} {o : MarketOrder} {orders : List MarketOrder} {name : String}

/-- From the tracked position, `execute_to_target` executes its legs in turn. -/
theorem executeToTarget_legs (ex : PaperExecutor) (start symbol : String) (target mark : ℚ) (ts : DateTime) :
    ex.executeToTarget start symbol (ex.position symbol) target mark ts =
      executeAll (ex.legs start symbol target mark ts) ex := by
  unfold executeToTarget legs
  simp only
  by_cases reached : ex.position symbol = target
  · rw [if_pos reached, if_pos reached]
    rfl
  rw [if_neg reached, if_neg reached]
  by_cases single : ex.position symbol = 0 ∨ target = 0 ∨ 0 < ex.position symbol * target
  · rw [if_pos single, if_pos single]
    generalize first_ : ex.executeMarket _ = first
    rcases first with ⟨_ | _, _⟩ <;> simp only [executeAll, first_]
  · rw [if_neg single, if_neg single]
    generalize first_ : ex.executeMarket _ = first
    rcases first with ⟨_ | _, closed⟩
    · simp only [executeAll, first_]
    · simp only
      generalize second_ : closed.executeMarket _ = second
      rcases second with ⟨_ | _, _⟩ <;> simp only [executeAll, first_, second_]

/-- An id that is usable after an order was settled was usable before. -/
theorem Usable.of_settled (usable : (ex.settled o).Usable name) : name ≠ o.clientOrderId ∧ ex.Usable name := by
  have unfilled : (ex.fills.set o.clientOrderId (ex.fillOf o)).get? name = none := usable.unfilled
  have other : name ≠ o.clientOrderId := by
    rintro rfl
    rw [Py.Dict.get?_set_self] at unfilled
    cases unfilled
  refine ⟨other, ?_, fun order found => ?_⟩
  · rw [Py.Dict.get?_set_ne _ _ other] at unfilled
    exact unfilled
  · exact usable.new order (by rw [settled_oms, if_neg other]; exact found)

/-- Another id stays usable. -/
theorem Usable.settled (usable : ex.Usable name) (other : name ≠ o.clientOrderId) : (ex.settled o).Usable name := by
  refine ⟨?_, fun order found => ?_⟩
  · show (ex.fills.set _ _).get? name = none
    rw [Py.Dict.get?_set_ne _ _ other]
    exact usable.unfilled
  · rw [settled_oms, if_neg other] at found
    exact usable.new order found

/-- Accepted orders are settled one after the other. -/
theorem executeAll_accepted (accepts : AcceptsAll orders ex) :
    executeAll orders ex = (.ok (orders.map ex.fillOf), orders.foldl settled ex) := by
  induction orders generalizing ex with
  | nil => rfl
  | cons o orders ih =>
    unfold executeAll
    rw [executeMarket_accepted accepts.1]
    simp only
    rw [ih accepts.2]
    rfl

/-- **What a list of orders can do**, when none raises: the executor stores at
most one fill for each, and one for each only if it accepts them all. -/
theorem executeAll_ok {fills : List Fill} {ex' : PaperExecutor} (done : executeAll orders ex = (.ok fills, ex')) :
    ∃ stored, ex'.fills.values = ex.fills.values ++ stored ∧ stored.length ≤ fills.length ∧
      (stored.length = fills.length → AcceptsAll orders ex) := by
  induction orders generalizing ex fills with
  | nil =>
    cases done
    exact ⟨[], (List.append_nil _).symm, le_rfl, fun _ => trivial⟩
  | cons o orders ih =>
    unfold executeAll at done
    have outcome := executeMarket_executed ex o
    generalize ex.executeMarket o = result at outcome done
    cases outcome with
    | refused e unacceptable => cases done
    | repeated fill known =>
      cases later : executeAll orders ex with
      | mk answer ex'' =>
        simp only [later] at done
        cases answer with
        | error e => cases done
        | ok rest =>
          cases done
          obtain ⟨stored, values, fewer, -⟩ := ih later
          refine ⟨stored, values, fewer.trans (Nat.le_succ _), fun same => ?_⟩
          rw [List.length_cons] at same
          omega
    | settled accepts =>
      cases later : executeAll orders (ex.settled o) with
      | mk answer ex'' =>
        simp only [later] at done
        cases answer with
        | error e => cases done
        | ok rest =>
          cases done
          obtain ⟨stored, values, fewer, all⟩ := ih later
          refine ⟨ex.fillOf o :: stored, ?_, Nat.succ_le_succ fewer, fun same => ⟨accepts, all (Nat.succ.inj same)⟩⟩
          rw [values, settled_fills accepts.usable, List.append_assoc]
          rfl

/-- The ids of the orders from one quantity to another. -/
def legNames (start : String) (current target : ℚ) : List String :=
  if current = target then []
  else if current = 0 ∨ target = 0 ∨ 0 < current * target then [start ++ "-single"]
  else [start ++ "-close", start ++ "-open"]

variable {start symbol : String} {target mark : ℚ} {ts : DateTime}

theorem names_legs (ex : PaperExecutor) (start symbol : String) (target mark : ℚ) (ts : DateTime) :
    (ex.legs start symbol target mark ts).map MarketOrder.clientOrderId = legNames start (ex.position symbol) target := by
  unfold legs legNames
  simp only
  split
  · rfl
  · split <;> rfl

theorem mem_legNames {current : ℚ} (h : name ∈ legNames start current target) :
    ∃ suffix ∈ legSuffixes, name = start ++ suffix := by
  unfold legNames at h
  split at h
  · cases h
  · split at h
    · exact ⟨"-single", by simp [legSuffixes], List.mem_singleton.mp h⟩
    · rcases List.mem_pair.mp h with rfl | rfl
      · exact ⟨"-close", by simp [legSuffixes], rfl⟩
      · exact ⟨"-open", by simp [legSuffixes], rfl⟩

/-- The legs are accepted when their ids are usable and the kill switch allows
them. -/
theorem legs_accepted (usable : ∀ name ∈ legNames start (ex.position symbol) target, ex.Usable name)
    (allows : ex.assertAllowsExecution = .ok ()) (positive : 0 < mark) (ts : DateTime) :
    AcceptsAll (ex.legs start symbol target mark ts) ex := by
  unfold legNames at usable
  unfold legs
  simp only
  by_cases reached : ex.position symbol = target
  · rw [if_pos reached]
    trivial
  rw [if_neg reached] at usable ⊢
  by_cases single : ex.position symbol = 0 ∨ target = 0 ∨ 0 < ex.position symbol * target
  · rw [if_pos single] at usable ⊢
    exact ⟨⟨sub_ne_zero.mpr (Ne.symm reached), positive, allows, checkReduceOnly_free rfl,
      usable _ (List.mem_singleton_self _)⟩, trivial⟩
  · rw [if_neg single] at usable ⊢
    simp only [not_or] at single
    have closes : -ex.position symbol ≠ 0 := neg_ne_zero.mpr single.1
    refine ⟨⟨closes, positive, allows, checkReduceOnly_close rfl closes, usable _ List.mem_cons_self⟩,
      ⟨single.2.1, positive, allows, checkReduceOnly_free rfl, ?_⟩, trivial⟩
    refine (usable (start ++ "-open") (by simp)).settled ?_
    intro same
    exact absurd ((String.append_right_inj start).mp same) (by decide)

/-- Accepted orders had usable ids from the start. -/
theorem AcceptsAll.usable (accepts : AcceptsAll orders ex) : ∀ o ∈ orders, ex.Usable o.clientOrderId := by
  induction orders generalizing ex with
  | nil => exact fun _ member => absurd member List.not_mem_nil
  | cons o orders ih =>
    intro p member
    rcases List.mem_cons.mp member with rfl | later
    · exact accepts.1.usable
    · exact (ih accepts.2 p later).of_settled.2

/-- An id that is usable after some orders were settled was usable before. -/
theorem Usable.of_foldl_settled (usable : (orders.foldl PaperExecutor.settled ex).Usable name) : ex.Usable name := by
  induction orders generalizing ex with
  | nil => exact usable
  | cons o orders ih => exact (ih usable).of_settled.2

theorem Usable.foldl_settled (usable : ex.Usable name) (others : ∀ o ∈ orders, name ≠ o.clientOrderId) :
    (orders.foldl PaperExecutor.settled ex).Usable name :=
  Run.foldl_invariant (P := fun ex => PaperExecutor.Usable ex name) (fun _ o member usable => usable.settled (others o member))
    usable

theorem foldl_settled_allows (ex : PaperExecutor) (orders : List MarketOrder) :
    (orders.foldl PaperExecutor.settled ex).assertAllowsExecution = ex.assertAllowsExecution :=
  Run.foldl_frame PaperExecutor.assertAllowsExecution (fun _ _ => settled_allows) ex orders

/-- Orders of one symbol move its position by their sum, and no other. -/
theorem foldl_settled_position (one : ∀ o ∈ orders, o.symbol = symbol) (ex : PaperExecutor) (s : String) :
    (orders.foldl PaperExecutor.settled ex).position s =
      if s = symbol then ex.position s + (orders.map MarketOrder.qty).sum else ex.position s := by
  induction orders generalizing ex with
  | nil => simp
  | cons o orders ih =>
    rw [List.foldl_cons, ih (fun p later => one p (List.mem_cons_of_mem _ later)), settled_position,
      one o List.mem_cons_self, List.map_cons, List.sum_cons]
    by_cases own : s = symbol
    · simp only [if_pos own, add_assoc]
    · simp only [if_neg own]

/-- The legs, once settled, take the symbol to its target and leave the others. -/
theorem legs_position (ex : PaperExecutor) (start symbol : String) (target mark : ℚ) (ts : DateTime) :
    ((ex.legs start symbol target mark ts).foldl settled ex).position = Function.update ex.position symbol target := by
  funext s
  rw [foldl_settled_position (fun o member => (mem_legs member).2.1), Function.update_apply]
  by_cases own : s = symbol
  · rw [if_pos own, if_pos own, own]
    exact sum_legs ex start symbol target mark ts
  · rw [if_neg own, if_neg own]

/-- The fills of accepted orders are appended. -/
theorem foldl_settled_fills (accepts : AcceptsAll orders ex) :
    (orders.foldl PaperExecutor.settled ex).fills.values = ex.fills.values ++ orders.map ex.fillOf := by
  induction orders generalizing ex with
  | nil => simp
  | cons o orders ih =>
    rw [List.foldl_cons, ih accepts.2, settled_fills accepts.1.usable, List.append_assoc]
    rfl

end Orders

end PaperExecutor

/-! ## What a run needs -/

namespace EventReplayer
open PaperExecutor (legNames legSuffixes Usable)

section Needs
variable (symbol : Option String) (targetQtyFn : MarketEvent → ℚ)

/-- The tracked positions after an event, when its target is reached. -/
def reached (position : String → ℚ) (event : MarketEvent) : String → ℚ :=
  if replays symbol event = false then position else Function.update position event.symbol (targetQtyFn event)

/-- The order ids a run needs: for each replayed event those that take its symbol
from the target of its previous event to its own. -/
def neededIds (orderIdPrefix : String) : (String → ℚ) → Numbered → List String
  | _, [] => []
  | position, (event, idx) :: rest =>
    (if replays symbol event = false then []
      else legNames s!"{orderIdPrefix}-{idx}" (position event.symbol) (targetQtyFn event)) ++
      neededIds orderIdPrefix (reached symbol targetQtyFn position event) rest

end Needs

section Loop
variable {symbol : Option String} {targetQtyFn : MarketEvent → ℚ} {start : String} {items : Numbered}
  {ex : PaperExecutor} {fills : List Fill}

theorem legNames_eq_nil {start : String} {current target : ℚ} : legNames start current target = [] ↔ current = target := by
  unfold legNames
  by_cases reached : current = target
  · simp [reached]
  · rw [if_neg reached]
    split <;> simp [reached]

theorem reached_of_at {position : String → ℚ} {event : MarketEvent} (at_ : position event.symbol = targetQtyFn event) :
    reached symbol targetQtyFn position event = position := by
  unfold reached
  split
  · rfl
  · rw [← at_, Function.update_eq_self]

/-- An event that is skipped, or that finds its target reached, needs no id and
leaves everything as it is. -/
theorem event_idle {event : MarketEvent} {idx : ℕ}
    (idle : replays symbol event = false ∨ ex.position event.symbol = targetQtyFn event) :
    replayLoop symbol targetQtyFn start ((event, idx) :: items) fills ex =
        replayLoop symbol targetQtyFn start items fills ex ∧
      neededIds symbol targetQtyFn start ex.position ((event, idx) :: items) =
        neededIds symbol targetQtyFn start ex.position items ∧
      reached symbol targetQtyFn ex.position event = ex.position := by
  have same : reached symbol targetQtyFn ex.position event = ex.position := by
    rcases idle with skipped | at_
    · exact if_pos skipped
    · exact reached_of_at at_
  refine ⟨?_, ?_, same⟩
  · rw [replayLoop]
    rcases idle with skipped | at_
    · rw [if_pos skipped]
    · rw [if_pos at_]
      split <;> rfl
  · rw [neededIds, same]
    rcases idle with skipped | at_
    · rw [if_pos skipped, List.nil_append]
    · rw [legNames_eq_nil.mpr at_]
      split <;> rfl

/-- A needed id belongs to one of the numbers. -/
theorem mem_neededIds {position : String → ℚ} {name : String}
    (h : name ∈ neededIds symbol targetQtyFn start position items) :
    ∃ idx ∈ items.map Prod.snd, ∃ suffix ∈ legSuffixes, name = start ++ "-" ++ toString idx ++ suffix := by
  induction items generalizing position with
  | nil => cases h
  | cons item rest ih =>
    obtain ⟨event, idx⟩ := item
    rcases List.mem_append.mp h with here | later
    · split at here
      · cases here
      · exact ⟨idx, List.mem_cons_self, PaperExecutor.mem_legNames here⟩
    · obtain ⟨idx, member, suffix, among, named⟩ := ih later
      exact ⟨idx, List.mem_cons_of_mem _ member, suffix, among, named⟩

/-- **A run whose ids are usable follows its targets.** -/
theorem replayLoop_follows (positive : ∀ item ∈ items, 0 < item.1.close) (apart : (items.map Prod.snd).Nodup)
    (usable : ∀ name ∈ neededIds symbol targetQtyFn start ex.position items, ex.Usable name)
    (allows : neededIds symbol targetQtyFn start ex.position items ≠ [] → ex.assertAllowsExecution = .ok ()) :
    ∃ stored ex', replayLoop symbol targetQtyFn start items fills ex = (.ok ⟨fills ++ stored⟩, ex') ∧
      ex'.fills.values = ex.fills.values ++ stored ∧
      ex'.position = items.foldl (fun position item => reached symbol targetQtyFn position item.1) ex.position := by
  induction items generalizing ex fills with
  | nil => exact ⟨[], ex, by rw [List.append_nil]; rfl, (List.append_nil _).symm, rfl⟩
  | cons item rest ih =>
    obtain ⟨event, idx⟩ := item
    have later : ∀ item ∈ rest, 0 < item.1.close := fun item member => positive item (List.mem_cons_of_mem _ member)
    obtain ⟨fresh, apart⟩ := List.nodup_cons.mp apart
    rw [List.foldl_cons]
    by_cases idle : replays symbol event = false ∨ ex.position event.symbol = targetQtyFn event
    · obtain ⟨loop, needed, same⟩ := @event_idle symbol targetQtyFn start rest ex fills event idx idle
      rw [needed] at usable allows
      rw [loop, same]
      exact ih later apart usable allows
    obtain ⟨skipped, at_⟩ := not_or.mp idle
    unfold replayLoop
    unfold neededIds at usable allows
    rw [if_neg skipped] at usable allows ⊢
    -- the legs of the event are settled, and the ids of the later events stay usable
    have trades : legNames s!"{start}-{idx}" (ex.position event.symbol) (targetQtyFn event) ≠ [] :=
      fun none_ => at_ (legNames_eq_nil.mp none_)
    have allows : ex.assertAllowsExecution = .ok () := allows (List.append_ne_nil_of_left_ne_nil trades _)
    let orders := ex.legs s!"{start}-{idx}" event.symbol (targetQtyFn event) event.close event.ts
    have accepted : PaperExecutor.AcceptsAll orders ex :=
      PaperExecutor.legs_accepted (fun name member => usable name (List.mem_append_left _ member)) allows
        (positive _ List.mem_cons_self) event.ts
    have next : reached symbol targetQtyFn ex.position event = (orders.foldl PaperExecutor.settled ex).position :=
      (if_neg skipped).trans (ex.legs_position _ _ _ _ _).symm
    rw [next] at usable ⊢
    have stays : ∀ name ∈ neededIds symbol targetQtyFn start (orders.foldl PaperExecutor.settled ex).position rest,
        (orders.foldl PaperExecutor.settled ex).Usable name := by
      intro name member
      refine (usable name (List.mem_append_right _ member)).foldl_settled ?_
      intro o among same
      obtain ⟨idx', number, suffix', among', named'⟩ := mem_neededIds member
      obtain ⟨⟨suffix, among, named⟩, -⟩ := PaperExecutor.mem_legs among
      have equal := PaperExecutor.numbered_inj among' among (named'.symm.trans (same.trans named))
      exact fresh (equal ▸ number)
    obtain ⟨stored, ex', run, values, positions⟩ := @ih _ (fills ++ orders.map ex.fillOf) later apart stays
      (fun _ => (PaperExecutor.foldl_settled_allows _ _).trans allows)
    refine ⟨orders.map ex.fillOf ++ stored, ex', ?_, ?_, positions⟩
    · rw [if_neg at_, PaperExecutor.executeToTarget_legs, PaperExecutor.executeAll_accepted accepted]
      simp only
      rw [run, List.append_assoc]
    · rw [values, PaperExecutor.foldl_settled_fills accepted, List.append_assoc]

/-- **What a run stores**: at most the fills it returns, and as many only if its
ids were usable. -/
theorem replayLoop_counts {result : BacktestResult} {ex' : PaperExecutor}
    (run : replayLoop symbol targetQtyFn start items fills ex = (.ok result, ex')) :
    ∃ returned stored, result.fills = fills ++ returned ∧ ex'.fills.values = ex.fills.values ++ stored ∧
      stored.length ≤ returned.length ∧ (stored.length = returned.length →
        (∀ name ∈ neededIds symbol targetQtyFn start ex.position items, ex.Usable name) ∧
        (neededIds symbol targetQtyFn start ex.position items ≠ [] → ex.assertAllowsExecution = .ok ())) := by
  induction items generalizing ex fills with
  | nil =>
    cases run
    exact ⟨[], [], (List.append_nil _).symm, (List.append_nil _).symm, le_rfl,
      fun _ => ⟨fun _ member => absurd member List.not_mem_nil, fun some_ => absurd rfl some_⟩⟩
  | cons item rest ih =>
    obtain ⟨event, idx⟩ := item
    by_cases idle : replays symbol event = false ∨ ex.position event.symbol = targetQtyFn event
    · obtain ⟨loop, needed, -⟩ := @event_idle symbol targetQtyFn start rest ex fills event idx idle
      rw [loop] at run
      rw [needed]
      exact ih run
    obtain ⟨skipped, at_⟩ := not_or.mp idle
    unfold replayLoop at run
    unfold neededIds
    rw [if_neg skipped] at run ⊢
    rw [if_neg at_, PaperExecutor.executeToTarget_legs] at run
    cases legs : PaperExecutor.executeAll (ex.legs s!"{start}-{idx}" event.symbol (targetQtyFn event) event.close
      event.ts) ex with
    | mk answer ex₁ =>
      rw [legs] at run
      cases answer with
      | error e => cases run
      | ok legFills =>
        obtain ⟨stored₁, values₁, fewer₁, all₁⟩ := PaperExecutor.executeAll_ok legs
        obtain ⟨returned, stored, fills_, values, fewer, all⟩ := ih run
        refine ⟨legFills ++ returned, stored₁ ++ stored, ?_, ?_, ?_, fun same => ?_⟩
        · rw [fills_, List.append_assoc]
        · rw [values, values₁, List.append_assoc]
        · rw [List.length_append, List.length_append]
          omega
        rw [List.length_append, List.length_append] at same
        have accepted := all₁ (by omega)
        obtain ⟨usable, -⟩ := all (by omega)
        -- every leg was settled, so the later events started from the target
        have settled : ex₁ = _ := (Prod.mk.inj (legs.symm.trans (PaperExecutor.executeAll_accepted accepted))).2
        have next : ex₁.position = reached symbol targetQtyFn ex.position event := by
          rw [settled, PaperExecutor.legs_position]
          exact (if_neg skipped).symm
        rw [next, settled] at usable
        refine ⟨fun name member => ?_, fun _ => ?_⟩
        · rcases List.mem_append.mp member with here | later
          · rw [← ex.names_legs s!"{start}-{idx}" event.symbol (targetQtyFn event) event.close event.ts] at here
            obtain ⟨o, among, rfl⟩ := List.mem_map.mp here
            exact accepted.usable o among
          · exact (usable name later).of_foldl_settled
        · cases orders : ex.legs s!"{start}-{idx}" event.symbol (targetQtyFn event) event.close event.ts with
          | nil => exact absurd (PaperExecutor.legs_eq_nil.mp orders) at_
          | cons o orders_ =>
            rw [orders] at accepted
            exact accepted.1.allows

/-- The positions that a list of events leaves: the target of the last replayed
event of a symbol. -/
theorem foldl_reached (events : List MarketEvent) (position : String → ℚ) {s : String} {event : MarketEvent}
    (last : (events.filter fun e => replays symbol e && decide (e.symbol = s)).getLast? = some event) :
    events.foldl (reached symbol targetQtyFn) position s = targetQtyFn event := by
  induction events using List.reverseRecOn with
  | nil => cases last
  | append_singleton events e ih =>
    rw [List.foldl_append, List.foldl_cons, List.foldl_nil]
    rw [List.filter_append] at last
    unfold reached
    by_cases skipped : replays symbol e = false
    · rw [if_pos skipped]
      rw [List.filter_cons_of_neg (by simp [skipped]), List.filter_nil, List.append_nil] at last
      exact ih last
    rw [if_neg skipped, Function.update_apply]
    by_cases own : s = e.symbol
    · rw [List.filter_cons_of_pos (by simp [skipped, own]), List.filter_nil, List.getLast?_concat] at last
      rw [if_pos own, Option.some.inj last]
    · rw [List.filter_cons_of_neg (by simp [Ne.symm own]), List.filter_nil, List.append_nil] at last
      rw [if_neg own]
      exact ih last

end Loop

section Run
variable (r : EventReplayer) (events : List MarketEvent) (targetQtyFn : MarketEvent → ℚ) (orderIdPrefix : String)

/-- The run returns, leaves each replayed symbol at the target of its last event,
and the fills it returns are the trades the executor made for it. -/
def ReachesTargets : Prop :=
  ∃ result r', r.run events targetQtyFn orderIdPrefix = (.ok result, r') ∧
    (∀ symbol event,
      ((sortedByTs events).filter fun e => replays r.symbol e && decide (e.symbol = symbol)).getLast? = some event →
        r'.executor.position symbol = targetQtyFn event) ∧
    r'.executor.fills.values = r.executor.fills.values ++ result.fills

/-- No id that the run needs is used up, and the kill switch allows it to trade
if it has to. -/
structure Unobstructed : Prop where
  usable : ∀ name ∈ neededIds r.symbol targetQtyFn orderIdPrefix r.executor.position (numbered events),
    r.executor.Usable name
  allows : neededIds r.symbol targetQtyFn orderIdPrefix r.executor.position (numbered events) ≠ [] →
    r.executor.assertAllowsExecution = .ok ()

/-- **A replay reaches its targets** exactly when nothing is in its way: from any
state of the executor, for any events with positive closes. -/
theorem replay_iff (positive : ∀ event ∈ events, 0 < event.close) :
    r.ReachesTargets events targetQtyFn orderIdPrefix ↔ r.Unobstructed events targetQtyFn orderIdPrefix := by
  have ordered : (numbered events).map Prod.fst = sortedByTs events := List.zipIdx_map_fst _ _
  constructor
  · rintro ⟨result, r', run, -, traded⟩
    obtain ⟨ran, same⟩ := Prod.mk.inj run
    have looped : replayLoop r.symbol targetQtyFn orderIdPrefix (numbered events) [] r.executor =
        (.ok result, r'.executor) := by
      rw [← same]
      exact Prod.ext ran rfl
    obtain ⟨returned, stored, fills, values, -, all⟩ := replayLoop_counts looped
    rw [List.nil_append] at fills
    rw [values, fills] at traded
    obtain ⟨usable, allows⟩ := all (congrArg List.length (List.append_cancel_left traded))
    exact ⟨usable, allows⟩
  · rintro ⟨usable, allows⟩
    have closes : ∀ item ∈ numbered events, 0 < item.1.close := by
      intro item member
      refine positive item.1 (mem_sortedByTs.mp ?_)
      rw [← ordered]
      exact List.mem_map_of_mem member
    have apart : ((numbered events).map Prod.snd).Nodup := by
      unfold numbered
      rw [List.zipIdx_map_snd]
      exact List.nodup_range'
    obtain ⟨stored, ex', run, values, positions⟩ :=
      @replayLoop_follows r.symbol targetQtyFn orderIdPrefix _ r.executor [] closes apart usable allows
    refine ⟨⟨[] ++ stored⟩, { r with executor := ex' }, ?_, fun symbol event last => ?_, values⟩
    · unfold EventReplayer.run
      rw [run]
    · show ex'.position symbol = _
      rw [positions]
      rw [← List.foldl_map, ordered]
      exact foldl_reached _ _ last

end Run

/-- One event. -/
def tick : MarketEvent := ⟨"BTCUSDT", .m1, 100, 0, "test"⟩

/-- A new executor has used up no id, so its first run reaches its targets. -/
theorem replay_iff_first :
    ∃ ex, PaperExecutor.new OMS.init 4 2 = .ok ex ∧ (⟨ex, none⟩ : EventReplayer).ReachesTargets [tick] (fun _ => 1) "bt" := by
  obtain ⟨ex, built⟩ := PaperExecutor.exists_new (by norm_num : (0 : ℚ) ≤ 4) (by norm_num : (0 : ℚ) ≤ 2) OMS.init none
  have positive : ∀ event ∈ [tick], 0 < event.close := by decide +kernel
  have allows : ex.assertAllowsExecution = .ok () := by
    unfold PaperExecutor.new at built
    split at built
    · cases built
    · cases built
      rfl
  exact ⟨ex, built, (replay_iff ⟨ex, none⟩ [tick] (fun _ => 1) "bt" positive).mpr
    ⟨fun name _ => (PaperExecutor.fresh_new built name).usable, fun _ => allows⟩⟩

/-- A second run under the default prefix finds its only id used up: the position
stays at one although the target is zero. -/
theorem replay_misses_second :
    ∃ ex, PaperExecutor.new OMS.init 4 2 = .ok ex ∧
      ¬ ((⟨ex, none⟩ : EventReplayer).run [tick] fun _ => 1).2.ReachesTargets [tick] (fun _ => 0) "bt" := by
  obtain ⟨ex, built, check⟩ := Run.endsIn_iff.mp (show Run.endsIn (PaperExecutor.new OMS.init 4 2) (fun ex =>
    decide ((((⟨ex, none⟩ : EventReplayer).run [tick] fun _ => 1).2.run [tick] fun _ => 0).2.executor.position
      "BTCUSDT" = 1)) = true by decide +kernel)
  refine ⟨ex, built, ?_⟩
  rintro ⟨result, r', run, targets, -⟩
  have stays := of_decide_eq_true check
  rw [run] at stays
  have flat : r'.executor.position "BTCUSDT" = 0 := targets "BTCUSDT" tick (by rfl)
  rw [flat] at stays
  exact absurd stays (by norm_num)

end EventReplayer

end CryptoQuant
