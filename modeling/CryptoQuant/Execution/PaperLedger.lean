import CryptoQuant.Execution.Paper
import CryptoQuant.Lib.Run

/-!
# The ledger of the paper executor

One `execute_market` call refuses its order and changes nothing, answers the fill
it already has and changes nothing, or settles the order in the three stores at
once. So fills, positions and orders agree after any run.
-/

namespace CryptoQuant
set_option autoImplicit false

namespace PaperExecutor

/-- An order can be executed under the id: it has no fill, and an order stored
under it is still `NEW`. -/
structure Usable (ex : PaperExecutor) (name : String) : Prop where
  unfilled : ex.fills.get? name = none
  new : ∀ order, ex.oms.get name = some order → order.status = .new

/-- The order passes every check of `execute_market`. -/
structure Accepts (ex : PaperExecutor) (o : MarketOrder) : Prop where
  qty : o.qty ≠ 0
  mark : 0 < o.markPrice
  allows : ex.assertAllowsExecution = .ok ()
  reduces : ex.checkReduceOnly o = .ok ()
  usable : ex.Usable o.clientOrderId

/-- The executor with the order settled: filled in the order management system,
its fill stored, its quantity booked. -/
def settled (ex : PaperExecutor) (o : MarketOrder) : PaperExecutor :=
  let order := (ex.oms.submit o.clientOrderId o.symbol o.qty).1
  { ex with
    oms := { orders := (ex.oms.submit o.clientOrderId o.symbol o.qty).2.orders.set o.clientOrderId
               (order.moveTo .filled id) }
    fills := ex.fills.set o.clientOrderId (ex.fillOf o)
    positionQty := ex.positionQty.set o.symbol (ex.position o.symbol + o.qty) }

/-- **What one order can do**, one constructor per way `execute_market` ends. -/
inductive Executed (ex : PaperExecutor) (o : MarketOrder) : Except PyError Fill × PaperExecutor → Prop where
  | refused (e : PyError) (unacceptable : ¬ ex.Accepts o) : Executed ex o (.error e, ex)
  | repeated (fill : Fill) (known : ex.fills.get? o.clientOrderId = some fill) : Executed ex o (.ok fill, ex)
  | settled (accepts : ex.Accepts o) : Executed ex o (.ok (ex.fillOf o), ex.settled o)

section Step
variable {ex : PaperExecutor} {o : MarketOrder}

/-- The order that `submit` answers is `NEW` when the id is usable. -/
theorem Usable.submitted (usable : ex.Usable o.clientOrderId) :
    (ex.oms.submit o.clientOrderId o.symbol o.qty).1.status = .new := by
  cases found : ex.oms.get o.clientOrderId with
  | some order =>
    rw [OMS.submit_of_some _ _ _ _ found]
    exact usable.new order found
  | none => rw [OMS.submit_of_none _ _ _ _ found]

/-- From the submit on, an order under a usable id is settled. -/
theorem submitAndFill_usable (usable : ex.Usable o.clientOrderId) :
    ex.submitAndFill o = (.ok (ex.fillOf o), ex.settled o) := by
  have stored := OMS.get_submit_self ex.oms o.clientOrderId o.symbol o.qty
  have filled := @OMS.transition_of_new _ _ .filled id _ stored usable.submitted
  have isNew := usable.submitted
  unfold submitAndFill settled
  generalize ex.oms.submit o.clientOrderId o.symbol o.qty = submitted at stored filled isNew
  simp only [isNew, OMS.fill, filled]
  rfl

/-- From the submit on, an order without a fill and under no usable id is refused. -/
theorem submitAndFill_unusable (unfilled : ex.fills.get? o.clientOrderId = none) (unusable : ¬ ex.Usable o.clientOrderId) :
    ∃ e, ex.submitAndFill o = (.error e, ex) := by
  have closed : ∃ order, ex.oms.get o.clientOrderId = some order ∧ order.status ≠ .new := by
    by_contra none_
    simp only [not_exists, not_and, not_not] at none_
    exact unusable ⟨unfilled, none_⟩
  obtain ⟨order, found, closed⟩ := closed
  unfold submitAndFill
  rw [OMS.submit_of_some _ _ _ _ found]
  simp only
  cases status : order.status with
  | new => exact absurd status closed
  | filled =>
    refine ⟨.keyError, ?_⟩
    simp only [getItem, unfilled]
  | canceled => exact ⟨_, rfl⟩
  | rejected => exact ⟨_, rfl⟩

/-- **Step lemma**: every call of `execute_market` ends in one of the three ways. -/
theorem executeMarket_executed (ex : PaperExecutor) (o : MarketOrder) : Executed ex o (ex.executeMarket o) := by
  unfold executeMarket
  by_cases qty : o.qty = 0
  · rw [if_pos qty]
    exact .refused _ fun accepts => accepts.qty qty
  rw [if_neg qty]
  by_cases mark : o.markPrice ≤ 0
  · rw [if_pos mark]
    exact .refused _ fun accepts => absurd accepts.mark (not_lt.mpr mark)
  rw [if_neg mark]
  cases allows : ex.assertAllowsExecution with
  | error e => exact .refused _ fun accepts => by cases allows.symm.trans accepts.allows
  | ok u =>
    cases known : ex.fills.get? o.clientOrderId with
    | some fill => exact .repeated fill known
    | none =>
      cases reduces : ex.checkReduceOnly o with
      | error e => exact .refused _ fun accepts => by cases reduces.symm.trans accepts.reduces
      | ok u =>
        simp only
        by_cases usable : ex.Usable o.clientOrderId
        · rw [submitAndFill_usable usable]
          exact .settled ⟨qty, not_le.mp mark, allows, reduces, usable⟩
        · obtain ⟨e, refused⟩ := submitAndFill_unusable known usable
          rw [refused]
          exact .refused e fun accepts => usable accepts.usable

/-- An order that passes every check is settled. -/
theorem executeMarket_accepted (accepts : ex.Accepts o) : ex.executeMarket o = (.ok (ex.fillOf o), ex.settled o) := by
  have outcome := executeMarket_executed ex o
  generalize ex.executeMarket o = result at outcome
  cases outcome with
  | refused e unacceptable => exact absurd accepts unacceptable
  | repeated fill known => cases accepts.usable.unfilled.symm.trans known
  | settled accepts => rfl

/-- What every market order keeps, `execute_to_target` keeps: it makes at most two. -/
theorem executeToTarget_keeps {P : PaperExecutor → Prop} (keep : ∀ ex o, P ex → P (executeMarket ex o).2) (h : P ex)
    (start symbol : String) (currentQty targetQty markPrice : ℚ) (ts : DateTime) :
    P (ex.executeToTarget start symbol currentQty targetQty markPrice ts).2 := by
  unfold executeToTarget
  split
  · exact h
  · split
    · have single := keep ex { clientOrderId := s!"{start}-single", symbol, qty := targetQty - currentQty, markPrice, ts } h
      split <;> rename_i result <;> rw [result] at single <;> exact single
    · simp only
      generalize decide (ex.positionQty.get? symbol ≠ none ∧ ex.positionQty.get? symbol ≠ some 0) = reduceOnly
      have close := keep ex
        { clientOrderId := s!"{start}-close", symbol, qty := -currentQty, markPrice, ts, reduceOnly } h
      split <;> rename_i result <;> rw [result] at close
      · exact close
      · have open_ := keep _ { clientOrderId := s!"{start}-open", symbol, qty := targetQty, markPrice, ts } close
        split <;> rename_i result <;> rw [result] at open_ <;> exact open_

/-- The fill of a settled order is appended. -/
theorem settled_fills (usable : ex.Usable o.clientOrderId) :
    (ex.settled o).fills.values = ex.fills.values ++ [ex.fillOf o] := by
  have absent := Py.Dict.get?_eq_none_iff.mp usable.unfilled
  show (ex.fills.set _ _).items.map Prod.snd = ex.fills.items.map Prod.snd ++ [ex.fillOf o]
  rw [Py.Dict.items_set_of_not_mem absent, List.map_append]
  rfl

/-- Only the symbol of a settled order moves. -/
theorem settled_position (ex : PaperExecutor) (o : MarketOrder) (symbol : String) :
    (ex.settled o).position symbol = if symbol = o.symbol then ex.position symbol + o.qty else ex.position symbol := by
  show (ex.positionQty.set _ _).getD symbol 0 = _
  rw [Py.Dict.getD_set]
  by_cases own : symbol = o.symbol
  · rw [if_pos own, if_pos own, own]
  · rw [if_neg own, if_neg own]
    rfl

@[simp] theorem settled_allows : (ex.settled o).assertAllowsExecution = ex.assertAllowsExecution := rfl

/-- The order stored under an id after an order was settled. -/
theorem settled_oms (ex : PaperExecutor) (o : MarketOrder) (name : String) :
    (ex.settled o).oms.get name =
      if name = o.clientOrderId then some ((ex.oms.submit o.clientOrderId o.symbol o.qty).1.moveTo .filled id)
      else ex.oms.get name := by
  show ((ex.oms.submit _ _ _).2.orders.set _ _).get? name = _
  rw [Py.Dict.get?_set]
  by_cases own : name = o.clientOrderId
  · rw [if_pos own, if_pos own]
  · rw [if_neg own, if_neg own]
    exact OMS.get_submit_ne _ _ _ _ own

end Step

/-! ## Runs -/

/-- The calls that reach an executor; its kill switch is moved by others. -/
inductive Action
  | market (o : MarketOrder)
  | toTarget (clientOrderIdPrefix symbol : String) (currentQty targetQty markPrice : ℚ) (ts : DateTime)
  | switch (killSwitch : Option KillSwitch)

/-- The executor as a component that answers calls. -/
def machine : Run.Machine PaperExecutor Action (Except PyError (List Fill)) where
  call ex action :=
    match action with
    | .market o => ((ex.executeMarket o).1.map fun fill => [fill], (ex.executeMarket o).2)
    | .toTarget start symbol currentQty targetQty markPrice ts =>
      ex.executeToTarget start symbol currentQty targetQty markPrice ts
    | .switch killSwitch => (.ok [], { ex with killSwitch })

/-- **The three stores agree**: positions add up the fills, fills stand under
their own ids, an order is filled exactly when it has a fill, and every order
is. -/
structure Ledgered (ex : PaperExecutor) : Prop where
  position : ∀ symbol, ex.position symbol = Ledger.position (ex.fills.values.map Fill.trade) symbol
  keyed : ∀ item ∈ ex.fills.items, item.2.clientOrderId = item.1
  filled : ∀ name, (∃ fill, ex.fills.get? name = some fill) ↔ ∃ order, ex.oms.get name = some order
  closed : ∀ name order, ex.oms.get name = some order → order.status = .filled

section Run
variable {ex : PaperExecutor} {o : MarketOrder}

/-- A new executor over a new order management system. -/
theorem new_ledgered {feeBps slippageBps : ℚ} {killSwitch : Option KillSwitch}
    (built : new OMS.init feeBps slippageBps killSwitch = .ok ex) : ex.Ledgered := by
  unfold new at built
  split at built
  · cases built
  · cases built
    refine ⟨fun _ => rfl, fun _ member => absurd member List.not_mem_nil, fun name => ?_, fun name order found => ?_⟩
    · constructor <;> rintro ⟨_, ⟨⟩⟩
    · cases found

/-- **Settling keeps the stores in agreement.** -/
theorem Ledgered.settled (h : ex.Ledgered) (usable : ex.Usable o.clientOrderId) : (ex.settled o).Ledgered where
  position := by
    intro symbol
    rw [settled_fills usable, List.map_append, List.map_singleton, Ledger.position_snoc, settled_position, h.position]
    show _ = if o.symbol = symbol then _ + o.qty else _
    by_cases own : symbol = o.symbol
    · rw [if_pos own, if_pos own.symm]
    · rw [if_neg own, if_neg (Ne.symm own)]
  keyed := by
    intro item member
    have absent := Py.Dict.get?_eq_none_iff.mp usable.unfilled
    have items : (ex.settled o).fills.items = ex.fills.items ++ [(o.clientOrderId, ex.fillOf o)] :=
      Py.Dict.items_set_of_not_mem absent _
    rw [items, List.mem_append, List.mem_singleton] at member
    rcases member with old | rfl
    · exact h.keyed item old
    · rfl
  filled := by
    intro name
    show (∃ fill, (ex.fills.set _ _).get? name = some fill) ↔ _
    rw [Py.Dict.get?_set, settled_oms]
    by_cases own : name = o.clientOrderId
    · rw [if_pos own, if_pos own]
      exact ⟨fun _ => ⟨_, rfl⟩, fun _ => ⟨_, rfl⟩⟩
    · rw [if_neg own, if_neg own]
      exact h.filled name
  closed := by
    intro name order found
    rw [settled_oms] at found
    by_cases own : name = o.clientOrderId
    · rw [if_pos own] at found
      cases found
      rfl
    · rw [if_neg own] at found
      exact h.closed name order found

theorem Ledgered.executeMarket (h : ex.Ledgered) (o : MarketOrder) : (ex.executeMarket o).2.Ledgered := by
  have outcome := executeMarket_executed ex o
  generalize PaperExecutor.executeMarket ex o = result at outcome
  cases outcome with
  | refused e unacceptable => exact h
  | repeated fill known => exact h
  | settled accepts => exact h.settled accepts.usable

/-- **Step lemma.** -/
theorem Ledgered.step (h : ex.Ledgered) (action : Action) : (machine.next ex action).Ledgered := by
  cases action with
  | market o => exact h.executeMarket o
  | toTarget start symbol currentQty targetQty markPrice ts =>
    exact executeToTarget_keeps (fun ex o h => h.executeMarket o) h start symbol currentQty targetQty markPrice ts
  | switch killSwitch => exact ⟨h.position, h.keyed, h.filled, h.closed⟩

/-- The fills have different ids. -/
theorem Ledgered.nodup (h : ex.Ledgered) : (ex.fills.values.map Fill.clientOrderId).Nodup := by
  have ids : ex.fills.values.map Fill.clientOrderId = ex.fills.keys := by
    unfold Py.Dict.values Py.Dict.keys
    rw [List.map_map]
    exact List.map_congr_left h.keyed
  rw [ids]
  exact ex.fills.nodup_keys

/-- An id has a fill exactly when its order is filled. -/
theorem Ledgered.fill_iff (h : ex.Ledgered) (name : String) :
    (∃ fill ∈ ex.fills.values, fill.clientOrderId = name) ↔
      ∃ order, ex.oms.get name = some order ∧ order.status = .filled := by
  have stored : (∃ fill ∈ ex.fills.values, fill.clientOrderId = name) ↔ ∃ fill, ex.fills.get? name = some fill := by
    constructor
    · rintro ⟨fill, member, own⟩
      obtain ⟨item, stored, rfl⟩ := List.mem_map.mp member
      have key : item.1 = name := (h.keyed item stored).symm.trans own
      exact ⟨item.2, key ▸ Py.Dict.get?_of_mem stored⟩
    · rintro ⟨fill, found⟩
      have item := Py.Dict.mem_of_get? found
      exact ⟨fill, List.mem_map.mpr ⟨_, item, rfl⟩, h.keyed _ item⟩
  rw [stored, h.filled]
  exact ⟨fun ⟨order, found⟩ => ⟨order, found, h.closed name order found⟩, fun ⟨order, found, _⟩ => ⟨order, found⟩⟩

/-- An order that raises, or whose id is known, changes nothing. -/
theorem Ledgered.unchanged (h : ex.Ledgered)
    (idle : (∃ e, (PaperExecutor.executeMarket ex o).1 = .error e) ∨ ex.oms.get o.clientOrderId ≠ none) :
    (PaperExecutor.executeMarket ex o).2 = ex := by
  have outcome := executeMarket_executed ex o
  generalize PaperExecutor.executeMarket ex o = result at outcome idle
  cases outcome with
  | refused e unacceptable => rfl
  | repeated fill known => rfl
  | settled accepts =>
    rcases idle with ⟨e, raised⟩ | known
    · cases raised
    · obtain ⟨order, found⟩ := Option.ne_none_iff_exists'.mp known
      obtain ⟨fill, filled⟩ := (h.filled o.clientOrderId).mpr ⟨order, found⟩
      cases accepts.usable.unfilled.symm.trans filled

/-- What the reduce-only checks let through takes the position toward zero and
not beyond. -/
theorem reduced_between (reduceOnly : o.reduceOnly = true) (passes : ex.checkReduceOnly o = .ok ()) :
    (0 ≤ ex.position o.symbol + o.qty ∧ ex.position o.symbol + o.qty ≤ ex.position o.symbol) ∨
      (ex.position o.symbol ≤ ex.position o.symbol + o.qty ∧ ex.position o.symbol + o.qty ≤ 0) := by
  unfold checkReduceOnly at passes
  rw [reduceOnly] at passes
  simp only [if_true] at passes
  split at passes
  · cases passes
  rename_i opposite
  split at passes
  · cases passes
  rename_i within
  simp only [not_or, not_le] at opposite
  rw [not_lt] at within
  rcases lt_or_gt_of_ne opposite.1 with short | long
  · have qty : 0 < o.qty := by
      by_contra neg
      exact absurd opposite.2 (not_lt.mpr (mul_nonneg_of_nonpos_of_nonpos short.le (not_lt.mp neg)))
    rw [abs_of_pos qty, abs_of_neg short] at within
    right
    constructor <;> linarith
  · have qty : o.qty < 0 := by
      by_contra pos
      exact absurd opposite.2 (not_lt.mpr (mul_nonneg long.le (not_lt.mp pos)))
    rw [abs_of_neg qty, abs_of_pos long] at within
    left
    constructor <;> linarith

/-- A new reduce-only order that succeeds leaves the position between zero and
what it was. -/
theorem Ledgered.reduced (h : ex.Ledgered) (reduceOnly : o.reduceOnly = true)
    (fresh : ex.oms.get o.clientOrderId = none) {fill : Fill} (filled : (PaperExecutor.executeMarket ex o).1 = .ok fill) :
    let before := ex.position o.symbol
    let after := (PaperExecutor.executeMarket ex o).2.position o.symbol
    (0 ≤ after ∧ after ≤ before) ∨ (before ≤ after ∧ after ≤ 0) := by
  have outcome := executeMarket_executed ex o
  generalize PaperExecutor.executeMarket ex o = result at outcome filled
  cases outcome with
  | refused e unacceptable => cases filled
  | repeated fill known =>
    obtain ⟨order, found⟩ := (h.filled o.clientOrderId).mp ⟨fill, known⟩
    cases fresh.symm.trans found
  | settled accepts =>
    simp only [settled_position, if_true]
    exact reduced_between reduceOnly accepts.reduces

end Run

/-- **The paper ledger.** After every run of an executor that owns its order
management system: positions are the sums of the stored fills; an id has at most
one fill, and one exactly when its order is filled; an order that raises or
repeats an id changes nothing; and a new reduce-only order that succeeds leaves
the position between zero and what it was. -/
theorem paper_ledger {feeBps slippageBps : ℚ} {killSwitch : Option KillSwitch} {ex : PaperExecutor}
    (built : new OMS.init feeBps slippageBps killSwitch = .ok ex) (actions : List Action) :
    let st := machine.after ex actions
    (∀ symbol, st.position symbol = Ledger.position (st.fills.values.map Fill.trade) symbol) ∧
    (st.fills.values.map Fill.clientOrderId).Nodup ∧
    (∀ name, (∃ fill ∈ st.fills.values, fill.clientOrderId = name) ↔
      ∃ order, st.oms.get name = some order ∧ order.status = .filled) ∧
    (∀ o, ((∃ e, (st.executeMarket o).1 = .error e) ∨ st.oms.get o.clientOrderId ≠ none) → (st.executeMarket o).2 = st) ∧
    (∀ o fill, o.reduceOnly = true → st.oms.get o.clientOrderId = none → (st.executeMarket o).1 = .ok fill →
      let after := (st.executeMarket o).2.position o.symbol
      (0 ≤ after ∧ after ≤ st.position o.symbol) ∨ (st.position o.symbol ≤ after ∧ after ≤ 0)) := by
  intro st
  have ledgered : st.Ledgered := machine.always (new_ledgered built) (fun _ action h => h.step action) actions
  exact ⟨ledgered.position, ledgered.nodup, ledgered.fill_iff, fun o => ledgered.unchanged,
    fun o fill reduceOnly fresh filled => ledgered.reduced reduceOnly fresh filled⟩

/-- A buy, a reduce-only sell beyond the position, and one within it. -/
def reducing : List Action :=
  [.market ⟨"o-1", "BTCUSDT", 2, 100, 0, false⟩, .market ⟨"o-2", "BTCUSDT", -3, 100, 0, true⟩,
    .market ⟨"o-3", "BTCUSDT", -1, 100, 0, true⟩]

/-- The three orders leave a position of one, which is what the two fills add up
to. -/
theorem paper_ledger_reducing :
    ∃ ex, new OMS.init 4 2 = .ok ex ∧ (machine.after ex reducing).position "BTCUSDT" = 1 ∧
      Ledger.position ((machine.after ex reducing).fills.values.map Fill.trade) "BTCUSDT" = 1 := by
  obtain ⟨ex, built, check⟩ := Run.endsIn_iff.mp (show Run.endsIn (new OMS.init 4 2) (fun ex =>
    decide ((machine.after ex reducing).position "BTCUSDT" = 1)) = true by decide +kernel)
  have one := of_decide_eq_true check
  exact ⟨ex, built, one, ((paper_ledger built reducing).1 "BTCUSDT").symm.trans one⟩

end PaperExecutor

end CryptoQuant
