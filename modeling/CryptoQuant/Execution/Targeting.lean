import CryptoQuant.Lib.Text
import CryptoQuant.Execution.PaperLedger

/-!
# Executing toward a target

What the paper executor does with orders under ids it has not seen. One such
order is filled at once; `execute_to_target` makes at most two of them and
leaves the position at the target. The replay loops take a fresh id prefix for
every event, so this is all they ever ask of it.
-/

namespace CryptoQuant
set_option autoImplicit false

namespace PaperExecutor
variable {ex : PaperExecutor} {o : MarketOrder} {name start symbol : String} {target mark : ℚ} {ts : DateTime}

/-- No order was ever submitted under the id. -/
structure Fresh (ex : PaperExecutor) (name : String) : Prop where
  unsubmitted : ex.oms.get name = none
  unfilled : ex.fills.get? name = none

theorem exists_new {feeBps slippageBps : ℚ} (fee : 0 ≤ feeBps) (slippage : 0 ≤ slippageBps) (oms : OMS)
    (killSwitch : Option KillSwitch) : ∃ ex, new oms feeBps slippageBps killSwitch = .ok ex := by
  have costs : ¬ (feeBps < 0 ∨ slippageBps < 0) := not_or.mpr ⟨not_lt.mpr fee, not_lt.mpr slippage⟩
  unfold new
  rw [if_neg costs]
  exact ⟨_, rfl⟩

theorem fresh_new {feeBps slippageBps : ℚ} {killSwitch : Option KillSwitch}
    (built : new OMS.init feeBps slippageBps killSwitch = .ok ex) (name : String) : ex.Fresh name := by
  unfold new at built
  split at built
  · cases built
  · cases built
    exact ⟨rfl, rfl⟩

/-- The executor after it filled an order under a fresh id. -/
def executed (ex : PaperExecutor) (o : MarketOrder) : PaperExecutor :=
  let order : Order := { clientOrderId := o.clientOrderId, symbol := o.symbol, qty := o.qty }
  { ex with
    oms := { orders := (ex.oms.orders.set o.clientOrderId order).set o.clientOrderId (order.moveTo .filled id) }
    fills := ex.fills.set o.clientOrderId (ex.fillOf o)
    positionQty := ex.positionQty.set o.symbol (ex.position o.symbol + o.qty) }

@[simp] theorem executed_killSwitch : (ex.executed o).killSwitch = ex.killSwitch := rfl
@[simp] theorem executed_slippageRate : (ex.executed o).slippageRate = ex.slippageRate := rfl

@[simp] theorem executed_allows : (ex.executed o).assertAllowsExecution = ex.assertAllowsExecution := rfl

@[simp] theorem executed_position : (ex.executed o).position o.symbol = ex.position o.symbol + o.qty :=
  Py.Dict.getD_set_self _ _ _ _

/-- Other ids stay fresh. -/
theorem Fresh.executed (fresh : ex.Fresh name) (other : name ≠ o.clientOrderId) : (ex.executed o).Fresh name where
  unsubmitted := by
    show ((ex.oms.orders.set _ _).set _ _).get? name = none
    rw [Py.Dict.get?_set_ne _ _ other, Py.Dict.get?_set_ne _ _ other]
    exact fresh.unsubmitted
  unfilled := by
    show (ex.fills.set _ _).get? name = none
    rw [Py.Dict.get?_set_ne _ _ other]
    exact fresh.unfilled

/-- The fill of a fresh id is appended. -/
theorem executed_fills (fresh : ex.Fresh o.clientOrderId) :
    (ex.executed o).fills.values = ex.fills.values ++ [ex.fillOf o] := by
  have absent := Py.Dict.get?_eq_none_iff.mp fresh.unfilled
  show (ex.fills.set _ _).items.map Prod.snd = ex.fills.items.map Prod.snd ++ [ex.fillOf o]
  rw [Py.Dict.items_set_of_not_mem absent, List.map_append]
  rfl

theorem Fresh.usable (fresh : ex.Fresh name) : ex.Usable name :=
  ⟨fresh.unfilled, fun order found => by cases fresh.unsubmitted.symm.trans found⟩

/-- Under a fresh id, settling stores the order of the request. -/
theorem Fresh.settled_eq (fresh : ex.Fresh o.clientOrderId) : ex.settled o = ex.executed o := by
  unfold settled PaperExecutor.executed
  rw [OMS.submit_of_none _ _ _ _ fresh.unsubmitted]

/-- **One order under a fresh id** is filled. -/
theorem executeMarket_fresh (allows : ex.assertAllowsExecution = .ok ()) (fresh : ex.Fresh o.clientOrderId)
    (qty : o.qty ≠ 0) (mark : 0 < o.markPrice) (reduces : ex.checkReduceOnly o = .ok ()) :
    ex.executeMarket o = (.ok (ex.fillOf o), ex.executed o) := by
  rw [executeMarket_accepted ⟨qty, mark, allows, reduces, fresh.usable⟩, fresh.settled_eq]

/-- A close of the whole position passes the reduce-only checks. -/
theorem checkReduceOnly_close (whole : o.qty = -ex.position o.symbol) (qty : o.qty ≠ 0) :
    ex.checkReduceOnly o = .ok () := by
  have held : ex.position o.symbol ≠ 0 := by
    intro flat
    rw [flat, neg_zero] at whole
    exact qty whole
  have against : ex.position o.symbol * o.qty < 0 := by
    rw [whole, mul_neg]
    exact neg_neg_of_pos (mul_self_pos.mpr held)
  have size : |ex.position o.symbol| = |o.qty| := by rw [whole, abs_neg]
  unfold checkReduceOnly
  simp only
  split
  · rw [if_neg (not_or.mpr ⟨held, not_le.mpr against⟩), if_neg (not_lt.mpr size.ge)]
  · rfl

theorem checkReduceOnly_free (free : o.reduceOnly = false) : ex.checkReduceOnly o = .ok () := by
  unfold checkReduceOnly
  rw [free]
  rfl

/-- The orders that `execute_to_target` makes from the tracked position. -/
def legs (ex : PaperExecutor) (start symbol : String) (target mark : ℚ) (ts : DateTime) : List MarketOrder :=
  let current := ex.position symbol
  if current = target then []
  else if current = 0 ∨ target = 0 ∨ 0 < current * target then
    [{ clientOrderId := s!"{start}-single", symbol, qty := target - current, markPrice := mark, ts }]
  else
    let tracked := ex.positionQty.get? symbol
    let reduceOnly := decide (tracked ≠ none ∧ tracked ≠ some 0)
    [{ clientOrderId := s!"{start}-close", symbol, qty := -current, markPrice := mark, ts, reduceOnly },
      { clientOrderId := s!"{start}-open", symbol, qty := target, markPrice := mark, ts }]

/-- The suffixes of the ids. -/
def legSuffixes : List String := ["-single", "-close", "-open"]

/-- Numbered prefixes keep the ids of different numbers apart. -/
theorem numbered_inj {start : String} {i j : ℕ} {s t : String} (hs : s ∈ legSuffixes) (ht : t ∈ legSuffixes)
    (same : start ++ toString i ++ s = start ++ toString j ++ t) : i = j := by
  have dash : ∀ u ∈ legSuffixes, ∃ us, u.toList = '-' :: us := by
    simp only [legSuffixes, List.mem_cons, List.not_mem_nil, or_false]
    rintro u (rfl | rfl | rfl) <;> exact ⟨_, rfl⟩
  obtain ⟨ss, hss⟩ := dash s hs
  obtain ⟨ts, hts⟩ := dash t ht
  exact (Text.nat_then_inj (by decide) hss hts same).1

/-- What every leg has in common. -/
theorem mem_legs (h : o ∈ ex.legs start symbol target mark ts) :
    (∃ suffix ∈ legSuffixes, o.clientOrderId = start ++ suffix) ∧ o.symbol = symbol ∧ o.qty ≠ 0 ∧
      o.markPrice = mark := by
  unfold legs at h
  simp only at h
  split at h
  · cases h
  · rename_i moves
    split at h
    · rw [List.mem_singleton] at h
      subst h
      refine ⟨⟨"-single", by simp [legSuffixes], rfl⟩, rfl, ?_, rfl⟩
      intro zero
      exact moves (sub_eq_zero.mp zero).symm
    · rename_i flips
      simp only [not_or] at flips
      rcases List.mem_pair.mp h with rfl | rfl
      · exact ⟨⟨"-close", by simp [legSuffixes], rfl⟩, rfl, neg_ne_zero.mpr flips.1, rfl⟩
      · exact ⟨⟨"-open", by simp [legSuffixes], rfl⟩, rfl, flips.2.1, rfl⟩

/-- The legs have different ids. -/
theorem nodup_legs (ex : PaperExecutor) (start symbol : String) (target mark : ℚ) (ts : DateTime) :
    ((ex.legs start symbol target mark ts).map MarketOrder.clientOrderId).Nodup := by
  unfold legs
  simp only
  split
  · exact List.nodup_nil
  · split
    · exact List.nodup_singleton _
    · rw [List.map_cons, List.map_cons, List.map_nil, List.nodup_cons]
      refine ⟨?_, List.nodup_singleton _⟩
      rw [List.mem_singleton]
      intro same
      exact absurd ((String.append_right_inj start).mp same) (by decide)

theorem legs_eq_nil : ex.legs start symbol target mark ts = [] ↔ ex.position symbol = target := by
  unfold legs
  simp only
  split
  · rename_i reached
    exact ⟨fun _ => reached, fun _ => rfl⟩
  · rename_i moves
    split
    · exact ⟨fun none_ => absurd none_ (List.cons_ne_nil _ _), fun reached => absurd reached moves⟩
    · exact ⟨fun none_ => absurd none_ (List.cons_ne_nil _ _), fun reached => absurd reached moves⟩

/-- The legs add up to the way to the target. -/
theorem sum_legs (ex : PaperExecutor) (start symbol : String) (target mark : ℚ) (ts : DateTime) :
    ex.position symbol + ((ex.legs start symbol target mark ts).map MarketOrder.qty).sum = target := by
  unfold legs
  simp only
  split
  · rename_i reached
    simpa using reached
  · split <;> simp

/-- **Executing toward a target** from the tracked position, under a fresh
prefix: no leg fails, and the fills are those of the legs. -/
theorem executeToTarget_fresh (allows : ex.assertAllowsExecution = .ok ())
    (fresh : ∀ suffix ∈ legSuffixes, ex.Fresh (start ++ suffix)) (symbol : String) (target : ℚ)
    (positive : 0 < mark) (ts : DateTime) :
    ex.executeToTarget start symbol (ex.position symbol) target mark ts =
      (.ok ((ex.legs start symbol target mark ts).map ex.fillOf),
        (ex.legs start symbol target mark ts).foldl executed ex) := by
  unfold executeToTarget legs
  simp only
  by_cases reached : ex.position symbol = target
  · rw [if_pos reached, if_pos reached]
    rfl
  · rw [if_neg reached, if_neg reached]
    by_cases single : ex.position symbol = 0 ∨ target = 0 ∨ 0 < ex.position symbol * target
    · rw [if_pos single, if_pos single, executeMarket_fresh allows (fresh "-single" (by simp [legSuffixes]))
        (sub_ne_zero.mpr (Ne.symm reached)) positive (checkReduceOnly_free rfl)]
      rfl
    · rw [if_neg single, if_neg single]
      simp only [not_or] at single
      have closes : -ex.position symbol ≠ 0 := neg_ne_zero.mpr single.1
      rw [executeMarket_fresh allows (fresh "-close" (by simp [legSuffixes])) closes positive
        (checkReduceOnly_close rfl closes)]
      -- The second leg starts from the executor the first one left.
      have stillFresh : ∀ o : MarketOrder, o.clientOrderId = start ++ "-close" →
          (ex.executed o).Fresh (start ++ "-open") := by
        intro o named
        refine (fresh "-open" (by simp [legSuffixes])).executed ?_
        rw [named]
        intro same
        exact absurd ((String.append_right_inj start).mp same) (by decide)
      simp only
      rw [executeMarket_fresh (by rw [executed_allows]; exact allows) (stillFresh _ rfl) single.2.1 positive
        (checkReduceOnly_free rfl)]
      rfl

section Fold
variable {orders : List MarketOrder}

theorem foldl_executed_killSwitch (ex : PaperExecutor) (orders : List MarketOrder) :
    (orders.foldl executed ex).killSwitch = ex.killSwitch :=
  Run.foldl_frame PaperExecutor.killSwitch (fun _ _ => executed_killSwitch) ex orders

theorem foldl_executed_slippageRate (ex : PaperExecutor) (orders : List MarketOrder) :
    (orders.foldl executed ex).slippageRate = ex.slippageRate :=
  Run.foldl_frame PaperExecutor.slippageRate (fun _ _ => executed_slippageRate) ex orders

theorem foldl_executed_position (one : ∀ o ∈ orders, o.symbol = symbol) (ex : PaperExecutor) :
    (orders.foldl executed ex).position symbol = ex.position symbol + (orders.map MarketOrder.qty).sum := by
  induction orders generalizing ex with
  | nil => simp
  | cons o orders ih =>
    have here : o.symbol = symbol := one o List.mem_cons_self
    have moved : (ex.executed o).position symbol = ex.position symbol + o.qty := by
      rw [← here, executed_position]
    rw [List.foldl_cons, ih (fun p later => one p (List.mem_cons_of_mem _ later)), moved, List.map_cons,
      List.sum_cons, add_assoc]

theorem Fresh.foldl_executed (fresh : ex.Fresh name) (others : ∀ o ∈ orders, name ≠ o.clientOrderId) :
    (orders.foldl PaperExecutor.executed ex).Fresh name :=
  Run.foldl_invariant (P := fun ex => PaperExecutor.Fresh ex name) (fun _ o member fresh => fresh.executed (others o member)) fresh

theorem foldl_executed_fills (fresh : ∀ o ∈ orders, ex.Fresh o.clientOrderId)
    (nodup : (orders.map MarketOrder.clientOrderId).Nodup) :
    (orders.foldl executed ex).fills.values = ex.fills.values ++ orders.map ex.fillOf := by
  induction orders generalizing ex with
  | nil => simp
  | cons o orders ih =>
    rw [List.map_cons, List.nodup_cons] at nodup
    have later : ∀ p ∈ orders, (ex.executed o).Fresh p.clientOrderId := by
      intro p member
      refine (fresh p (List.mem_cons_of_mem _ member)).executed ?_
      intro same
      exact nodup.1 (same ▸ List.mem_map_of_mem member)
    rw [List.foldl_cons, ih later nodup.2, executed_fills (fresh o List.mem_cons_self), List.append_assoc]
    rfl

end Fold

/-- What a call of `execute_to_target` does: its fills, and the executor after it. -/
structure Toward (ex : PaperExecutor) (start symbol : String) (target mark : ℚ) (fills : List Fill)
    (ex' : PaperExecutor) : Prop where
  killSwitch : ex'.killSwitch = ex.killSwitch
  slippageRate : ex'.slippageRate = ex.slippageRate
  values : ex'.fills.values = ex.fills.values ++ fills
  fill : ∀ fill ∈ fills, ∃ o : MarketOrder, fill = ex.fillOf o ∧ o.symbol = symbol ∧ o.qty ≠ 0 ∧ o.markPrice = mark
  nothing : fills = [] ↔ ex.position symbol = target
  moved : ex'.position symbol = ex.position symbol + (fills.map Fill.qty).sum
  arrived : ex'.position symbol = target
  fresh : ∀ name, ex.Fresh name → (∀ suffix ∈ legSuffixes, name ≠ start ++ suffix) → ex'.Fresh name

/-- **Toward the target**: from the tracked position and under a fresh prefix,
`execute_to_target` does not raise and ends at the target. -/
theorem executeToTarget_toward (allows : ex.assertAllowsExecution = .ok ())
    (fresh : ∀ suffix ∈ legSuffixes, ex.Fresh (start ++ suffix)) (symbol : String) (target : ℚ)
    (positive : 0 < mark) (ts : DateTime) :
    ∃ fills ex', ex.executeToTarget start symbol (ex.position symbol) target mark ts = (.ok fills, ex') ∧
      Toward ex start symbol target mark fills ex' := by
  let orders := ex.legs start symbol target mark ts
  have leg : ∀ o ∈ orders, _ := fun o member => mem_legs member
  have quantities : (orders.map ex.fillOf).map Fill.qty = orders.map MarketOrder.qty := by
    rw [List.map_map]
    rfl
  have moved := foldl_executed_position (fun o member => (leg o member).2.1) ex
  refine ⟨_, _, executeToTarget_fresh allows fresh symbol target positive ts, ?_⟩
  constructor
  · exact foldl_executed_killSwitch ex orders
  · exact foldl_executed_slippageRate ex orders
  · apply foldl_executed_fills _ (nodup_legs ..)
    intro o member
    obtain ⟨⟨suffix, among, named⟩, -⟩ := leg o member
    rw [named]
    exact fresh suffix among
  · intro fill member
    obtain ⟨o, among, rfl⟩ := List.mem_map.mp member
    exact ⟨o, rfl, (leg o among).2⟩
  · rw [List.map_eq_nil_iff]
    exact legs_eq_nil
  · rw [quantities]
    exact moved
  · exact moved.trans (sum_legs ex start symbol target mark ts)
  · intro name unused others
    apply unused.foldl_executed
    intro o member same
    obtain ⟨⟨suffix, among, named⟩, -⟩ := leg o member
    exact others suffix among (same.trans named)

end PaperExecutor

end CryptoQuant
