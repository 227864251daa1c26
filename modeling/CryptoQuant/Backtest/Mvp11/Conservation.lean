import CryptoQuant.Backtest.Mvp11.Latency

/-!
# The quantity of an order

An order is split by its fills, re-queued under its sequence number, cancelled or dropped
as dust. A `Journal` writes down, beside the state of the run, what the run creates,
cancels and drops; the quantity an order was created with is what its fills, its pending
remainder and its entries in the journal add up to.
-/

namespace CryptoQuant.Mvp11
set_option autoImplicit false

/-! ## The journal -/

/-- The residual of a matured order that the dust rule drops. -/
def dustOf (g : Engine) (event : MarketEvent) (idx seqLen : ℕ) (order : PendingOrder) : List PendingOrder :=
  let residual := residualOrder g.config event idx seqLen order
  if order.qty ≠ 0 ∧ 0 < filledQty g.config event.close order.qty ∧ |residual.qty| ≤ deadBand then [residual] else []

/-- The stale orders whose cancel is accepted, from a count of draws on. -/
def acceptedCancels (g : Engine) (drawn : ℕ) : List PendingOrder → List PendingOrder
  | [] => []
  | stale :: rest =>
    if g.config.cancelRejectProbability ≤ g.draws drawn then stale :: acceptedCancels g (drawn + 1) rest
    else acceptedCancels g (drawn + 1) rest

/-- The state of a run, the orders it created, and the remainders it cancelled or dropped
as dust. -/
structure Journal where
  state : LoopState
  created : List PendingOrder
  cancelled : List PendingOrder
  dust : List PendingOrder

/-- The journal after an event, with what the lookups of the loop body found. -/
def Journal.record (g : Engine) (event : MarketEvent) (symbolSeq : List MarketEvent) (idx : ℕ) (targetQty : ℚ)
    (j : Journal) : Journal :=
  let matched := matchedState event symbolSeq idx g j.state
  let delta := deltaQty event targetQty matched
  { state := eventStep g event symbolSeq idx targetQty j.state
    created := j.created ++ if deadBand < |delta| then [newOrder g event symbolSeq idx delta matched] else []
    cancelled := j.cancelled ++
      if deadBand < |delta| then acceptedCancels g matched.drawn (staleOrders event targetQty matched) else []
    dust := j.dust ++ (j.state.pending.filter (isMatured event idx)).flatMap (dustOf g event idx symbolSeq.length) }

/-- The loop body, with its journal. -/
def Journal.step (g : Engine) (j : Journal) (event : MarketEvent) : Except PyError Journal := do
  let symbolSeq ← getItem g.symbolEvents event.symbol
  let idx ← getItem g.eventIndex (event.symbol, event.ts)
  let targetQty ← targetQty g event
  pure (j.record g event symbolSeq idx targetQty)

/-- The loop over a list of events, with its journal. -/
def Engine.journal (g : Engine) (events : List MarketEvent) : Except PyError Journal :=
  events.foldlM (Journal.step g) ⟨g.start, [], [], []⟩

theorem Journal.step_ok {g : Engine} {j j' : Journal} {event : MarketEvent} :
    j.step g event = .ok j' ↔ ∃ symbolSeq idx target, g.symbolEvents.get? event.symbol = some symbolSeq ∧
      g.eventIndex.get? (event.symbol, event.ts) = some idx ∧ targetQty g event = .ok target ∧
      j' = j.record g event symbolSeq idx target := by
  unfold Journal.step
  simp only [Run.bind_ok, getItem_ok, pure, Except.pure, Except.ok.injEq]
  constructor
  · rintro ⟨symbolSeq, seq, idx, index, target, goal, rfl⟩
    exact ⟨symbolSeq, idx, target, seq, index, goal, rfl⟩
  · rintro ⟨symbolSeq, idx, target, seq, index, goal, rfl⟩
    exact ⟨symbolSeq, seq, idx, index, target, goal, rfl⟩

/-- The journal changes nothing of the run, and keeps up with it. -/
theorem Journal.step_state {g : Engine} {j : Journal} {event : MarketEvent} {st : LoopState} :
    processEvent g j.state event = .ok st ↔ ∃ j', j.step g event = .ok j' ∧ j'.state = st := by
  rw [processEvent_ok]
  constructor
  · rintro ⟨symbolSeq, idx, target, seq, index, goal, rfl⟩
    exact ⟨_, Journal.step_ok.mpr ⟨symbolSeq, idx, target, seq, index, goal, rfl⟩, rfl⟩
  · rintro ⟨j', step, rfl⟩
    obtain ⟨symbolSeq, idx, target, seq, index, goal, rfl⟩ := Journal.step_ok.mp step
    exact ⟨symbolSeq, idx, target, seq, index, goal, rfl⟩

theorem Engine.journal_of_run {g : Engine} {done : List MarketEvent} {st : LoopState} (run : g.run done = .ok st) :
    ∃ j, g.journal done = .ok j ∧ j.state = st := by
  induction done using List.reverseRecOn generalizing st with
  | nil =>
    cases run
    exact ⟨_, rfl, rfl⟩
  | append_singleton done event ih =>
    obtain ⟨t, before, step⟩ := Run.foldlM_snoc_ok.mp run
    obtain ⟨j, journal, rfl⟩ := ih before
    obtain ⟨j', step', same⟩ := Journal.step_state.mp step
    exact ⟨j', Run.foldlM_snoc_ok.mpr ⟨j, journal, step'⟩, same⟩

/-! ## Accounts of orders -/

/-- The quantity filled of the order with a sequence number. -/
def filledOf (sequence : ℕ) (fills : List Fill) : ℚ :=
  Tally.total Fill.clientOrderId Fill.qty s!"mvp11-{sequence}" fills

/-- The quantity of the remainders with a sequence number. -/
def remainderOf (sequence : ℕ) (orders : List PendingOrder) : ℚ :=
  Tally.total PendingOrder.sequence PendingOrder.qty sequence orders

/-- What is known of the orders of a run, with a queue of orders still to be matched, in
no particular order with the pending ones: each is accounted for. -/
structure Conserved (created dropped : List PendingOrder) (fills : List Fill) (live : List PendingOrder)
    (sequence : ℕ) : Prop where
  number : ∀ c ∈ created, c.sequence < sequence
  nonzero : ∀ c ∈ created, c.qty ≠ 0
  distinct : (created.map PendingOrder.sequence).Nodup
  single : (live.map PendingOrder.sequence).Nodup
  ofLive : ∀ o ∈ live, ∃ c ∈ created, c.sequence = o.sequence ∧ 0 < o.qty * c.qty
  ofFill : ∀ fill ∈ fills, ∀ n, FillOf n fill → ∃ c ∈ created, c.sequence = n ∧ 0 < fill.qty * c.qty
  ofDropped : ∀ o ∈ dropped, ∃ c ∈ created, c.sequence = o.sequence ∧ 0 ≤ o.qty * c.qty
  balance : ∀ c ∈ created, filledOf c.sequence fills + remainderOf c.sequence live +
    remainderOf c.sequence dropped = c.qty

/-- Two quantities on the side of a third are on one side. -/
theorem same_side {a b c : ℚ} (ab : 0 < a * b) (bc : 0 < b * c) : 0 < a * c := by
  rcases mul_pos_iff.mp ab with ⟨a_pos, b_pos⟩ | ⟨a_neg, b_neg⟩
  · exact mul_pos a_pos ((mul_pos_iff_of_pos_left b_pos).mp bc)
  · exact mul_pos_of_neg_of_neg a_neg (neg_of_mul_pos_right bc b_neg.le)

/-- A fill is on the side of its order and takes no more than it has left. -/
theorem signedFillQty_side (config : ExecutionModelConfig) (close : ℚ) {remaining : ℚ}
    (filled : 0 < filledQty config close remaining) :
    0 < signedFillQty config close remaining * remaining ∧
      0 ≤ (remaining - signedFillQty config close remaining) * remaining := by
  have atMost : filledQty config close remaining ≤ |remaining| :=
    mul_le_of_le_one_right (abs_nonneg _) (min_le_left _ _)
  unfold signedFillQty
  split
  · rename_i long
    rw [abs_of_pos long] at atMost
    exact ⟨mul_pos filled long, mul_nonneg (sub_nonneg.mpr atMost) long.le⟩
  · rename_i short
    have short : remaining < 0 := by
      refine lt_of_le_of_ne (not_lt.mp short) ?_
      rintro rfl
      exact absurd (filled.trans_le atMost) (by simp)
    rw [abs_of_neg short] at atMost
    exact ⟨mul_pos_of_neg_of_neg (neg_lt_zero.mpr filled) short, mul_nonneg_of_nonpos_of_nonpos (by linarith) short.le⟩

namespace Conserved
variable {created dropped : List PendingOrder} {fills : List Fill} {live rest : List PendingOrder} {sequence : ℕ}
  {o : PendingOrder} {fill : Fill}

theorem of_perm (h : Conserved created dropped fills live sequence) {live' : List PendingOrder} (perm : live.Perm live') :
    Conserved created dropped fills live' sequence where
  number := h.number
  nonzero := h.nonzero
  distinct := h.distinct
  single := (perm.map _).nodup_iff.mp h.single
  ofLive := fun o member => h.ofLive o (perm.mem_iff.mpr member)
  ofFill := h.ofFill
  ofDropped := h.ofDropped
  balance := fun c member => by
    unfold remainderOf
    rw [← Tally.total_perm _ _ _ perm]
    exact h.balance c member

theorem perm_dropped (h : Conserved created dropped fills live sequence) {dropped' : List PendingOrder}
    (perm : dropped.Perm dropped') : Conserved created dropped' fills live sequence :=
  { h with
    ofDropped := fun o member => h.ofDropped o (perm.mem_iff.mpr member)
    balance := fun c member => by
      unfold remainderOf
      rw [← Tally.total_perm _ _ _ perm]
      exact h.balance c member }

theorem mono (h : Conserved created dropped fills live sequence) {sequence' : ℕ} (grown : sequence ≤ sequence') :
    Conserved created dropped fills live sequence' :=
  { h with number := fun c member => (h.number c member).trans_le grown }

/-- A remainder is dropped. -/
theorem drop (h : Conserved created dropped fills (o :: rest) sequence) :
    Conserved created (dropped ++ [o]) fills rest sequence where
  number := h.number
  nonzero := h.nonzero
  distinct := h.distinct
  single := (List.nodup_cons.mp h.single).2
  ofLive := fun o' member => h.ofLive o' (List.mem_cons_of_mem _ member)
  ofFill := h.ofFill
  ofDropped := by
    obtain ⟨c, among, same, side⟩ := h.ofLive o List.mem_cons_self
    exact List.forall_mem_append.mpr ⟨h.ofDropped, List.forall_mem_singleton.mpr ⟨c, among, same, side.le⟩⟩
  balance := fun c member => by
    have before := h.balance c member
    unfold remainderOf at before ⊢
    rw [Tally.total_cons] at before
    rw [Tally.total_snoc]
    linarith

theorem filledOf_snoc {n : ℕ} (own : FillOf n fill) (m : ℕ) :
    filledOf m (fills ++ [fill]) = filledOf m fills + if n = m then fill.qty else 0 := by
  have key : fill.clientOrderId = s!"mvp11-{m}" ↔ n = m := ⟨fun ofM => own.unique ofM, fun eq => eq ▸ own⟩
  unfold filledOf
  rw [Tally.total_snoc]
  simp only [key]

/-- A fill on the side of a live order is on the side of the created one. -/
theorem ofFill_snoc (h : Conserved created dropped fills (o :: rest) sequence) (own : FillOf o.sequence fill)
    (side : 0 < fill.qty * o.qty) :
    ∀ f ∈ fills ++ [fill], ∀ n, FillOf n f → ∃ c ∈ created, c.sequence = n ∧ 0 < f.qty * c.qty := by
  obtain ⟨c, among, number, side'⟩ := h.ofLive o List.mem_cons_self
  refine List.forall_mem_append.mpr ⟨h.ofFill, List.forall_mem_singleton.mpr fun n ofN => ?_⟩
  exact ⟨c, among, number.trans (own.unique ofN), same_side side side'⟩

/-- A fill takes its quantity from what is left of its order. -/
theorem balance_filled (h : Conserved created dropped fills (o :: rest) sequence) (own : FillOf o.sequence fill)
    {c : PendingOrder} (member : c ∈ created) :
    filledOf c.sequence (fills ++ [fill]) + (if o.sequence = c.sequence then o.qty - fill.qty else 0) +
      remainderOf c.sequence rest + remainderOf c.sequence dropped = c.qty := by
  have before := h.balance c member
  unfold remainderOf at before ⊢
  rw [Tally.total_cons] at before
  rw [filledOf_snoc own]
  by_cases mine : o.sequence = c.sequence
  · rw [if_pos mine] at before
    rw [if_pos mine, if_pos mine]
    linarith
  · rw [if_neg mine] at before
    rw [if_neg mine, if_neg mine]
    linarith

/-- An order is filled, and its residual stays live. -/
theorem split (h : Conserved created dropped fills (o :: rest) sequence) {residual : PendingOrder}
    (own : FillOf o.sequence fill) (side : 0 < fill.qty * o.qty) (same : residual.sequence = o.sequence)
    (left : residual.qty = o.qty - fill.qty) (some_ : 0 < residual.qty * o.qty) :
    Conserved created dropped (fills ++ [fill]) (residual :: rest) sequence := by
  refine ⟨h.number, h.nonzero, h.distinct, ?_, ?_, h.ofFill_snoc own side, h.ofDropped, ?_⟩
  · rw [List.map_cons, same]
    exact h.single
  · intro o' member
    rcases List.mem_cons.mp member with rfl | later
    · obtain ⟨c, among, number, side'⟩ := h.ofLive o List.mem_cons_self
      exact ⟨c, among, number.trans same.symm, same_side some_ side'⟩
    · exact h.ofLive o' (List.mem_cons_of_mem _ later)
  · intro c member
    have balance := h.balance_filled own member
    unfold remainderOf at balance ⊢
    rwa [Tally.total_cons, same, left, ← add_assoc]

/-- An order is filled, and its residual is dropped. -/
theorem settle (h : Conserved created dropped fills (o :: rest) sequence) {residual : PendingOrder}
    (own : FillOf o.sequence fill) (side : 0 < fill.qty * o.qty) (same : residual.sequence = o.sequence)
    (left : residual.qty = o.qty - fill.qty) (atLeast : 0 ≤ residual.qty * o.qty) :
    Conserved created (dropped ++ [residual]) (fills ++ [fill]) rest sequence := by
  refine ⟨h.number, h.nonzero, h.distinct, (List.nodup_cons.mp h.single).2, fun o' later =>
    h.ofLive o' (List.mem_cons_of_mem _ later), h.ofFill_snoc own side, ?_, ?_⟩
  · obtain ⟨c, among, number, side'⟩ := h.ofLive o List.mem_cons_self
    refine List.forall_mem_append.mpr ⟨h.ofDropped, List.forall_mem_singleton.mpr ⟨c, among, number.trans same.symm, ?_⟩⟩
    rcases atLeast.eq_or_lt with none_ | some_
    · have nothing : o.qty ≠ 0 := by rintro zero; rw [zero, zero_mul] at side'; exact absurd side' (lt_irrefl _)
      rw [(mul_eq_zero.mp none_.symm).resolve_right nothing, zero_mul]
    · exact (same_side some_ side').le
  · intro c member
    have balance := h.balance_filled own member
    unfold remainderOf at balance ⊢
    rw [Tally.total_snoc, same, left]
    linarith

/-- An order is created under the next number. -/
theorem create (h : Conserved created dropped fills live sequence) {new : PendingOrder} (number : new.sequence = sequence)
    (nonzero : new.qty ≠ 0) : Conserved (created ++ [new]) dropped fills (live ++ [new]) (sequence + 1) := by
  have old (c : PendingOrder) (member : c ∈ created) : c ∈ created ++ [new] := List.mem_append_left _ member
  have fresh (c : PendingOrder) (member : c ∈ created) : c.sequence ≠ new.sequence := by
    have := h.number c member
    omega
  have apart (o : PendingOrder) (known : ∃ c ∈ created, c.sequence = o.sequence) : o.sequence ≠ new.sequence := by
    obtain ⟨c, member, same⟩ := known
    exact same ▸ fresh c member
  have liveApart : ∀ o ∈ live, o.sequence ≠ new.sequence := fun o member => by
    obtain ⟨c, among, same, -⟩ := h.ofLive o member
    exact apart o ⟨c, among, same⟩
  have added (items : List PendingOrder) (nodup : (items.map PendingOrder.sequence).Nodup)
      (apart : ∀ o ∈ items, o.sequence ≠ new.sequence) : ((items ++ [new]).map PendingOrder.sequence).Nodup := by
    rw [List.map_append, List.nodup_append_comm]
    refine List.nodup_cons.mpr ⟨fun inside => ?_, nodup⟩
    obtain ⟨o, member, same⟩ := List.mem_map.mp inside
    exact apart o member same
  refine ⟨?_, ?_, ?_, ?_, ?_, ?_, ?_, ?_⟩
  · refine List.forall_mem_append.mpr ⟨fun c before => (h.number c before).trans (Nat.lt_succ_self _), ?_⟩
    exact List.forall_mem_singleton.mpr (number ▸ Nat.lt_succ_self _)
  · exact List.forall_mem_append.mpr ⟨h.nonzero, List.forall_mem_singleton.mpr nonzero⟩
  · exact added created h.distinct fresh
  · exact added live h.single liveApart
  · refine List.forall_mem_append.mpr ⟨fun o before => ?_, ?_⟩
    · obtain ⟨c, among, rest⟩ := h.ofLive o before
      exact ⟨c, old c among, rest⟩
    · exact List.forall_mem_singleton.mpr ⟨new, by simp, rfl, mul_self_pos.mpr nonzero⟩
  · intro f member n own
    obtain ⟨c, among, rest⟩ := h.ofFill f member n own
    exact ⟨c, old c among, rest⟩
  · intro o member
    obtain ⟨c, among, rest⟩ := h.ofDropped o member
    exact ⟨c, old c among, rest⟩
  · intro c member
    unfold filledOf remainderOf
    rw [Tally.total_snoc]
    rcases List.mem_append.mp member with before | here
    · rw [if_neg (fresh c before).symm, add_zero]
      exact h.balance c before
    · -- nothing of a new number has been filled, is live or was dropped
      rw [List.mem_singleton.mp here, if_pos rfl]
      rw [Tally.total_eq_zero _ _ _ liveApart, Tally.total_eq_zero, Tally.total_eq_zero, zero_add, zero_add, add_zero]
      · intro o among
        obtain ⟨c, inside, same, -⟩ := h.ofDropped o among
        exact apart o ⟨c, inside, same⟩
      · intro f among ofNew
        obtain ⟨c, inside, same, -⟩ := h.ofFill f among new.sequence ofNew
        exact fresh c inside same

/-- A liquidation fill is of no order. -/
theorem liquidated (h : Conserved created dropped fills live sequence) (liquidation : IsLiquidation fill) :
    Conserved created dropped (fills ++ [fill]) live sequence where
  number := h.number
  nonzero := h.nonzero
  distinct := h.distinct
  single := h.single
  ofLive := h.ofLive
  ofFill := List.forall_mem_append.mpr
    ⟨h.ofFill, List.forall_mem_singleton.mpr fun _ own => absurd liquidation own.not_liquidation⟩
  ofDropped := h.ofDropped
  balance := fun c member => by
    have other : ¬ fill.clientOrderId = s!"mvp11-{c.sequence}" := fun own =>
      FillOf.not_liquidation (show FillOf c.sequence fill from own) liquidation
    unfold filledOf
    rw [Tally.total_snoc, if_neg other, add_zero]
    exact h.balance c member

end Conserved

/-! ## An event -/

section Event
variable {g : Engine} {event : MarketEvent} {idx seqLen : ℕ} {created dropped : List PendingOrder}

/-- A state whose orders, with a queue still to be matched, are accounted for. -/
def Accounting (created dropped : List PendingOrder) (st : LoopState) (queue : List PendingOrder) : Prop :=
  Conserved created dropped st.fills (st.pending ++ queue) st.sequence

/-- **Step lemma of matching.** -/
theorem Accounting.fillMatured {st : LoopState} {order : PendingOrder} {queue : List PendingOrder}
    (h : Accounting created dropped st (order :: queue)) :
    Accounting created (dropped ++ dustOf g event idx seqLen order) (fillMatured g event idx seqLen st order) queue := by
  have first : Conserved created dropped st.fills (order :: (st.pending ++ queue)) st.sequence :=
    h.of_perm List.perm_middle
  have live : order.qty ≠ 0 := by
    obtain ⟨c, -, -, side⟩ := first.ofLive order List.mem_cons_self
    rintro zero
    rw [zero, zero_mul] at side
    exact absurd side (lt_irrefl _)
  unfold dustOf
  by_cases filled : 0 < filledQty g.config event.close order.qty
  · obtain ⟨side, atLeast⟩ := signedFillQty_side g.config event.close filled
    rw [fillMatured_of_filled live filled]
    unfold afterFill
    by_cases small : |(residualOrder g.config event idx seqLen order).qty| ≤ deadBand
    · rw [if_pos ⟨live, filled, small⟩, if_neg (not_lt.mpr small)]
      exact first.settle (maturedFill_of _ _ _ _) side rfl rfl atLeast
    · rw [if_neg fun all => small all.2.2, if_pos (not_le.mp small), List.append_nil]
      have some_ : (residualOrder g.config event idx seqLen order).qty ≠ 0 := by
        intro zero
        rw [zero, abs_zero] at small
        exact small deadBand_nonneg
      have left : 0 < (residualOrder g.config event idx seqLen order).qty * order.qty :=
        lt_of_le_of_ne atLeast (mul_ne_zero some_ live).symm
      have kept : Conserved created dropped
          (st.fills ++ [maturedFill g.config event order (decide (g.draws st.drawn < g.config.makerProbability))])
          (residualOrder g.config event idx seqLen order :: (st.pending ++ queue)) st.sequence :=
        first.split (maturedFill_of _ _ _ _) side rfl rfl left
      show Conserved _ _ _ ((st.pending ++ [_]) ++ queue) _
      rw [List.append_assoc]
      exact kept.of_perm List.perm_middle.symm
  · rw [if_neg fun both => filled both.2.1, List.append_nil, fillMatured_of_unfilled live (not_lt.mp filled)]
    show Conserved _ _ _ ((st.pending ++ [order]) ++ queue) _
    rw [List.append_assoc]
    exact h

/-- Matching the whole queue. -/
theorem Accounting.foldl_fillMatured (queue : List PendingOrder) {st : LoopState} {dropped : List PendingOrder}
    (h : Accounting created dropped st queue) :
    Accounting created (dropped ++ queue.flatMap (dustOf g event idx seqLen))
      (queue.foldl (Mvp11.fillMatured g event idx seqLen) st) [] := by
  induction queue generalizing st dropped with
  | nil => rwa [List.flatMap_nil, List.append_nil]
  | cons order queue ih =>
    rw [List.flatMap_cons, ← List.append_assoc, List.foldl_cons]
    exact ih h.fillMatured

/-- Processing the matured orders. -/
theorem Accounting.processMatured {st : LoopState} (h : Accounting created dropped st []) :
    Accounting created (dropped ++ (st.pending.filter (isMatured event idx)).flatMap (dustOf g event idx seqLen))
      (processMatured g event idx seqLen st) [] := by
  refine Accounting.foldl_fillMatured _ ?_
  have kept : (st.pending.filter fun order => decide (order ∉ st.pending.filter (isMatured event idx))) =
      st.pending.filter fun order => !isMatured event idx order := by
    refine List.filter_congr fun order member => ?_
    simp only [List.mem_filter, member, true_and, Bool.decide_eq_true, decide_not]
  have all : Conserved created dropped st.fills st.pending st.sequence := by
    have before : Conserved created dropped st.fills (st.pending ++ []) st.sequence := h
    rwa [List.append_nil] at before
  refine all.of_perm ?_
  show st.pending.Perm (st.pending.filter _ ++ _)
  rw [kept]
  exact (List.filter_append_perm _ _).symm.trans List.perm_append_comm

/-- The cancel attempts. -/
theorem Accounting.cancelAll (stale : List PendingOrder) {st : LoopState} {dropped : List PendingOrder}
    (h : Accounting created dropped st []) (inside : ∀ o ∈ stale, o ∈ st.pending) (nodup : stale.Nodup) :
    Accounting created (dropped ++ acceptedCancels g st.drawn stale) (stale.foldl (cancelStale g) st) [] := by
  induction stale generalizing st dropped with
  | nil => rwa [acceptedCancels, List.append_nil]
  | cons o stale ih =>
    obtain ⟨fresh, nodup⟩ := List.nodup_cons.mp nodup
    have later : ∀ o' ∈ stale, o' ∈ st.pending := fun o' member => inside o' (List.mem_cons_of_mem _ member)
    rw [List.foldl_cons, acceptedCancels]
    by_cases accepted : g.config.cancelRejectProbability ≤ g.draws st.drawn
    · have cancelled : cancelStale g st o = { st with drawn := st.drawn + 1, pending := st.pending.erase o } := by
        unfold cancelStale
        simp only [if_pos accepted]
      have without : Accounting created (dropped ++ [o]) (cancelStale g st o) [] := by
        rw [cancelled]
        have all : Conserved created dropped st.fills (st.pending ++ []) st.sequence := h
        rw [List.append_nil] at all
        show Conserved created (dropped ++ [o]) st.fills (st.pending.erase o ++ []) st.sequence
        rw [List.append_nil]
        exact (all.of_perm (List.perm_cons_erase (inside o List.mem_cons_self))).drop
      have rest := ih without (fun o' member => by
        rw [cancelled]
        have other : o' ≠ o := by rintro rfl; exact fresh member
        exact (List.mem_erase_of_ne other).mpr (later o' member)) nodup
      rw [if_pos accepted]
      rw [cancelled] at rest ⊢
      rwa [List.append_assoc, List.singleton_append] at rest
    · have rejected : cancelStale g st o = { st with drawn := st.drawn + 1 } := by
        unfold cancelStale
        simp only [if_neg accepted]
      have next : Accounting created dropped { st with drawn := st.drawn + 1 } [] := h
      rw [if_neg accepted, rejected]
      exact ih next later nodup

/-- Moving the target. -/
theorem Accounting.updateTarget {st : LoopState} {symbolSeq : List MarketEvent} {target : ℚ}
    (h : Accounting created dropped st []) :
    Accounting
      (created ++ if deadBand < |deltaQty event target st| then
        [newOrder g event symbolSeq idx (deltaQty event target st) st] else [])
      (dropped ++ if deadBand < |deltaQty event target st| then
        acceptedCancels g st.drawn (staleOrders event target st) else [])
      (updateTarget g event symbolSeq idx target st) [] := by
  by_cases move : deadBand < |deltaQty event target st|
  · have nodup : st.pending.Nodup := by
      have single := h.single
      rw [List.append_nil] at single
      exact single.of_map _
    have cancelled : Accounting created (dropped ++ acceptedCancels g st.drawn (staleOrders event target st))
        (afterCancels g event target st) [] :=
      h.cancelAll _ (fun o member => List.mem_of_mem_filter member) (nodup.filter _)
    rw [if_pos move, if_pos move, updateTarget_of_move g event idx move]
    obtain ⟨pending, drawn, same, -⟩ := cancelAll_eq g st (staleOrders event target st)
    have same : afterCancels g event target st = { st with pending, drawn } := same
    rw [same] at cancelled ⊢
    have nonzero : deltaQty event target st ≠ 0 := by
      intro zero
      rw [zero, abs_zero] at move
      exact absurd move (not_lt.mpr deadBand_nonneg)
    have left : Conserved created _ st.fills (pending ++ []) st.sequence := cancelled
    rw [List.append_nil] at left
    show Conserved _ _ st.fills ((pending ++ [_]) ++ []) (st.sequence + 1)
    rw [List.append_nil]
    exact left.create rfl nonzero
  · rw [if_neg move, if_neg move, List.append_nil, List.append_nil, updateTarget_of_still g event idx move]
    exact h

theorem Accounting.of_same {st st' : LoopState} (h : Accounting created dropped st []) (fills : st'.fills = st.fills)
    (pending : st'.pending = st.pending) (sequence : st'.sequence = st.sequence) : Accounting created dropped st' [] := by
  unfold Accounting
  rw [fills, pending, sequence]
  exact h

/-- The liquidation check. -/
theorem Accounting.checkLiquidation {st : LoopState} (h : Accounting created dropped st []) :
    Accounting created dropped (checkLiquidation g event st) [] := by
  unfold Mvp11.checkLiquidation
  split
  · refine Run.foldl_invariant (P := fun st => Accounting created dropped st []) ?_ (h.of_same rfl rfl rfl)
    intro s symbol _ before
    rcases liquidateSymbol_cases g event s symbol with ⟨-, same⟩ | ⟨-, fill, id, -, -, closed⟩
    · rw [same]
      exact before
    · rw [closed]
      exact (Conserved.liquidated before ⟨_, _, id⟩).mono (Nat.le_succ _)
  · exact h

theorem Accounting.recordEquity {st : LoopState} (h : Accounting created dropped st []) :
    Accounting created dropped (recordEquity g event st) [] := by
  obtain ⟨regime, recorded⟩ := recordEquity_eq g event st
  rw [recorded]
  exact h.of_same rfl rfl rfl

/-- **Step lemma**: an event keeps every order accounted for. -/
theorem Accounting.record {j : Journal} {symbolSeq : List MarketEvent} {target : ℚ}
    (h : Accounting j.created (j.cancelled ++ j.dust) j.state []) :
    Accounting (j.record g event symbolSeq idx target).created
      ((j.record g event symbolSeq idx target).cancelled ++ (j.record g event symbolSeq idx target).dust)
      (j.record g event symbolSeq idx target).state [] := by
  have marked : Accounting j.created (j.cancelled ++ j.dust)
      { j.state with lastPrice := j.state.lastPrice.set event.symbol event.close } [] := h.of_same rfl rfl rfl
  have matched : Accounting j.created (j.cancelled ++ j.dust ++
      (j.state.pending.filter (isMatured event idx)).flatMap (dustOf g event idx symbolSeq.length))
      (matchedState event symbolSeq idx g j.state) [] := marked.processMatured
  have moved : Accounting (j.record g event symbolSeq idx target).created _
      (Mvp11.updateTarget g event symbolSeq idx target (matchedState event symbolSeq idx g j.state)) [] :=
    matched.updateTarget
  have charged : Accounting (j.record g event symbolSeq idx target).created _
      (beforeLiquidation g event symbolSeq idx target j.state) [] := moved.of_same rfl rfl rfl
  have checked : Accounting (j.record g event symbolSeq idx target).created _
      (Mvp11.checkLiquidation g event (beforeLiquidation g event symbolSeq idx target j.state)) [] :=
    charged.checkLiquidation
  have recorded : Accounting (j.record g event symbolSeq idx target).created _
      (j.record g event symbolSeq idx target).state [] := checked.recordEquity
  refine Conserved.perm_dropped recorded ?_
  show (j.cancelled ++ j.dust ++ _ ++ _).Perm (j.cancelled ++ _ ++ (j.dust ++ _))
  rw [List.append_assoc, List.append_assoc, List.append_assoc]
  refine List.Perm.append_left _ ?_
  rw [← List.append_assoc]
  exact List.perm_append_comm

end Event

/-! ## Runs -/

/-- What is known of an order that a run created. -/
structure Journal.Conserves (j : Journal) (order : PendingOrder) : Prop where
  side : ∀ fill ∈ j.state.fills, FillOf order.sequence fill → 0 < fill.qty * order.qty
  balance : filledOf order.sequence j.state.fills + remainderOf order.sequence j.state.pending +
    remainderOf order.sequence j.cancelled + remainderOf order.sequence j.dust = order.qty
  atMost : |filledOf order.sequence j.state.fills| ≤ |order.qty|
  single : (j.state.pending.filter fun o => o.sequence = order.sequence).length ≤ 1

/-- A part of a whole, with the rest on its side too, is not more than the whole. -/
theorem part_le {part rest whole : ℚ} (sum : part + rest = whole) (nonzero : whole ≠ 0) (side : 0 ≤ part * whole)
    (side' : 0 ≤ rest * whole) : |part| ≤ |whole| := by
  have squares : part * whole + rest * whole = whole * whole := by rw [← add_mul, sum]
  have product : |part| * |whole| ≤ |whole| * |whole| := by
    rw [← abs_mul, abs_of_nonneg side, ← abs_mul, abs_mul_self]
    linarith
  exact le_of_mul_le_mul_right product (abs_pos.mpr nonzero)

theorem Accounting.conserves {j : Journal} (h : Accounting j.created (j.cancelled ++ j.dust) j.state [])
    {order : PendingOrder} (member : order ∈ j.created) : j.Conserves order := by
  have all : Conserved j.created (j.cancelled ++ j.dust) j.state.fills (j.state.pending ++ []) j.state.sequence := h
  rw [List.append_nil] at all
  have only (c : PendingOrder) (among : c ∈ j.created) (same : c.sequence = order.sequence) : c = order :=
    List.inj_on_of_nodup_map all.distinct among member same
  have side : ∀ fill ∈ j.state.fills, FillOf order.sequence fill → 0 < fill.qty * order.qty := by
    intro fill inside own
    obtain ⟨c, among, same, side⟩ := all.ofFill fill inside _ own
    exact only c among same ▸ side
  have balance := all.balance order member
  have dropped : remainderOf order.sequence (j.cancelled ++ j.dust) =
      remainderOf order.sequence j.cancelled + remainderOf order.sequence j.dust := Tally.total_append _ _ _ _ _
  have live : 0 ≤ remainderOf order.sequence j.state.pending * order.qty := by
    refine Tally.total_side _ _ _ _ fun o inside own => ?_
    obtain ⟨c, among, same, side⟩ := all.ofLive o inside
    exact (only c among (same.trans own) ▸ side).le
  have gone : 0 ≤ remainderOf order.sequence (j.cancelled ++ j.dust) * order.qty := by
    refine Tally.total_side _ _ _ _ fun o inside own => ?_
    obtain ⟨c, among, same, side⟩ := all.ofDropped o inside
    exact only c among (same.trans own) ▸ side
  have filled : 0 ≤ filledOf order.sequence j.state.fills * order.qty :=
    Tally.total_side _ _ _ _ fun fill inside own => (side fill inside own).le
  refine ⟨side, ?_, ?_, Tally.length_filter_le_one all.single _⟩
  · rw [dropped] at balance
    linarith
  · rw [add_assoc] at balance
    refine part_le balance (all.nonzero order member) filled ?_
    rw [add_mul]
    exact add_nonneg live gone

theorem dust_le {g : Engine} {event : MarketEvent} {idx seqLen : ℕ} {order o : PendingOrder}
    (member : o ∈ dustOf g event idx seqLen order) : |o.qty| ≤ deadBand := by
  unfold dustOf at member
  simp only at member
  split at member
  · rename_i small
    rw [List.mem_singleton.mp member]
    exact small.2.2
  · cases member

/-- **Run lemma**: the journal of a run accounts for every order, and its dust is dust. -/
theorem Engine.journal_accounting {g : Engine} {done : List MarketEvent} {j : Journal} (run : g.journal done = .ok j) :
    Accounting j.created (j.cancelled ++ j.dust) j.state [] ∧ ∀ o ∈ j.dust, |o.qty| ≤ deadBand := by
  refine Run.invariant (P := fun _ (j : Journal) => Accounting j.created (j.cancelled ++ j.dust) j.state [] ∧
    ∀ o ∈ j.dust, |o.qty| ≤ deadBand) ⟨?_, fun o member => by cases member⟩ ?_ (List.append_nil done).symm run
  · constructor <;> simp [Engine.start]
  · rintro _ event _ t u _ ⟨h, dust⟩ step
    obtain ⟨symbolSeq, idx, target, -, -, -, rfl⟩ := Journal.step_ok.mp step
    refine ⟨h.record, fun o member => ?_⟩
    rcases List.mem_append.mp member with before | here
    · exact dust o before
    · obtain ⟨order, -, inside⟩ := List.mem_flatMap.mp here
      exact dust_le inside

/-- **The quantity of an order is conserved.** In every run, for every order it created:
its fills are on its side, they and its pending remainder and what a cancel or the dust
rule dropped of it add up to the quantity it was created with, they are never more than
that, and no two remainders of it are pending. -/
theorem order_conserved {g : Engine} {done : List MarketEvent} {st : LoopState} (run : g.run done = .ok st) :
    ∃ j, g.journal done = .ok j ∧ j.state = st ∧ (j.created.map PendingOrder.sequence).Nodup ∧
      (∀ o ∈ j.dust, |o.qty| ≤ deadBand) ∧ ∀ order ∈ j.created, j.Conserves order := by
  obtain ⟨j, journal, same⟩ := Engine.journal_of_run run
  obtain ⟨accounts, dust⟩ := Engine.journal_accounting journal
  exact ⟨j, journal, same, accounts.distinct, dust, fun order member => accounts.conserves member⟩

/-- The reversal creates two orders and cancels the first. -/
theorem order_conserved_reversal : ∃ (g : Engine) (st : LoopState) (j : Journal), setUp (reversal 0) = .ok g ∧
    g.run (reversal 0).ordered = .ok st ∧ g.journal (reversal 0).ordered = .ok j ∧ j.created.length = 2 ∧
    j.cancelled.length = 1 ∧ ∀ order ∈ j.created, j.Conserves order := by
  obtain ⟨g, admitted, check⟩ := Run.endsIn_iff.mp (show Run.endsIn (setUp (reversal 0)) (fun g =>
    Run.endsIn (g.run (reversal 0).ordered) (fun _ => true) &&
    Run.endsIn (g.journal (reversal 0).ordered) fun j => decide (j.created.length = 2 ∧ j.cancelled.length = 1)) = true by
    decide +kernel)
  obtain ⟨first, second⟩ := Bool.and_eq_true_iff.mp check
  obtain ⟨st, run, -⟩ := Run.endsIn_iff.mp first
  obtain ⟨j', journal', sizes⟩ := Run.endsIn_iff.mp second
  obtain ⟨j, journal, -, -, -, conserves⟩ := order_conserved run
  have same : j' = j := Except.ok.inj (journal'.symm.trans journal)
  subst same
  obtain ⟨created, cancelled⟩ := of_decide_eq_true sizes
  exact ⟨g, st, j', admitted, run, journal', created, cancelled, conserves⟩

end CryptoQuant.Mvp11
