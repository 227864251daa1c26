import CryptoQuant.Backtest.Mvp11.Conservation

/-!
# The series up to a point

The loop holds the whole series of every symbol while it works through the events: it
asks for their length, for the index of an event and for the event on which an order
matures. `LoopState.upTo` is what is left of a state when the series are known up to a
point only: execution indices are cut off there, and a symbol without an event so far has
no mark. Each phase of the loop body commutes with it.
-/

namespace CryptoQuant.Mvp11
set_option autoImplicit false

/-! ## States up to a point of the series -/

/-- Nothing is held of a symbol that has shown no event. -/
def Unheld (shown : String → ℕ) (positions : Py.Dict String ℚ) : Prop :=
  ∀ symbol, shown symbol = 0 → positions.getD symbol 0 = 0

/-! ## The matured orders -/

section Matching
variable {shown : String → ℕ} {g : Engine} {event : MarketEvent} {idx seqLen : ℕ} {st : LoopState} {order : PendingOrder}

/-- What is kept of the pending orders is what has not matured. -/
theorem processMatured_eq (st : LoopState) :
    processMatured g event idx seqLen st = (st.pending.filter (isMatured event idx)).foldl
      (fillMatured g event idx seqLen) { st with pending := st.pending.filter fun order => !isMatured event idx order } := by
  have kept : (st.pending.filter fun order => decide (order ∉ st.pending.filter (isMatured event idx))) =
      st.pending.filter fun order => !isMatured event idx order := by
    refine List.filter_congr fun order member => ?_
    simp only [List.mem_filter, member, true_and, Bool.decide_eq_true, decide_not]
  unfold processMatured
  simp only [kept]

end Matching

/-! ## The target -/

section Target
variable {shown : String → ℕ} {g : Engine} {event : MarketEvent} {idx : ℕ} {st : LoopState}

end Target

/-! ## Funding, liquidation and the curve -/

section Marks
variable {shown : String → ℕ} {g : Engine} {event : MarketEvent} {st : LoopState}

/-- What is held is worth the same at the marks that are shown. -/
theorem Unheld.worth (unheld : Unheld shown st.positions) (s : String) (mark : ℚ) :
    st.positions.getD s 0 * (if shown s = 0 then 0 else mark) = st.positions.getD s 0 * mark := by
  split
  · rename_i hidden
    rw [unheld s hidden, zero_mul, zero_mul]
  · rfl

theorem Unheld.liquidateSymbol (unheld : Unheld shown st.positions) (symbol : String) :
    Unheld shown (liquidateSymbol g event st symbol).positions := by
  rcases liquidateSymbol_cases g event st symbol with ⟨-, same⟩ | ⟨-, fill, -, -, -, closed⟩
  · rw [same]
    exact unheld
  · rw [closed]
    intro s hidden
    rw [Py.Dict.getD_set]
    split
    · rfl
    · exact unheld s hidden

theorem Unheld.checkLiquidation (unheld : Unheld shown st.positions) :
    Unheld shown (checkLiquidation g event st).positions := by
  unfold Mvp11.checkLiquidation
  split
  · exact Run.foldl_invariant (P := fun st : LoopState => Unheld shown st.positions)
      (fun s symbol _ h => h.liquidateSymbol symbol) unheld
  · exact unheld

/-- Only the event's symbol is bought or sold before the liquidation check. -/
theorem Unheld.processMatured {idx seqLen : ℕ} (seen : shown event.symbol ≠ 0) (unheld : Unheld shown st.positions) :
    Unheld shown (processMatured g event idx seqLen st).positions := by
  rw [processMatured_eq]
  refine Run.foldl_invariant (P := fun st : LoopState => Unheld shown st.positions) ?_ unheld
  intro s order member h
  have own : order.symbol = event.symbol := (of_decide_eq_true (List.mem_filter.mp member).2).1
  have booked (isMaker : Bool) (pending : List PendingOrder) (drawn : ℕ) :
      Unheld shown (s.book (maturedFill g.config event order isMaker) pending drawn).positions := by
    intro symbol hidden
    have other : ¬ order.symbol = symbol := fun same => seen (own ▸ same ▸ hidden)
    rw [book_position, h symbol hidden, zero_add]
    exact if_neg other
  have outcome := fillMatured_matched g event idx seqLen s order
  generalize fillMatured g event idx seqLen s order = s' at outcome
  cases outcome with
  | nothing => exact h
  | requeued => exact h
  | residual isMaker => exact booked isMaker _ _
  | done isMaker => exact booked isMaker _ _

end Marks

/-! ## The loop body -/

section Step
variable {shown : String → ℕ} {g : Engine} {event : MarketEvent} {idx : ℕ} {st : LoopState} {series later : List MarketEvent}

end Step

end CryptoQuant.Mvp11
