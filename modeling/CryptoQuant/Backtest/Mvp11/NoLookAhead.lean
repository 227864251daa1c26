import CryptoQuant.Backtest.Mvp11.Cash
import CryptoQuant.Backtest.Mvp11.Shown

/-!
# No look-ahead

Two histories with the same past and any futures take the realistic backtest through the
same states, up to the execution index of orders that none of the events of the past
reaches. What a backtest reports for the events of the past does therefore not depend on
what comes after them. The past ends before the last event of each symbol: on that one
the loop matures every order that is still pending.
-/

namespace CryptoQuant.Mvp11
set_option autoImplicit false

section Series
variable {args : BacktestArgs} {g : Engine} {past future : List MarketEvent}

end Series

/-! ## Two histories with one past -/

section Pair
variable {args : BacktestArgs} {g g' : Engine} {past future future' events' : List MarketEvent}

end Pair

/-! ## What the fills are stamped with -/

/-- What is added to the fills has the time stamp. -/
def StampedAt (ts : DateTime) (st st' : LoopState) : Prop :=
  ∃ added, st'.fills = st.fills ++ added ∧ ∀ fill ∈ added, fill.ts = ts

section Stamps
variable {g : Engine} {event : MarketEvent} {ts : DateTime} {a b c st : LoopState}

theorem StampedAt.of_same (fills : b.fills = a.fills) : StampedAt ts a b :=
  ⟨[], by rw [fills, List.append_nil], fun _ member => by cases member⟩

theorem StampedAt.trans (h : StampedAt ts a b) (k : StampedAt ts b c) : StampedAt ts a c := by
  obtain ⟨first, fills, own⟩ := h
  obtain ⟨more, fills', own'⟩ := k
  refine ⟨first ++ more, by rw [fills', fills, List.append_assoc], fun fill member => ?_⟩
  exact (List.mem_append.mp member).elim (own fill) (own' fill)

end Stamps

end CryptoQuant.Mvp11
