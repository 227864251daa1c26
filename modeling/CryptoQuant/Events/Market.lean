import CryptoQuant.Basic
import Mathlib.Data.List.Sort

/-!
# Market events

`events/market.py`, and the stable sort by time stamp that every replay loop
starts with.
-/

namespace CryptoQuant
set_option autoImplicit false

/-- `Timeframe`. -/
inductive Timeframe
  | m1 | m5 | m15 | h1 | h4 | d1
deriving DecidableEq, Repr

/-- The literal of a time frame. -/
def Timeframe.text : Timeframe → String
  | .m1 => "1m"
  | .m5 => "5m"
  | .m15 => "15m"
  | .h1 => "1h"
  | .h4 => "4h"
  | .d1 => "1d"

/-- `MarketEvent`. -/
structure MarketEvent where
  symbol : String
  timeframe : Timeframe
  close : ℚ
  ts : DateTime
  source : String := "dummy"
deriving DecidableEq, Repr

/-- `Bar`, of `aggregation/bar_aggregator.py`. -/
structure Bar where
  symbol : String
  timeframe : String
  ts : DateTime
  «open» : ℚ
  high : ℚ
  low : ℚ
  close : ℚ
  volume : ℚ := 0
deriving DecidableEq, Repr

/-- `sorted(events, key=lambda event: event.ts)`. -/
def sortedByTs (events : List MarketEvent) : List MarketEvent :=
  events.insertionSort fun a b => a.ts ≤ b.ts

theorem mem_sortedByTs {events : List MarketEvent} {e : MarketEvent} :
    e ∈ sortedByTs events ↔ e ∈ events :=
  List.mem_insertionSort _

theorem sortedByTs_perm (events : List MarketEvent) : (sortedByTs events).Perm events :=
  List.perm_insertionSort _ events

instance : Std.Total fun a b : MarketEvent => a.ts ≤ b.ts := ⟨fun a b => le_total a.ts b.ts⟩
instance : IsTrans MarketEvent fun a b => a.ts ≤ b.ts := ⟨fun _ _ _ => le_trans⟩

instance : Std.Total fun a b : Bar => a.ts ≤ b.ts := ⟨fun a b => le_total a.ts b.ts⟩
instance : IsTrans Bar fun a b => a.ts ≤ b.ts := ⟨fun _ _ _ => le_trans⟩

/-- The sorted events are in time order. -/
theorem pairwise_sortedByTs (events : List MarketEvent) :
    (sortedByTs events).Pairwise fun a b => a.ts ≤ b.ts :=
  List.pairwise_insertionSort _ events

end CryptoQuant
