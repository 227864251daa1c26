import CryptoQuant.Basic
import CryptoQuant.Lib.Run
import Mathlib.Analysis.Real.Sqrt

/-!
# The performance monitor

`monitoring/performance.py`: fills and mark prices in, and after each a snapshot
of profit, drawdown, win rate and a score of the equity changes. Amounts are
exact rationals; the score divides by a standard deviation and is a real number.
-/

namespace CryptoQuant.Performance
set_option autoImplicit false

/-- `PositionPerformance`. -/
structure PositionPerformance where
  symbol : String
  qty : ℚ
  avgEntryPrice : ℚ
  markPrice : Option ℚ
  notionalExposure : ℚ
  unrealizedPnl : ℚ

/-- `PerformanceSnapshot`. -/
structure PerformanceSnapshot where
  ts : DateTime
  realizedPnl : ℚ
  unrealizedPnl : ℚ
  feeTotal : ℚ
  slippageTotal : ℚ
  netPnl : ℚ
  maxDrawdown : ℚ
  closeTrades : ℕ
  winRate : ℚ
  sharpeLike : ℝ
  bySymbol : Py.Dict String PositionPerformance

/-- `_PositionState`. -/
structure PositionState where
  qty : ℚ := 0
  avgEntryPrice : ℚ := 0
  markPrice : Option ℚ := none

/-- `RealTimePerformanceMonitor`. -/
structure RealTimePerformanceMonitor where
  positions : Py.Dict String PositionState := .empty
  realizedPnl : ℚ := 0
  feeTotal : ℚ := 0
  slippageTotal : ℚ := 0
  equityPeak : ℚ := 0
  maxDrawdown : ℚ := 0
  lastNet : ℚ := 0
  returns : List ℚ := []
  closeTrades : ℕ := 0
  winningCloses : ℕ := 0

namespace PositionState

/-- The fill opens the position or adds to it. -/
def Opens (pos : PositionState) (qty : ℚ) : Prop := pos.qty = 0 ∨ 0 < pos.qty * qty

instance (pos : PositionState) (qty : ℚ) : Decidable (pos.Opens qty) := inferInstanceAs (Decidable (_ ∨ _))

/-- `close_pnl` of a fill that closes some of the position. -/
def closePnl (pos : PositionState) (qty fillPrice : ℚ) : ℚ :=
  min |pos.qty| |qty| * (fillPrice - pos.avgEntryPrice) * (if 0 < pos.qty then 1 else -1)

/-- The position after a fill. -/
def filled (pos : PositionState) (qty fillPrice : ℚ) : PositionState :=
  let newQty := pos.qty + qty
  if pos.Opens qty then
    let totalCost := |pos.qty| * pos.avgEntryPrice + |qty| * fillPrice
    { pos with avgEntryPrice := totalCost / |newQty|, qty := newQty }
  else if newQty = 0 then { pos with qty := 0, avgEntryPrice := 0 }
  else if 0 < pos.qty * newQty then { pos with qty := newQty }
  else { pos with qty := newQty, avgEntryPrice := fillPrice }

/-- `symbol_unrealized`. -/
def unrealized (pos : PositionState) : ℚ :=
  match pos.markPrice with
  | some markPrice => if pos.qty ≠ 0 then pos.qty * (markPrice - pos.avgEntryPrice) else 0
  | none => 0

/-- `symbol_exposure`. -/
def exposure (pos : PositionState) : ℚ :=
  match pos.markPrice with
  | some markPrice => if pos.qty ≠ 0 then |pos.qty| * markPrice else 0
  | none => 0

/-- The entry of `by_symbol`. -/
def performance (symbol : String) (pos : PositionState) : PositionPerformance :=
  ⟨symbol, pos.qty, pos.avgEntryPrice, pos.markPrice, pos.exposure, pos.unrealized⟩

end PositionState

/-- `sum(xs) / len(xs)`. -/
def mean (xs : List ℚ) : ℚ := xs.sum / xs.length

/-- `sum((x - mean) ** 2 for x in xs) / len(xs)`. -/
def variance (xs : List ℚ) : ℚ := (xs.map fun x => (x - mean xs) ^ 2).sum / xs.length

/-- `sharpe_like` of the equity changes. -/
noncomputable def sharpeLike (returns : List ℚ) : ℝ :=
  if 1 < returns.length then
    let std := √(variance returns : ℝ)
    if std = 0 then 0 else (mean returns : ℝ) / std
  else 0

namespace RealTimePerformanceMonitor

/-- The unrealized profit of all positions. -/
def unrealized (m : RealTimePerformanceMonitor) : ℚ := (m.positions.values.map PositionState.unrealized).sum

/-- The net profit. -/
def net (m : RealTimePerformanceMonitor) : ℚ := m.realizedPnl + m.unrealized - m.feeTotal - m.slippageTotal

/-- `win_rate`. -/
def winRate (m : RealTimePerformanceMonitor) : ℚ :=
  if m.closeTrades = 0 then 0 else m.winningCloses / m.closeTrades

/-- What `_build_snapshot` writes: the peak, the drawdown and one more change. -/
def observed (m : RealTimePerformanceMonitor) : RealTimePerformanceMonitor :=
  let net := m.net
  let equityPeak := if m.equityPeak < net then net else m.equityPeak
  let drawdown := equityPeak - net
  { m with equityPeak, maxDrawdown := if m.maxDrawdown < drawdown then drawdown else m.maxDrawdown,
           returns := m.returns ++ [net - m.lastNet], lastNet := net }

/-- The snapshot of a monitor that has just been observed. -/
noncomputable def read (m : RealTimePerformanceMonitor) (ts : DateTime) : PerformanceSnapshot where
  ts
  realizedPnl := m.realizedPnl
  unrealizedPnl := m.unrealized
  feeTotal := m.feeTotal
  slippageTotal := m.slippageTotal
  netPnl := m.net
  maxDrawdown := m.maxDrawdown
  closeTrades := m.closeTrades
  winRate := m.winRate
  sharpeLike := sharpeLike m.returns
  bySymbol := m.positions.mapValues PositionState.performance

/-- `_build_snapshot`; `now` is the clock it reads when no time is given. -/
noncomputable def buildSnapshot (m : RealTimePerformanceMonitor) (ts : Option DateTime) (now : DateTime) :
    PerformanceSnapshot × RealTimePerformanceMonitor :=
  (m.observed.read (ts.getD now), m.observed)

/-- What `record_fill` writes before it builds the snapshot. -/
def filled (m : RealTimePerformanceMonitor) (symbol : String) (qty fillPrice fee slippageCost : ℚ) :
    RealTimePerformanceMonitor :=
  let pos := m.positions.getD symbol {}
  let positions := m.positions.set symbol (pos.filled qty fillPrice)
  let feeTotal := m.feeTotal + fee
  let slippageTotal := m.slippageTotal + slippageCost
  if pos.Opens qty then { m with positions, feeTotal, slippageTotal }
  else
    let closePnl := pos.closePnl qty fillPrice
    { m with positions, feeTotal, slippageTotal, realizedPnl := m.realizedPnl + closePnl,
             closeTrades := m.closeTrades + 1,
             winningCloses := if 0 < closePnl then m.winningCloses + 1 else m.winningCloses }

/-- What `record_mark_price` writes before it builds the snapshot. -/
def marked (m : RealTimePerformanceMonitor) (symbol : String) (markPrice : ℚ) : RealTimePerformanceMonitor :=
  { m with positions := m.positions.set symbol { m.positions.getD symbol {} with markPrice := some markPrice } }

/-- `record_fill`. -/
noncomputable def recordFill (m : RealTimePerformanceMonitor) (symbol : String) (qty fillPrice fee slippageCost : ℚ)
    (ts : Option DateTime) (now : DateTime) : Except PyError PerformanceSnapshot × RealTimePerformanceMonitor :=
  if qty = 0 then (.error (.valueError "qty must be non-zero"), m)
  else if fillPrice ≤ 0 then (.error (.valueError "fill_price must be positive"), m)
  else if fee < 0 ∨ slippageCost < 0 then (.error (.valueError "fee/slippage must be non-negative"), m)
  else
    let (snapshot, m) := (m.filled symbol qty fillPrice fee slippageCost).buildSnapshot ts now
    (.ok snapshot, m)

/-- `record_mark_price`. -/
noncomputable def recordMarkPrice (m : RealTimePerformanceMonitor) (symbol : String) (markPrice : ℚ)
    (ts : Option DateTime) (now : DateTime) : Except PyError PerformanceSnapshot × RealTimePerformanceMonitor :=
  if markPrice ≤ 0 then (.error (.valueError "mark_price must be positive"), m)
  else
    let (snapshot, m) := (m.marked symbol markPrice).buildSnapshot ts now
    (.ok snapshot, m)

/-- `snapshot`. -/
noncomputable def snapshot (m : RealTimePerformanceMonitor) (ts : Option DateTime) (now : DateTime) :
    Except PyError PerformanceSnapshot × RealTimePerformanceMonitor :=
  let (snapshot, m) := m.buildSnapshot ts now
  (.ok snapshot, m)

end RealTimePerformanceMonitor

/-! ## Calls -/

/-- A method with its arguments. -/
inductive Method
  | recordFill (symbol : String) (qty fillPrice fee slippageCost : ℚ)
  | recordMarkPrice (symbol : String) (markPrice : ℚ)
  | snapshot

/-- A call: a method, the time stamp given, and the clock. -/
structure MonitorCall where
  method : Method
  ts : Option DateTime := none
  now : DateTime := 0

namespace Method

/-- The arguments pass every check of the method. -/
def Accepted : Method → Prop
  | .recordFill _ qty fillPrice fee slippageCost => qty ≠ 0 ∧ 0 < fillPrice ∧ 0 ≤ fee ∧ 0 ≤ slippageCost
  | .recordMarkPrice _ markPrice => 0 < markPrice
  | .snapshot => True

instance (method : Method) : Decidable method.Accepted :=
  match method with
  | .recordFill _ _ _ _ _ => inferInstanceAs (Decidable (_ ∧ _))
  | .recordMarkPrice _ _ => inferInstanceAs (Decidable (_ < _))
  | .snapshot => inferInstanceAs (Decidable True)

/-- What an accepted method writes before it builds the snapshot. -/
def write (m : RealTimePerformanceMonitor) : Method → RealTimePerformanceMonitor
  | .recordFill symbol qty fillPrice fee slippageCost => m.filled symbol qty fillPrice fee slippageCost
  | .recordMarkPrice symbol markPrice => m.marked symbol markPrice
  | .snapshot => m

end Method

namespace RealTimePerformanceMonitor

/-- The calls of a run, one after the other. -/
noncomputable def machine : Run.Machine RealTimePerformanceMonitor MonitorCall (Except PyError PerformanceSnapshot) where
  call m c :=
    match c.method with
    | .recordFill symbol qty fillPrice fee slippageCost => m.recordFill symbol qty fillPrice fee slippageCost c.ts c.now
    | .recordMarkPrice symbol markPrice => m.recordMarkPrice symbol markPrice c.ts c.now
    | .snapshot => m.snapshot c.ts c.now

section Call
variable {m : RealTimePerformanceMonitor} {c : MonitorCall}

/-- **What a call does**: an accepted one writes, observes and reads. -/
theorem call_accepted (accepted : c.method.Accepted) :
    machine.call m c = (.ok ((c.method.write m).observed.read (c.ts.getD c.now)), (c.method.write m).observed) := by
  obtain ⟨method, ts, now⟩ := c
  cases method with
  | recordFill symbol qty fillPrice fee slippageCost =>
    obtain ⟨nonzero, price, fee_, slippage⟩ := accepted
    show recordFill _ _ _ _ _ _ _ _ = _
    rw [recordFill, if_neg nonzero, if_neg (not_le.mpr price), if_neg (not_or.mpr ⟨not_lt.mpr fee_, not_lt.mpr slippage⟩)]
    rfl
  | recordMarkPrice symbol markPrice =>
    show recordMarkPrice _ _ _ _ _ = _
    rw [recordMarkPrice, if_neg (not_le.mpr accepted)]
    rfl
  | snapshot => rfl

/-- A refused call raises and changes nothing, whatever the state. -/
theorem call_refused (refused : ¬ c.method.Accepted) : ∃ e, ∀ m, machine.call m c = (.error e, m) := by
  obtain ⟨method, ts, now⟩ := c
  cases method with
  | recordFill symbol qty fillPrice fee slippageCost =>
    show ∃ e, ∀ m, recordFill m _ _ _ _ _ _ _ = _
    unfold recordFill
    by_cases zero : qty = 0
    · exact ⟨_, fun m => by rw [if_pos zero]⟩
    by_cases price : fillPrice ≤ 0
    · exact ⟨_, fun m => by rw [if_neg zero, if_pos price]⟩
    by_cases costs : fee < 0 ∨ slippageCost < 0
    · exact ⟨_, fun m => by rw [if_neg zero, if_neg price, if_pos costs]⟩
    · rw [not_or, not_lt, not_lt] at costs
      exact absurd ⟨zero, not_le.mp price, costs⟩ refused
  | recordMarkPrice symbol markPrice =>
    exact ⟨_, fun m => if_pos (not_lt.mp refused)⟩
  | snapshot => exact absurd trivial refused

theorem next_eq (m : RealTimePerformanceMonitor) (c : MonitorCall) :
    machine.next m c = if c.method.Accepted then (c.method.write m).observed else m := by
  unfold Run.Machine.next
  split
  · rename_i accepted
    rw [call_accepted accepted]
  · rename_i refused
    obtain ⟨e, raised⟩ := call_refused refused
    rw [raised]

/-- The snapshot a call returns is read off the state it leaves. -/
theorem answer_ok {snapshot : PerformanceSnapshot} (answered : machine.answer m c = .ok snapshot) :
    c.method.Accepted ∧ snapshot = (machine.next m c).read (c.ts.getD c.now) := by
  by_cases accepted : c.method.Accepted
  · rw [next_eq, if_pos accepted]
    rw [Run.Machine.answer, call_accepted accepted] at answered
    exact ⟨accepted, (Except.ok.inj answered).symm⟩
  · obtain ⟨e, raised⟩ := call_refused accepted
    rw [Run.Machine.answer, raised] at answered
    cases answered

end Call

end RealTimePerformanceMonitor

end CryptoQuant.Performance
