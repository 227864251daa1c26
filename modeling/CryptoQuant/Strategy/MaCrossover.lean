import CryptoQuant.Events.Market
import Mathlib.Data.List.DropRight

/-!
# The moving average crossover strategy

`strategy/ma_crossover.py`: long while the mean of the last few closes is above
the mean of more of them, short while it is below.
-/

namespace CryptoQuant
set_option autoImplicit false

/-- `MovingAverageCrossoverStrategy`, with what its constructor checks. -/
structure MovingAverageCrossoverStrategy where
  fast : ℕ
  slow : ℕ
  baseQty : ℚ
  fast_pos : 0 < fast
  fast_lt_slow : fast < slow
  baseQty_pos : 0 < baseQty

namespace MovingAverageCrossoverStrategy

/-- `MovingAverageCrossoverStrategy(fast_window, slow_window, base_qty)`. -/
def new (fastWindow slowWindow : ℤ) (baseQty : ℚ) : Except PyError MovingAverageCrossoverStrategy :=
  if pos : fastWindow ≤ 0 ∨ slowWindow ≤ 0 then
    .error (.valueError "moving average window must be positive")
  else if lt : slowWindow ≤ fastWindow then
    .error (.valueError "fast_window must be smaller than slow_window")
  else if base : baseQty ≤ 0 then
    .error (.valueError "base_qty must be positive")
  else
    .ok { fast := fastWindow.toNat, slow := slowWindow.toNat, baseQty,
          fast_pos := by omega, fast_lt_slow := by omega, baseQty_pos := not_le.mp base }

/-- `target_qty`. -/
def targetQty (strategy : MovingAverageCrossoverStrategy) (bars : List Bar) : ℚ :=
  if bars.length < strategy.slow then 0
  else
    let closeValues := (bars.map Bar.close).rtake strategy.slow
    let slowMa := closeValues.sum / strategy.slow
    let fastMa := (closeValues.rtake strategy.fast).sum / strategy.fast
    if slowMa < fastMa then strategy.baseQty
    else if fastMa < slowMa then -strategy.baseQty
    else 0

@[simp] theorem targetQty_nil (strategy : MovingAverageCrossoverStrategy) : strategy.targetQty [] = 0 :=
  if_pos (strategy.fast_pos.trans strategy.fast_lt_slow)

end MovingAverageCrossoverStrategy

end CryptoQuant
