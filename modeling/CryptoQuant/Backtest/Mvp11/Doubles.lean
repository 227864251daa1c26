import CryptoQuant.Backtest.Mvp11.Conservation

/-!
# The quantity of an order on doubles

What the loop over the matured orders does with the quantity of an order, on any numbers.
On rationals it is what `fillMatured` does, and the quantity is conserved; on doubles,
with their rounded operations, the fills of an order may add up to more than the order.
-/

namespace CryptoQuant.Mvp11
set_option autoImplicit false

/-- The numbers that the loop reads: three of the config, `1e-9` and `1e-12`. -/
structure Matching (K : Type) where
  baseFillRatio : K
  queueAheadNotional : K
  defaultDepthNotional : K
  tiny : K
  deadBand : K

namespace Matching

section Numbers
variable {K : Type} [Zero K] [One K] [Add K] [Sub K] [Mul K] [Div K] [Neg K] [BEq K]
  [LT K] [DecidableLT K] [LE K] [DecidableLE K]

/-- `max(a, b)`. -/
def larger (a b : K) : K := if a < b then b else a

/-- `min(a, b)`. -/
def smaller (a b : K) : K := if b < a then b else a

/-- `abs(a)`. -/
def size (a : K) : K := if a < 0 then -a else a

/-- `depth_qty`. -/
def depthQty (m : Matching K) (close : K) : K := larger (m.defaultDepthNotional / larger close m.tiny) m.tiny

/-- `queue_factor`. -/
def queueFactor (m : Matching K) (close : K) : K :=
  let depthQty := m.depthQty close
  let queueQty := larger (m.queueAheadNotional / larger close m.tiny) 0
  if 0 < depthQty + queueQty then depthQty / (depthQty + queueQty) else 1

/-- `filled_qty`. -/
def filledQty (m : Matching K) (close remaining : K) : K :=
  let qtyAbs := size remaining
  let depthQty := m.depthQty close
  let fillRatio := smaller 1 (m.baseFillRatio * m.queueFactor close * (depthQty / larger qtyAbs depthQty))
  size remaining * fillRatio

/-- What the loop fills of a remainder at a close, and what it leaves pending of it. -/
def round (m : Matching K) (close remaining : K) : Option K × Option K :=
  if remaining == 0 then (none, none)
  else
    let filledQty := m.filledQty close remaining
    if filledQty ≤ 0 then (none, some remaining)
    else
      let signedFillQty := if 0 < remaining then filledQty else -filledQty
      let residual := remaining - signedFillQty
      (some signedFillQty, if m.deadBand < size residual then some residual else none)

/-- The fills of an order at the closes at which it is matured, one after the other, and
what is left pending of it. -/
def life (m : Matching K) : List K → K → List K × Option K
  | [], remaining => ([], some remaining)
  | close :: closes, remaining =>
    match m.round close remaining with
    | (filled, none) => (filled.toList, none)
    | (filled, some left) =>
      let later := m.life closes left
      (filled.toList ++ later.1, later.2)

end Numbers

/-! ## On rationals -/

/-- The numbers of a config. -/
def ofConfig (config : ExecutionModelConfig) : Matching ℚ :=
  ⟨config.baseFillRatio, config.queueAheadNotional, config.defaultDepthNotional, Mvp11.tiny, Mvp11.deadBand⟩

section Exact
variable {config : ExecutionModelConfig} {close remaining : ℚ}

theorem larger_eq_max (a b : ℚ) : larger a b = max a b := (max_def_lt a b).symm

theorem smaller_eq_min (a b : ℚ) : smaller a b = min a b := by
  rw [min_comm, min_def_lt, smaller]

theorem size_eq_abs (a : ℚ) : size a = |a| := by
  unfold size
  split
  · rename_i negative
    exact (abs_of_neg negative).symm
  · rename_i nonneg
    exact (abs_of_nonneg (le_of_not_gt nonneg)).symm

theorem depthQty_ofConfig : (ofConfig config).depthQty close = Mvp11.depthQty config close := by
  simp only [depthQty, Mvp11.depthQty, larger_eq_max, ofConfig]

theorem queueFactor_ofConfig : (ofConfig config).queueFactor close = Mvp11.queueFactor config close := by
  simp only [queueFactor, Mvp11.queueFactor, depthQty_ofConfig, larger_eq_max]
  rfl

theorem filledQty_ofConfig : (ofConfig config).filledQty close remaining = Mvp11.filledQty config close remaining := by
  simp only [filledQty, Mvp11.filledQty, fillRatio, depthQty_ofConfig, queueFactor_ofConfig, larger_eq_max, smaller_eq_min,
    size_eq_abs]
  rfl

/-- The fill and the remainder of the loop over the matured orders. -/
theorem fillMatured_round (g : Engine) (event : MarketEvent) (idx seqLen : ℕ) (st : LoopState) (order : PendingOrder) :
    (fillMatured g event idx seqLen st order).fills.map Fill.qty =
      st.fills.map Fill.qty ++ ((ofConfig g.config).round event.close order.qty).1.toList ∧
    (fillMatured g event idx seqLen st order).pending.map PendingOrder.qty =
      st.pending.map PendingOrder.qty ++ ((ofConfig g.config).round event.close order.qty).2.toList := by
  by_cases zero : order.qty = 0
  · rw [fillMatured_of_zero zero, round, zero]
    simp
  have live : (order.qty == 0) = false := by simpa using zero
  unfold round
  rw [live, if_neg Bool.false_ne_true, filledQty_ofConfig]
  dsimp only
  by_cases unfilled : Mvp11.filledQty g.config event.close order.qty ≤ 0
  · rw [fillMatured_of_unfilled zero unfilled, if_pos unfilled]
    simp
  · rw [fillMatured_of_filled zero (lt_of_not_ge unfilled), if_neg unfilled]
    refine ⟨List.map_append, ?_⟩
    show (afterFill g event idx seqLen st.pending order).map PendingOrder.qty = _
    rw [afterFill, size_eq_abs]
    show _ = _ ++ (if Mvp11.deadBand < |(residualOrder g.config event idx seqLen order).qty| then
      some (residualOrder g.config event idx seqLen order).qty else none).toList
    split
    · exact List.map_append
    · exact (List.append_nil _).symm

/-- **Step lemma**: a round loses nothing but dust. -/
theorem round_conserved (m : Matching ℚ) (nonneg : 0 ≤ m.deadBand) (close remaining : ℚ) :
    ∃ dust, |dust| ≤ m.deadBand ∧
      (m.round close remaining).1.toList.sum + (m.round close remaining).2.getD dust = remaining := by
  unfold round
  split
  · rename_i none_
    exact ⟨0, by rwa [abs_zero], by simpa using (beq_iff_eq.mp none_).symm⟩
  dsimp only
  split
  · exact ⟨0, by rwa [abs_zero], zero_add _⟩
  rw [size_eq_abs]
  generalize (if 0 < remaining then m.filledQty close remaining else -m.filledQty close remaining) = signedFillQty
  split
  · exact ⟨0, by rwa [abs_zero], by simp⟩
  · rename_i small
    exact ⟨_, le_of_not_gt small, by simp⟩

/-- **Run lemma**: on rationals the fills of an order and what is left of it, or its dust, add
up to the order. -/
theorem life_conserved (m : Matching ℚ) (nonneg : 0 ≤ m.deadBand) (closes : List ℚ) (quantity : ℚ) :
    ∃ dust, |dust| ≤ m.deadBand ∧ (m.life closes quantity).1.sum + (m.life closes quantity).2.getD dust = quantity := by
  induction closes generalizing quantity with
  | nil => exact ⟨0, by rwa [abs_zero], zero_add _⟩
  | cons close closes ih =>
    obtain ⟨dust, small, here⟩ := m.round_conserved nonneg close quantity
    unfold life
    generalize m.round close quantity = result at here ⊢
    obtain ⟨filled, _ | left⟩ := result
    · exact ⟨dust, small, here⟩
    · obtain ⟨dust', small', later⟩ := ih left
      refine ⟨dust', small', ?_⟩
      dsimp only at here ⊢
      rw [List.sum_append, add_assoc, later]
      exact here

end Exact

/-! ## On doubles -/

/-- No queue ahead and a depth of notional 3. -/
def shallow : Matching Float := ⟨1, 0, 3, 1e-9, 1e-12⟩

/-- An order of 0.3 is matured at the closes 100 and 1: its fills, 0.03 and 0.27, add up to more. -/
theorem overfilled_on_doubles : shallow.life [100, 1] 0.3 = ([0.03, 0.27], none) ∧ (0.3 : Float) < 0.03 + 0.27 := by
  decide +kernel

end Matching

end CryptoQuant.Mvp11
