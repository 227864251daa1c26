import CryptoQuant.Indicators.Builtin
import CryptoQuant.Lib.Windows
import Mathlib.Algebra.Field.Defs

/-!
# The rolling mean

`sma` and `SMAIndicator.compute` keep a running sum of the closes and take off the one that
leaves the window. The sum is that of the last `window` closes, so from the first full window
on both write the mean of the window.
-/

namespace CryptoQuant.Indicators
set_option autoImplicit false

open Prefix

variable {K : Type} [Field K] {values : List K} {window : ℕ}

/-- Both loops do the same in a round: their tests for a full window agree. -/
theorem smaIndicatorRound_eq (values : List K) (window : ℕ) : smaIndicatorRound values window = smaRound values window := by
  funext i st
  unfold smaIndicatorRound smaRound
  dsimp only
  by_cases full : window - 1 ≤ i
  · rw [if_pos full, if_neg (show ¬ i + 1 < window by omega)]
  · rw [if_neg full, if_pos (show i + 1 < window by omega)]

/-- What the loop holds before round `i`: the sum of the last `window` values, and the entry of
the round before. -/
structure Rolling (values : List K) (window i : ℕ) (st : K × Option K) : Prop where
  sum : st.1 = ∑ j ∈ Finset.Ico (i - window) i, values.getD j 0
  entry : 0 < i → st.2 = if window ≤ i then some (st.1 / window) else none

/-- **One round.** -/
theorem Rolling.round {i : ℕ} {st : K × Option K} (rolling : Rolling values window i st) (positive : 0 < window) :
    Rolling values window (i + 1) (smaRound values window i st) := by
  constructor
  · rw [Windows.sum_slide, ← rolling.sum]
    rfl
  · intro _
    unfold smaRound
    dsimp only
    by_cases full : window ≤ i + 1
    · rw [if_pos (show window - 1 ≤ i by omega), if_pos full]
    · rw [if_neg (show ¬ window - 1 ≤ i by omega), if_neg full]

/-- **The loop.** -/
theorem getElem?_smaValues (positive : 0 < window) {i : ℕ} (below : i < values.length) :
    (smaValues values window)[i]? =
      some (if window ≤ i + 1 then some ((∑ j ∈ Finset.Ico (i + 1 - window) (i + 1), values.getD j 0) / window) else none) := by
  have start : Rolling values window 0 (0, none) := by
    constructor
    · rw [Nat.zero_sub, Finset.Ico_self, Finset.sum_empty]
    · intro never
      omega
  have length : i < (states (smaRound values window) 0 values.length (0, none)).length := by rwa [length_states]
  have found := List.getElem?_eq_getElem length
  have found' : ((0, none) :: states (smaRound values window) 0 values.length (0, none))[i + 1]? = _ := found
  have rolling := states_invariant (P := Rolling values window) start (fun _ _ _ _ rolling => rolling.round positive) found'
  rw [Nat.zero_add] at rolling
  rw [smaValues, List.getElem?_map, found, Option.map_some, rolling.entry (Nat.succ_pos i), rolling.sum]

theorem length_smaValues : (smaValues values window).length = values.length := by
  rw [smaValues, List.length_map, length_states]

/-- **The rolling mean** over any field, exact rationals among them: `sma` and `SMAIndicator.compute`
return one list, without a value before the first full window and with the mean of the last
`window` closes from there on, and it is the middle line of `bollinger_bands`. -/
theorem rolling_mean {β : Type} [DecidableEq K] (ops : NumberOps K) (numStddev : K) (close : β → K) (bars : List β) (name : String)
    {window : ℤ} (positive : 0 < window) :
    ∃ values, sma close bars window = .ok values ∧ (SMAIndicator.mk window name).compute close ⟨bars⟩ = .ok values ∧
      (∃ upper lower, bollingerBands ops close numStddev bars window = .ok (upper, values, lower)) ∧
      values.length = bars.length ∧
      (∀ i : ℕ, i < bars.length → i < window - 1 → values[i]? = some none) ∧
      ∀ i : ℕ, i < bars.length → window - 1 ≤ i →
        values[i]? = some (some ((∑ j ∈ Finset.Icc (i + 1 - window.toNat) i, (bars.map close).getD j 0) / (window.toNat : K))) := by
  have valid : validateWindow window = .ok () := raiseIf_ok.mpr (not_le.mpr positive)
  have valid' : raiseIf (window ≤ 0) (.valueError "window must be > 0") = .ok () := raiseIf_ok.mpr (not_le.mpr positive)
  have returns : sma close bars window = .ok (smaValues (bars.map close) window.toNat) := by
    unfold sma
    rw [valid]
    rfl
  have size : (bars.map close).length = bars.length := List.length_map close
  refine ⟨smaValues (bars.map close) window.toNat, returns, ?_, ?_, ?_, ?_, ?_⟩
  · unfold SMAIndicator.compute
    dsimp only
    rw [valid', smaIndicatorRound_eq]
    rfl
  · unfold bollingerBands
    rw [valid, returns]
    exact ⟨_, _, rfl⟩
  · rw [length_smaValues, size]
  · intro i below warming
    rw [getElem?_smaValues (by omega) (size ▸ below), if_neg (by omega)]
  · intro i below full
    rw [getElem?_smaValues (by omega) (size ▸ below), if_pos (by omega), Finset.Ico_add_one_right_eq_Icc]

/-- Four closes. -/
def fourCloses : List ℚ := [1, 2, 6, 4]

/-- Their means by three. -/
theorem rolling_mean_four : sma id fourCloses 3 = .ok [none, none, some 3, some 4] ∧
    (SMAIndicator.mk 3 "sma").compute id ⟨fourCloses⟩ = .ok [none, none, some 3, some 4] := by
  have value : sma id fourCloses 3 = .ok [none, none, some 3, some 4] := by decide +kernel
  obtain ⟨values, returns, computes, -⟩ := rolling_mean ⟨id, abs, List.sum⟩ 2 id fourCloses "sma" (show (0 : ℤ) < 3 by decide)
  exact ⟨value, computes.trans (returns.symm.trans value)⟩

end CryptoQuant.Indicators
