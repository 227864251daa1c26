import CryptoQuant.Indicators.Builtin

/-!
# The indicators do not look ahead

Every indicator is a loop that reads the closes, or the true ranges, up to the
place it writes, so the rules for causal loops apply.
-/

namespace CryptoQuant.Indicators
set_option autoImplicit false

open Prefix

variable {β K : Type}

/-- On the first bars the function gives exactly the first entries of what it gives
on all of them. -/
def NoLookAhead {α : Type} (f : List β → Except PyError (List α)) : Prop :=
  ∀ bars k, ∃ out, f bars = .ok out ∧ f (bars.take k) = .ok (out.take k)

/-- A function that returns a causal result does not look ahead. -/
theorem noLookAhead_of_causal {α : Type} {f : List β → Except PyError (List α)} {values : List β → List α}
    (returns : ∀ bars, f bars = .ok (values bars)) (causal : Causal values) : NoLookAhead f := by
  intro bars k
  refine ⟨values bars, returns bars, ?_⟩
  rw [returns, causal]

theorem validateWindow_ok {window : ℤ} (positive : 0 < window) : validateWindow window = .ok () :=
  raiseIf_ok.mpr (not_le.mpr positive)

/-! ## Moving averages -/

section Averages
variable [Zero K] [Add K] [Sub K] [Div K] [NatCast K] (ops : NumberOps K) (close : β → K) {values : List K} {i k : ℕ}

theorem smaRound_take (below : i < k) (window : ℕ) (st : K × Option K) :
    smaRound (values.take k) window i st = smaRound values window i st := by
  unfold smaRound
  rw [getD_take below, getD_take (by omega)]

theorem causal_smaValues (window : ℕ) : Causal fun values : List K => smaValues values window :=
  (causal_states (fun values => smaRound values window) (0, none)
    fun _ _ _ below st => smaRound_take below window st).map Prod.snd

theorem sma_returns {window : ℤ} (positive : 0 < window) (bars : List β) :
    sma close bars window = .ok (smaValues (bars.map close) window.toNat) := by
  unfold sma
  rw [validateWindow_ok positive]
  rfl

theorem sma_noLookAhead {window : ℤ} (positive : 0 < window) : NoLookAhead fun bars => sma close bars window :=
  noLookAhead_of_causal (sma_returns close positive) ((causal_smaValues window.toNat).comp (causal_map close))

theorem smaIndicatorRound_take (below : i < k) (window : ℕ) (st : K × Option K) :
    smaIndicatorRound (values.take k) window i st = smaIndicatorRound values window i st := by
  unfold smaIndicatorRound
  rw [getD_take below, getD_take (by omega)]

theorem SMAIndicator.noLookAhead {indicator : SMAIndicator} (positive : 0 < indicator.window) :
    NoLookAhead fun bars => indicator.compute close (K := K) ⟨bars⟩ := by
  have valid : raiseIf (indicator.window ≤ 0) (.valueError "window must be > 0") = .ok () :=
    raiseIf_ok.mpr (not_le.mpr positive)
  have causal := (causal_states (fun closes : List K => smaIndicatorRound closes indicator.window.toNat) (0, none)
    fun _ _ _ below st => smaIndicatorRound_take below indicator.window.toNat st).map Prod.snd
  refine noLookAhead_of_causal (fun bars => ?_) (causal.comp (causal_map close))
  unfold SMAIndicator.compute
  rw [valid]
  rfl

variable [One K] [Mul K]

theorem emaValues_eq_warmed {window : ℕ} (positive : 0 < window) :
    (fun values => emaValues ops values window) =
      warmed (window - 1) (fun values => ops.sum (values.take window) / (window : K))
        (fun values => emaRound values window) id := by
  have next : window - 1 + 1 = window := by omega
  funext values
  unfold emaValues warmed
  rw [next]
  by_cases short : values.length < window
  · rw [if_pos short, if_pos (by omega)]
  · rw [if_neg short, if_neg (by omega)]
    rfl

theorem causal_emaValues {window : ℕ} (positive : 0 < window) :
    Causal fun values => emaValues ops values window := by
  rw [emaValues_eq_warmed ops positive]
  apply causal_warmed
  · intro values k more
    rw [List.take_take, Nat.min_eq_left (by omega)]
  · intro values k i below prev
    unfold emaRound
    rw [getD_take below]

theorem ema_noLookAhead {window : ℤ} (positive : 0 < window) : NoLookAhead fun bars => ema ops close bars window := by
  have places : 0 < window.toNat := by omega
  refine noLookAhead_of_causal (fun bars => ?_) ((causal_emaValues ops places).comp (causal_map close))
  unfold ema
  rw [validateWindow_ok positive]
  rfl

theorem emaIndicatorRound_take (below : i < k) (window : ℕ) (ema : Option K) :
    emaIndicatorRound (values.take k) window i ema = emaIndicatorRound values window i ema := by
  unfold emaIndicatorRound
  rw [getD_take below]

theorem EMAIndicator.noLookAhead {indicator : EMAIndicator} (positive : 0 < indicator.window) :
    NoLookAhead fun bars => indicator.compute close (K := K) ⟨bars⟩ := by
  have valid : raiseIf (indicator.window ≤ 0) (.valueError "window must be > 0") = .ok () :=
    raiseIf_ok.mpr (not_le.mpr positive)
  have causal := causal_states (fun closes : List K => emaIndicatorRound closes indicator.window.toNat) none
    fun _ _ _ below ema => emaIndicatorRound_take below indicator.window.toNat ema
  refine noLookAhead_of_causal (fun bars => ?_) (causal.comp (causal_map close))
  unfold EMAIndicator.compute
  rw [valid]
  rfl

end Averages

/-! ## RSI -/

section Rsi
variable [Zero K] [Sub K] [Neg K] [LT K] [DecidableLT K] {values : List K} {i k : ℕ}

theorem gainLoss_take (below : i < k) : gainLoss (values.take k) i = gainLoss values i := by
  unfold gainLoss
  rw [getD_take below, getD_take (by omega)]

variable [One K] [Add K] [Mul K] [Div K] [NatCast K] [DecidableEq K] (close : β → K)

theorem causal_rsiValues (window : ℕ) : Causal fun values : List K => rsiValues values window := by
  have shape : (fun values : List K => rsiValues values window) =
      warmed window (fun values => rsiSeed values window) (fun values => rsiRound values window) rsiFromAvg := rfl
  rw [shape]
  apply causal_warmed
  · intro values k more
    have sums : ∀ (places : List ℕ) (sums : K × K), (∀ i ∈ places, i < k) →
        places.foldl (fun sums i => (sums.1 + (gainLoss (values.take k) i).1, sums.2 + (gainLoss (values.take k) i).2)) sums =
          places.foldl (fun sums i => (sums.1 + (gainLoss values i).1, sums.2 + (gainLoss values i).2)) sums := by
      intro places
      induction places with
      | nil => exact fun _ _ => rfl
      | cons i places ih =>
        intro sums below
        rw [List.foldl_cons, List.foldl_cons, gainLoss_take (below i List.mem_cons_self),
          ih _ fun j later => below j (List.mem_cons_of_mem _ later)]
    unfold rsiSeed
    rw [sums]
    intro i member
    have := (List.mem_range'_1.mp member).2
    omega
  · intro values k i below avgs
    unfold rsiRound
    rw [gainLoss_take below]

theorem rsi_noLookAhead {window : ℤ} (positive : 0 < window) : NoLookAhead fun bars => rsi close bars window := by
  refine noLookAhead_of_causal (fun bars => ?_) ((causal_rsiValues window.toNat).comp (causal_map close))
  unfold rsi
  rw [validateWindow_ok positive]
  rfl

end Rsi

/-! ## ATR -/

section Atr
variable [Sub K] [LT K] [DecidableLT K] (ops : NumberOps K) (close high low : β → K)

/-- The true ranges of the first bars are the first true ranges. -/
theorem trueRanges_take (before : Option β) (bars : List β) (k : ℕ) :
    trueRanges ops close high low before (bars.take k) = (trueRanges ops close high low before bars).take k := by
  induction bars generalizing before k with
  | nil => rw [List.take_nil, trueRanges, List.take_nil]
  | cons bar rest ih =>
    cases k with
    | zero => rw [List.take_zero, List.take_zero, trueRanges]
    | succ k =>
      cases before with
      | none => rw [List.take_succ_cons, trueRanges, trueRanges, List.take_succ_cons, ih]
      | some prev => rw [List.take_succ_cons, trueRanges, trueRanges, List.take_succ_cons, ih]

variable [Zero K] [Add K] [Mul K] [Div K] [NatCast K]

/-- The entries of `atr`, once the window is validated. -/
def atrValues (window : ℕ) (bars : List β) : List (Option K) :=
  warmed window (fun bars => ops.sum ((trueRanges ops close high low none bars).take (window + 1) |>.drop 1) / (window : K))
    (atrRound ops close high low window) id bars

theorem causal_atrValues (window : ℕ) : Causal (atrValues ops close high low window) := by
  apply causal_warmed
  · intro bars k more
    rw [trueRanges_take, List.take_take, Nat.min_eq_left (by omega)]
  · intro bars k i below prev
    unfold atrRound
    rw [trueRanges_take, getD_take below]

theorem atr_noLookAhead {window : ℤ} (positive : 0 < window) :
    NoLookAhead fun bars => atr ops close high low bars window := by
  refine noLookAhead_of_causal (fun bars => ?_) (causal_atrValues ops close high low window.toNat)
  unfold atr atrValues warmed
  rw [validateWindow_ok positive]
  simp only [bind, Except.bind]
  split
  · rfl
  · rfl

end Atr

/-! ## Bands -/

section Bands
variable [Zero K] [Add K] [Sub K] [Div K] [NatCast K] [Pow K ℕ] [DecidableEq K] (ops : NumberOps K)
  (close : β → K) {values : List K} {i k : ℕ}

theorem bandAt_take (below : i < k) (window : ℕ) :
    bandAt ops (values.take k) window i = bandAt ops values window i := by
  have mids : smaValues (values.take k) window = (smaValues values window).take k := causal_smaValues window values k
  unfold bandAt segment
  rw [mids, getD_take below, List.take_take, Nat.min_eq_left (by omega)]

theorem causal_bandValues (window : ℕ) (band : K × K → K) :
    Causal fun values => bandValues ops values window band := by
  apply causal_of_lt
  · intro values
    unfold bandValues
    rw [List.length_append, List.length_replicate, List.length_map, List.length_range']
    omega
  intro values k within
  have length : (values.take k).length = k := by rw [List.length_take]; omega
  have places : ∀ i ∈ List.range' (window - 1) (k - (window - 1)), i < k := by
    intro i member
    have least := (List.mem_range'_1.mp member).1
    have most := (List.mem_range'_1.mp member).2
    omega
  have cut : (List.range' (window - 1) (values.length - (window - 1))).take (k - (window - 1)) =
      List.range' (window - 1) (k - (window - 1)) := by
    exact List.take_range'_of_length_ge (by omega)
  unfold bandValues
  rw [length, List.take_append, List.take_replicate, List.length_replicate, ← List.map_take,
    List.map_congr_left fun i member => by rw [bandAt_take ops (places i member)]]
  have lead : min k (min (window - 1) values.length) = min (window - 1) k := by omega
  have written : k - min (window - 1) values.length = k - (window - 1) := by omega
  rw [lead, written, cut]

/-- The three outputs, each on its own causal. -/
theorem bollingerBands_noLookAhead [Mul K] {window : ℤ} (positive : 0 < window) (numStddev : K) (bars : List β) (k : ℕ) :
    ∃ upper mid lower, bollingerBands ops close numStddev bars window = .ok (upper, mid, lower) ∧
      bollingerBands ops close numStddev (bars.take k) window = .ok (upper.take k, mid.take k, lower.take k) := by
  have returns : ∀ bars : List β, bollingerBands ops close numStddev bars window =
      .ok (bandValues ops (bars.map close) window.toNat (upperBand numStddev),
        smaValues (bars.map close) window.toNat,
        bandValues ops (bars.map close) window.toNat (lowerBand numStddev)) := by
    intro bars
    unfold bollingerBands
    rw [validateWindow_ok positive, sma_returns close positive]
    rfl
  have causalBand := fun band => (causal_bandValues ops window.toNat band).comp (causal_map close)
  have upper := causalBand (upperBand numStddev) bars k
  have mid := ((causal_smaValues (K := K) window.toNat).comp (causal_map close)) bars k
  have lower := causalBand (lowerBand numStddev) bars k
  simp only [Function.comp_apply] at upper mid lower
  refine ⟨_, _, _, returns bars, ?_⟩
  rw [returns, upper, mid, lower]

end Bands

/-! ## All of them -/

section Indicators
variable [Zero K] [One K] [Add K] [Sub K] [Neg K] [Mul K] [Div K] [NatCast K] [Pow K ℕ] [LT K] [DecidableLT K] [DecidableEq K]
  (ops : NumberOps K) (close high low : β → K)

/-- **No look-ahead**: no entry of an indicator depends on later bars. -/
theorem indicators_noLookAhead {window : ℤ} (positive : 0 < window) (numStddev : K) (name : String) :
    NoLookAhead (fun bars => sma close bars window) ∧
    NoLookAhead (fun bars => ema ops close bars window) ∧
    NoLookAhead (fun bars => rsi close bars window) ∧
    NoLookAhead (fun bars => atr ops close high low bars window) ∧
    (∀ bars k, ∃ upper mid lower, bollingerBands ops close numStddev bars window = .ok (upper, mid, lower) ∧
      bollingerBands ops close numStddev (bars.take k) window = .ok (upper.take k, mid.take k, lower.take k)) ∧
    NoLookAhead (fun bars => (SMAIndicator.mk window name).compute close ⟨bars⟩) ∧
    NoLookAhead (fun bars => (EMAIndicator.mk window name).compute close ⟨bars⟩) :=
  ⟨sma_noLookAhead close positive, ema_noLookAhead ops close positive, rsi_noLookAhead close positive,
    atr_noLookAhead ops close high low positive, bollingerBands_noLookAhead ops close positive numStddev,
    SMAIndicator.noLookAhead close positive, EMAIndicator.noLookAhead close positive⟩

end Indicators

/-- Rationals, with the root of a ratio of squares. -/
def rationalOps : NumberOps ℚ where
  sqrt x := Nat.sqrt x.num.toNat / Nat.sqrt x.den
  abs x := |x|
  sum := List.sum

theorem indicators_noLookAhead_three :
    NoLookAhead (fun bars : List (ℚ × ℚ × ℚ) => sma (fun bar => bar.1) bars 3) ∧
    NoLookAhead (fun bars : List (ℚ × ℚ × ℚ) => rsi (fun bar => bar.1) bars 3) :=
  have all := indicators_noLookAhead rationalOps (fun bar : ℚ × ℚ × ℚ => bar.1) (fun bar => bar.2.1) (fun bar => bar.2.2)
    (show (0 : ℤ) < 3 by decide) 2 "sma"
  ⟨all.1, all.2.2.1⟩

end CryptoQuant.Indicators
