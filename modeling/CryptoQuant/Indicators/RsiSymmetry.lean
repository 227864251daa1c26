import CryptoQuant.Backtest.Indicators
import CryptoQuant.Events.Market
import Mathlib.Data.List.GetD
import Mathlib.Tactic.FieldSimp
import Mathlib.Tactic.Linarith
import Mathlib.Tactic.Positivity
import Mathlib.Tactic.Ring

/-!
# The symmetry of the RSI

Mirroring the prices swaps gains and losses, so it swaps the averages of `rsi` in every
round and turns a value into its difference from 100. Where no price change enters the
averages both are zero, and the guard of `_rsi_from_avg` answers 100 in either case.
-/

namespace CryptoQuant.Indicators
set_option autoImplicit false

open Prefix

/-! ## The value of two averages -/

section Value
variable {avgs : ℚ × ℚ}

theorem rsiFromAvg_of_zero (zero : avgs.2 = 0) : rsiFromAvg avgs = 100 := by
  unfold rsiFromAvg
  simp only
  rw [if_pos zero]
  rfl

/-- The share of the gains, as a percentage. -/
theorem rsiFromAvg_of_ne_zero (gain : 0 ≤ avgs.1) (loss : 0 ≤ avgs.2) (nonzero : avgs.2 ≠ 0) :
    rsiFromAvg avgs = 100 * avgs.1 / (avgs.1 + avgs.2) := by
  have positive : 0 < avgs.2 := lt_of_le_of_ne loss nonzero.symm
  have total : avgs.1 + avgs.2 ≠ 0 := by linarith
  have ratio : 1 + avgs.1 / avgs.2 = (avgs.1 + avgs.2) / avgs.2 := by
    field_simp
    ring
  unfold rsiFromAvg
  simp only
  rw [if_neg nonzero, ratio]
  push_cast
  field_simp
  ring

theorem rsiFromAvg_bounds (gain : 0 ≤ avgs.1) (loss : 0 ≤ avgs.2) : 0 ≤ rsiFromAvg avgs ∧ rsiFromAvg avgs ≤ 100 := by
  by_cases zero : avgs.2 = 0
  · rw [rsiFromAvg_of_zero zero]
    norm_num
  · have positive : 0 < avgs.1 + avgs.2 := by
      have : 0 < avgs.2 := lt_of_le_of_ne loss (Ne.symm zero)
      linarith
    rw [rsiFromAvg_of_ne_zero gain loss zero]
    constructor
    · positivity
    · rw [div_le_iff₀ positive]
      linarith

/-- **Up and down moves are treated alike**, when there are any. -/
theorem rsiFromAvg_swap (gain : 0 ≤ avgs.1) (loss : 0 ≤ avgs.2) (moved : ¬ (avgs.1 = 0 ∧ avgs.2 = 0)) :
    rsiFromAvg avgs.swap = 100 - rsiFromAvg avgs := by
  by_cases up : avgs.1 = 0
  · have down : avgs.2 ≠ 0 := fun zero => moved ⟨up, zero⟩
    rw [rsiFromAvg_of_zero (show avgs.swap.2 = 0 from up), rsiFromAvg_of_ne_zero gain loss down, up]
    norm_num
  · have swapped : rsiFromAvg avgs.swap = 100 * avgs.2 / (avgs.2 + avgs.1) := rsiFromAvg_of_ne_zero loss gain up
    have positive : 0 < avgs.1 := lt_of_le_of_ne gain (Ne.symm up)
    have total : avgs.1 + avgs.2 ≠ 0 := by linarith
    rw [swapped, add_comm avgs.2]
    by_cases down : avgs.2 = 0
    · rw [rsiFromAvg_of_zero down, down]
      norm_num
    · rw [rsiFromAvg_of_ne_zero gain loss down]
      field_simp
      ring

end Value

/-! ## The averages -/

section Averages
variable {values : List ℚ} {window : ℕ}

/-- No price change enters the averages at a place: none up to it, or for a window of one
not the last. -/
def Still (values : List ℚ) (window i : ℕ) : Prop :=
  ∀ j, 1 ≤ j → j ≤ i → (window = 1 → j = i) → values.getD j 0 = values.getD (j - 1) 0

/-- What holds of the averages of gains and losses at a place. -/
structure Averages (values : List ℚ) (window i : ℕ) (avgs : ℚ × ℚ) : Prop where
  gain : 0 ≤ avgs.1
  loss : 0 ≤ avgs.2
  still : avgs.1 = 0 ∧ avgs.2 = 0 ↔ Still values window i

theorem gainLoss_eq (values : List ℚ) (i : ℕ) : gainLoss values i =
    (max (values.getD i 0 - values.getD (i - 1) 0) 0, max (-(values.getD i 0 - values.getD (i - 1) 0)) 0) := by
  have max_ (a b : ℚ) : pyMax a b = max a b := (max_def_lt a b).symm
  simp only [gainLoss, max_]

theorem gainLoss_nonneg (values : List ℚ) (i : ℕ) : 0 ≤ (gainLoss values i).1 ∧ 0 ≤ (gainLoss values i).2 := by
  rw [gainLoss_eq]
  exact ⟨le_max_right _ _, le_max_right _ _⟩

theorem gainLoss_eq_zero_iff (values : List ℚ) (i : ℕ) :
    (gainLoss values i).1 = 0 ∧ (gainLoss values i).2 = 0 ↔ values.getD i 0 = values.getD (i - 1) 0 := by
  rw [gainLoss_eq]
  simp only [max_eq_right_iff]
  constructor
  · rintro ⟨up, down⟩
    linarith
  · intro same
    rw [same]
    norm_num

/-- Mirrored prices swap gain and loss. -/
theorem gainLoss_mirrored (C : ℚ) {i : ℕ} (bound : i < values.length) :
    gainLoss (values.map fun close => C - close) i = (gainLoss values i).swap := by
  have mirrored {j : ℕ} (le : j ≤ i) : (values.map fun close => C - close).getD j 0 = C - values.getD j 0 := by
    have inside : j < values.length := by omega
    rw [List.getD_eq_getElem _ _ (by simpa using inside), List.getD_eq_getElem _ _ inside, List.getElem_map]
  rw [gainLoss_eq, gainLoss_eq, mirrored le_rfl, mirrored (Nat.sub_le i 1)]
  have up : C - values.getD i 0 - (C - values.getD (i - 1) 0) = -(values.getD i 0 - values.getD (i - 1) 0) := by ring
  rw [up, neg_neg]
  rfl

/-- The sums of the first gains and losses. -/
def gainLossSums (values : List ℚ) (n : ℕ) : ℚ × ℚ :=
  (List.range' 1 n).foldl (fun sums i => (sums.1 + (gainLoss values i).1, sums.2 + (gainLoss values i).2)) (0, 0)

theorem gainLossSums_succ (values : List ℚ) (n : ℕ) : gainLossSums values (n + 1) =
    ((gainLossSums values n).1 + (gainLoss values (1 + n)).1, (gainLossSums values n).2 + (gainLoss values (1 + n)).2) := by
  rw [gainLossSums, List.range'_1_concat, List.foldl_append]
  rfl

/-- The sums are zero where no price has changed. -/
theorem gainLossSums_zero_iff (values : List ℚ) (n : ℕ) :
    0 ≤ (gainLossSums values n).1 ∧ 0 ≤ (gainLossSums values n).2 ∧
      ((gainLossSums values n).1 = 0 ∧ (gainLossSums values n).2 = 0 ↔
        ∀ j, 1 ≤ j → j ≤ n → values.getD j 0 = values.getD (j - 1) 0) := by
  induction n with
  | zero =>
    refine ⟨le_rfl, le_rfl, iff_of_true ⟨rfl, rfl⟩ ?_⟩
    intro j first last
    omega
  | succ n ih =>
    obtain ⟨gain, loss, zero⟩ := ih
    obtain ⟨up, down⟩ := gainLoss_nonneg values (1 + n)
    rw [gainLossSums_succ]
    refine ⟨add_nonneg gain up, add_nonneg loss down, ?_⟩
    rw [add_eq_zero_iff_of_nonneg gain up, add_eq_zero_iff_of_nonneg loss down, and_and_and_comm, zero, gainLoss_eq_zero_iff]
    constructor
    · rintro ⟨before, here⟩ j first most
      rcases Nat.lt_or_ge n j with new | old
      · obtain rfl : j = 1 + n := by omega
        exact here
      · exact before j first old
    · intro all
      exact ⟨fun j first most => all j first (by omega), all (1 + n) (by omega) (by omega)⟩

theorem rsiSeed_eq (values : List ℚ) (window : ℕ) :
    rsiSeed values window = ((gainLossSums values window).1 / window, (gainLossSums values window).2 / window) := rfl

/-- The first averages. -/
theorem averages_seed (positive : 0 < window) : Averages values window window (rsiSeed values window) := by
  obtain ⟨gain, loss, zero⟩ := gainLossSums_zero_iff values window
  have size : (window : ℚ) ≠ 0 := by exact_mod_cast positive.ne'
  rw [rsiSeed_eq]
  refine ⟨div_nonneg gain (Nat.cast_nonneg _), div_nonneg loss (Nat.cast_nonneg _), ?_⟩
  simp only [div_eq_zero_iff, or_iff_left size]
  rw [zero]
  exact ⟨fun all j first most _ => all j first most, fun still j first most => still j first most fun one => by omega⟩

/-- **One round.** -/
theorem Averages.round (positive : 0 < window) {i : ℕ} {avgs : ℚ × ℚ} (averages : Averages values window i avgs) :
    Averages values window (i + 1) (rsiRound values window (i + 1) avgs) := by
  obtain ⟨up, down⟩ := gainLoss_nonneg values (i + 1)
  have last := gainLoss_eq_zero_iff values (i + 1)
  have size : (window : ℚ) ≠ 0 := by exact_mod_cast positive.ne'
  have weight : (0 : ℚ) ≤ ((window - 1 : ℕ) : ℚ) := Nat.cast_nonneg _
  have gain := mul_nonneg averages.gain weight
  have loss := mul_nonneg averages.loss weight
  refine ⟨div_nonneg (add_nonneg gain up) (Nat.cast_nonneg _), div_nonneg (add_nonneg loss down) (Nat.cast_nonneg _), ?_⟩
  unfold rsiRound
  simp only [div_eq_zero_iff, or_iff_left size]
  rw [add_eq_zero_iff_of_nonneg gain up, add_eq_zero_iff_of_nonneg loss down, and_and_and_comm, last, Nat.add_sub_cancel]
  by_cases one : window = 1
  · subst one
    simp only [Nat.sub_self, Nat.cast_zero, mul_zero, and_self, true_and]
    constructor
    · intro here j _ _ only
      rw [only rfl]
      exact here
    · intro still
      exact still (i + 1) (by omega) le_rfl fun _ => rfl
  · have nonzero : ((window - 1 : ℕ) : ℚ) ≠ 0 := by exact_mod_cast (show window - 1 ≠ 0 by omega)
    rw [mul_eq_zero, mul_eq_zero, or_iff_left nonzero, or_iff_left nonzero, averages.still]
    constructor
    · rintro ⟨before, here⟩ j first most _
      rcases Nat.lt_or_ge i j with new | old
      · obtain rfl : j = i + 1 := by omega
        exact here
      · exact before j first old fun only => absurd only one
    · intro still
      exact ⟨fun j first most _ => still j first (by omega) fun only => absurd only one,
        still (i + 1) (by omega) le_rfl fun _ => rfl⟩

/-- The averages behind the values of `rsi`, from the first full window on. -/
def rsiAverages (values : List ℚ) (window : ℕ) : List (ℚ × ℚ) :=
  rsiSeed values window :: states (rsiRound values window) (window + 1) (values.length - (window + 1)) (rsiSeed values window)

theorem length_rsiValues : (rsiValues values window).length = values.length := by
  unfold rsiValues
  split
  · rw [List.length_replicate]
  · rename_i long
    rw [List.length_append, List.length_replicate, List.length_map, List.length_cons, length_states]
    omega

/-- The entries of `rsi`. -/
theorem getElem?_rsiValues (long : window < values.length) (i : ℕ) : (rsiValues values window)[i]? =
    if i < window then some none else ((rsiAverages values window)[i - window]?).map fun avgs => some (rsiFromAvg avgs) := by
  have shape : rsiValues values window =
      List.replicate window none ++ (rsiAverages values window).map fun avgs => some (rsiFromAvg avgs) := if_neg (not_le.mpr long)
  rw [shape, List.getElem?_append, List.length_replicate, List.getElem?_map, List.getElem?_replicate]
  split <;> rfl

/-- **The whole loop.** -/
theorem averages_of_getElem? (positive : 0 < window) {k : ℕ} {avgs : ℚ × ℚ} (found : (rsiAverages values window)[k]? = some avgs) :
    Averages values window (window + k) avgs := by
  have run := states_invariant (P := fun i => Averages values window (i - 1)) (averages_seed positive) (fun i first last avgs averages => by
    obtain ⟨i, rfl⟩ : ∃ j, i = j + 1 := ⟨i - 1, by omega⟩
    exact averages.round positive) found
  have place : window + 1 + k - 1 = window + k := by omega
  rwa [place] at run

theorem gainLossSums_mirrored (C : ℚ) {n : ℕ} (bound : n < values.length) :
    gainLossSums (values.map fun close => C - close) n = (gainLossSums values n).swap := by
  induction n with
  | zero => rfl
  | succ n ih =>
    rw [gainLossSums_succ, gainLossSums_succ, ih (by omega), gainLoss_mirrored C (show 1 + n < values.length by omega)]
    rfl

/-- Mirrored prices swap all averages. -/
theorem rsiAverages_mirrored (C : ℚ) (long : window < values.length) :
    rsiAverages (values.map fun close => C - close) window = (rsiAverages values window).map Prod.swap := by
  have seed : rsiSeed (values.map fun close => C - close) window = (rsiSeed values window).swap := by
    rw [rsiSeed_eq, rsiSeed_eq, gainLossSums_mirrored C long]
    rfl
  have rounds : ∀ i, window + 1 ≤ i → i < window + 1 + (values.length - (window + 1)) → ∀ avgs : ℚ × ℚ,
      rsiRound (values.map fun close => C - close) window i avgs.swap = (rsiRound values window i avgs).swap := by
    intro i first last avgs
    unfold rsiRound
    rw [gainLoss_mirrored C (show i < values.length by omega)]
    rfl
  unfold rsiAverages
  rw [List.map_cons, seed, List.length_map, map_states rounds]

theorem rsiValues_of_short (short : ¬ window < values.length) : rsiValues values window = List.replicate values.length none :=
  if_pos (not_lt.mp short)

/-- The entries for mirrored prices. -/
theorem getElem?_rsiValues_mirrored (C : ℚ) (long : window < values.length) (i : ℕ) :
    (rsiValues (values.map fun close => C - close) window)[i]? =
      if i < window then some none else ((rsiAverages values window)[i - window]?).map fun avgs => some (rsiFromAvg avgs.swap) := by
  rw [getElem?_rsiValues (by rwa [List.length_map]), rsiAverages_mirrored C long, List.getElem?_map, Option.map_map]
  rfl

/-- Where there is no value yet, there is none for mirrored prices. -/
theorem rsiValues_mirrored_none (C : ℚ) {i : ℕ} (undefined : (rsiValues values window)[i]? = some none) :
    (rsiValues (values.map fun close => C - close) window)[i]? = some none := by
  by_cases long : window < values.length
  · rw [getElem?_rsiValues long] at undefined
    rw [getElem?_rsiValues_mirrored C long]
    split at undefined
    · rename_i early
      rw [if_pos early]
    · obtain ⟨avgs, -, none_⟩ := Option.map_eq_some_iff.mp undefined
      cases none_
  · rw [rsiValues_of_short long] at undefined
    rw [rsiValues_of_short (by rwa [List.length_map]), List.length_map]
    exact undefined

/-- A value comes from averages of its place. -/
theorem averages_of_rsiValues (positive : 0 < window) {i : ℕ} {v : ℚ} (defined : (rsiValues values window)[i]? = some (some v)) :
    ∃ avgs, Averages values window i avgs ∧ v = rsiFromAvg avgs ∧
      ∀ C : ℚ, (rsiValues (values.map fun close => C - close) window)[i]? = some (some (rsiFromAvg avgs.swap)) := by
  by_cases long : window < values.length
  · rw [getElem?_rsiValues long] at defined
    split at defined
    · cases defined
    rename_i late
    obtain ⟨avgs, found, same⟩ := Option.map_eq_some_iff.mp defined
    have averages := averages_of_getElem? positive found
    rw [Nat.add_sub_cancel' (not_lt.mp late)] at averages
    refine ⟨avgs, averages, (Option.some_inj.mp same).symm, fun C => ?_⟩
    rw [getElem?_rsiValues_mirrored C long, if_neg late, found, Option.map_some]
  · rw [rsiValues_of_short long, List.getElem?_replicate] at defined
    split at defined <;> cases defined

end Averages

/-! ## The indicator -/

section Mirror

/-- The bar with its close mirrored. -/
def mirror (C : ℚ) (bar : Bar) : Bar := { bar with close := C - bar.close }

theorem rsi_ok (bars : List Bar) {window : ℤ} (positive : 0 < window) :
    rsi Bar.close bars window = .ok (rsiValues (bars.map Bar.close) window.toNat) := by
  unfold rsi validateWindow raiseIf
  rw [if_neg (not_le.mpr positive)]
  rfl

/-- **The RSI.** Its values are percentages. Mirroring the prices turns a value into its
difference from 100, unless no price change enters the averages: then the value is 100 for
both. -/
theorem rsi_mirrored (bars : List Bar) {window : ℤ} (positive : 0 < window) (C : ℚ) :
    ∃ values mirrored, rsi Bar.close bars window = .ok values ∧ rsi Bar.close (bars.map (mirror C)) window = .ok mirrored ∧
      values.length = bars.length ∧ mirrored.length = bars.length ∧
      (∀ i : ℕ, values[i]? = some none → mirrored[i]? = some none) ∧
      ∀ (i : ℕ) v, values[i]? = some (some v) → 0 ≤ v ∧ v ≤ 100 ∧
        (Still (bars.map Bar.close) window.toNat i → v = 100 ∧ mirrored[i]? = some (some 100)) ∧
        (¬ Still (bars.map Bar.close) window.toNat i → mirrored[i]? = some (some (100 - v))) := by
  have closes : (bars.map (mirror C)).map Bar.close = (bars.map Bar.close).map fun close => C - close := by
    rw [List.map_map, List.map_map]
    rfl
  refine ⟨_, _, rsi_ok bars positive, rsi_ok _ positive, ?_⟩
  rw [closes]
  refine ⟨?_, ?_, fun i => rsiValues_mirrored_none C, ?_⟩
  · rw [length_rsiValues, List.length_map]
  · rw [length_rsiValues, List.length_map, List.length_map]
  · intro i v defined
    obtain ⟨avgs, averages, rfl, mirrored⟩ := averages_of_rsiValues (by omega) defined
    have bounds := rsiFromAvg_bounds averages.gain averages.loss
    refine ⟨bounds.1, bounds.2, ?_, ?_⟩
    · intro still
      obtain ⟨up, down⟩ := averages.still.mpr still
      refine ⟨rsiFromAvg_of_zero down, ?_⟩
      rw [mirrored, rsiFromAvg_of_zero (show avgs.swap.2 = 0 from up)]
    · intro moves
      rw [mirrored, rsiFromAvg_swap averages.gain averages.loss (mt averages.still.mp moves)]

/-- Three equal closes. -/
def flatBars : List Bar := (List.range 3).map fun i => ⟨"BTCUSDT", "1m", 60000000 * i, 100, 100, 100, 100, 0⟩

/-- The RSI of a market that does not move is 100, and so is that of its mirror. -/
theorem rsi_flat : rsi Bar.close flatBars 2 = .ok [none, none, some 100] ∧
    rsi Bar.close (flatBars.map (mirror 200)) 2 = .ok [none, none, some 100] ∧ (100 : ℚ) ≠ 100 - 100 := by
  decide +kernel

/-- A rise by three and a fall by one. -/
def risingBars : List Bar := [⟨"BTCUSDT", "1m", 0, 1, 1, 1, 1, 0⟩, ⟨"BTCUSDT", "1m", 60000000, 4, 4, 4, 4, 0⟩,
  ⟨"BTCUSDT", "1m", 120000000, 3, 3, 3, 3, 0⟩]

/-- Its RSI is 75, and that of the mirror 25. -/
theorem rsi_mirrored_rise : ∃ mirrored : List (Option ℚ), rsi Bar.close risingBars 2 = .ok [none, none, some 75] ∧
    rsi Bar.close (risingBars.map (mirror 10)) 2 = .ok mirrored ∧ mirrored[2]? = some (some (100 - 75)) := by
  have value : rsi Bar.close risingBars 2 = .ok [none, none, some 75] := by decide +kernel
  have moves : ¬ Still (risingBars.map Bar.close) (Int.toNat 2) 2 := fun still =>
    absurd (still 2 one_le_two le_rfl fun _ => rfl) (by decide +kernel)
  obtain ⟨values, mirrored, returned, returned', -, -, -, defined⟩ := rsi_mirrored risingBars (show (0 : ℤ) < 2 by decide) 10
  cases value.symm.trans returned
  exact ⟨mirrored, value, returned', (defined 2 75 rfl).2.2.2 moves⟩

end Mirror

end CryptoQuant.Indicators
