import CryptoQuant.Lib.Tail
import CryptoQuant.Risk.PortfolioEngine
import Mathlib.Data.Rat.Floor

/-!
# Historical tail risk

`historical_var_cvar` sorts the losses and looks at the first `tail_count` of them: the
last one is the value at risk, and their mean the conditional one. The tail never leaves
the list, and it shrinks as the confidence grows.
-/

namespace CryptoQuant.PortfolioEngine
set_option autoImplicit false

open Portfolio (PyFloat)

section TailRisk
variable {K : Type} [Field K] [LinearOrder K] [FloorRing K]

/-- `losses`, in the order of the returns. -/
def lossesOf (sqrt : K → K) (horizonDays : ℤ) (portfolioValue : K) (returns : List K) : List K :=
  returns.map fun value => -value * sqrt horizonDays * portfolioValue

/-- `tail_count`, of `n` losses. -/
def tailCount (confidence : K) (n : ℕ) : ℕ := (max 1 ⌈(1 - confidence) * n⌉).toNat

omit [LinearOrder K] [FloorRing K] in
@[simp] theorem length_lossesOf (sqrt : K → K) (horizonDays : ℤ) (portfolioValue : K) (returns : List K) :
    (lossesOf sqrt horizonDays portfolioValue returns).length = returns.length := List.length_map _

omit [LinearOrder K] [FloorRing K] in
theorem mapM_lossOf (horizonScale portfolioValue : K) (returns : List K) :
    (returns.map PyFloat.finite).mapM (lossOf horizonScale portfolioValue) =
      .ok (returns.map fun value => -value * horizonScale * portfolioValue) := by
  induction returns with
  | nil => rfl
  | cons value returns ih =>
    rw [List.map_cons, List.mapM_cons, ih]
    rfl

theorem cast_tailCount (confidence : K) (n : ℕ) : (tailCount confidence n : ℤ) = max 1 ⌈(1 - confidence) * n⌉ :=
  Int.toNat_of_nonneg (zero_le_one.trans (le_max_left _ _))

theorem tailCount_pos (confidence : K) (n : ℕ) : 1 ≤ tailCount confidence n := by
  have count := cast_tailCount confidence n
  have first := le_max_left 1 ⌈(1 - confidence) * n⌉
  omega

variable [IsStrictOrderedRing K]

theorem tailCount_le {confidence : K} (pos : 0 < confidence) {n : ℕ} (nonempty : 1 ≤ n) : tailCount confidence n ≤ n := by
  have share : (1 - confidence) * n ≤ n := by
    have : 0 ≤ confidence * n := mul_nonneg pos.le (Nat.cast_nonneg n)
    linarith
  have rounded : ⌈(1 - confidence) * n⌉ ≤ (n : ℤ) := Int.ceil_le.mpr (by exact_mod_cast share)
  have count := cast_tailCount confidence n
  have whole : max 1 ⌈(1 - confidence) * n⌉ ≤ (n : ℤ) := max_le (by omega) rounded
  omega

/-- More confidence looks at fewer losses. -/
theorem tailCount_antitone {c₁ c₂ : K} (le : c₁ ≤ c₂) (n : ℕ) : tailCount c₂ n ≤ tailCount c₁ n := by
  have share : (1 - c₂) * n ≤ (1 - c₁) * n := mul_le_mul_of_nonneg_right (by linarith) (Nat.cast_nonneg n)
  have rounded : max 1 ⌈(1 - c₂) * n⌉ ≤ max 1 ⌈(1 - c₁) * n⌉ := max_le_max_left 1 (Int.ceil_mono share)
  rw [← cast_tailCount, ← cast_tailCount] at rounded
  omega

section Result
variable (sqrt : K → K) {returns : List K} {horizonDays : ℤ} {portfolioValue confidence : K}

/-- The entry and the mean that are reported. -/
theorem historicalVarCvar_eq (observations : 2 ≤ returns.length) (horizon : 0 < horizonDays) (value : 0 < portfolioValue)
    (pos : 0 < confidence) (lt : confidence < 1) {losses : List K}
    (sorted : losses = Tail.descending (lossesOf sqrt horizonDays portfolioValue returns)) {k : ℕ}
    (tail : k + 1 = tailCount confidence returns.length) :
    ∃ bound : k < losses.length,
      historicalVarCvar sqrt (returns.map .finite) confidence horizonDays portfolioValue = .ok
        { confidence, horizonDays, portfolioValue, var := losses[k]
          cvar := (losses.take (k + 1)).sum / (k + 1 : ℕ), tailScenarios := (k + 1 : ℕ) } := by
  have length : losses.length = returns.length := by simp [sorted]
  have bound : k < losses.length := by
    have inside := tailCount_le pos (show 1 ≤ returns.length by omega)
    omega
  have count : max 1 ⌈(1 - confidence) * losses.length⌉ = ((k + 1 : ℕ) : ℤ) := by rw [tail, cast_tailCount, length]
  have place : (((k + 1 : ℕ) : ℤ) - 1).toNat = k := by omega
  have taken : mean (losses.take (k + 1)) = .ok ((losses.take (k + 1)).sum / (k + 1 : ℕ)) := by
    have size : (losses.take (k + 1)).length = k + 1 := List.length_take_of_le bound
    rw [mean_eq (by omega), size]
  refine ⟨bound, ?_⟩
  have resorted : (returns.map fun value => -value * sqrt horizonDays * portfolioValue).insertionSort (· ≥ ·) = losses := sorted.symm
  simp only [historicalVarCvar, raiseIf, mapM_lossOf, pos, lt, not_true_eq_false, and_self, not_le.mpr horizon,
    not_le.mpr value, not_lt.mpr observations, List.length_map, if_false, bind, Except.bind, resorted, count, place,
    Int.toNat_natCast, List.getElem?_eq_getElem bound, taken]
  rfl

/-- A measure within the losses: the tail is a part of them, and neither number exceeds
the largest loss. -/
structure VarCvarResult.Within (result : VarCvarResult K) (losses : List K) : Prop where
  ordered : result.var ≤ result.cvar
  some_scenario : 1 ≤ result.tailScenarios
  scenarios_le : result.tailScenarios ≤ losses.length
  attained : result.var ∈ losses
  le_largest : ∃ largest ∈ losses, (∀ loss ∈ losses, loss ≤ largest) ∧ result.var ≤ largest ∧ result.cvar ≤ largest

theorem historicalVarCvar_within (observations : 2 ≤ returns.length) (horizon : 0 < horizonDays) (value : 0 < portfolioValue)
    (pos : 0 < confidence) (lt : confidence < 1) :
    ∃ result, historicalVarCvar sqrt (returns.map .finite) confidence horizonDays portfolioValue = .ok result ∧
      result.Within (lossesOf sqrt horizonDays portfolioValue returns) := by
  obtain ⟨k, tail⟩ := Nat.exists_eq_add_of_le' (tailCount_pos confidence returns.length)
  obtain ⟨bound, returned⟩ := historicalVarCvar_eq sqrt observations horizon value pos lt rfl tail.symm
  refine ⟨_, returned, ?_⟩
  have sorted := Tail.pairwise_descending (lossesOf sqrt horizonDays portfolioValue returns)
  have same {loss : K} := (Tail.perm_descending (lossesOf sqrt horizonDays portfolioValue returns)).mem_iff (a := loss)
  have first : 0 < (Tail.descending (lossesOf sqrt horizonDays portfolioValue returns)).length := by omega
  have largest : ∀ loss ∈ lossesOf sqrt horizonDays portfolioValue returns,
      loss ≤ (Tail.descending (lossesOf sqrt horizonDays portfolioValue returns))[0] := by
    intro loss member
    obtain ⟨i, inside, rfl⟩ := List.getElem_of_mem (same.mpr member)
    exact Tail.getElem_antitone sorted (Nat.zero_le i) inside
  refine ⟨Tail.getElem_le_mean_take sorted bound, by simp, ?_, same.mp (List.getElem_mem bound), _,
    same.mp (List.getElem_mem first), largest, Tail.getElem_antitone sorted (Nat.zero_le k) bound,
    Tail.mean_take_le_head sorted (Nat.succ_pos k) bound⟩
  rw [Tail.length_descending] at bound
  exact Int.ofNat_le.mpr bound

omit [IsStrictOrderedRing K] in
/-- The order of the returns does not matter. -/
theorem historicalVarCvar_perm {reordered : List K} (perm : reordered.Perm returns) :
    historicalVarCvar sqrt (reordered.map .finite) confidence horizonDays portfolioValue =
      historicalVarCvar sqrt (returns.map .finite) confidence horizonDays portfolioValue := by
  have sorted := Tail.descending_congr (perm.map fun value => -value * sqrt horizonDays * portfolioValue)
  unfold Tail.descending at sorted
  simp only [historicalVarCvar, mapM_lossOf, List.length_map, perm.length_eq, bind, Except.bind, sorted]

theorem historicalVarCvar_mono {c₁ c₂ : K} {r₁ r₂ : VarCvarResult K} (observations : 2 ≤ returns.length) (horizon : 0 < horizonDays)
    (value : 0 < portfolioValue) (pos : 0 < c₁) (le : c₁ ≤ c₂) (lt : c₂ < 1)
    (low : historicalVarCvar sqrt (returns.map .finite) c₁ horizonDays portfolioValue = .ok r₁)
    (high : historicalVarCvar sqrt (returns.map .finite) c₂ horizonDays portfolioValue = .ok r₂) :
    r₁.var ≤ r₂.var ∧ r₁.cvar ≤ r₂.cvar := by
  obtain ⟨k₁, tail₁⟩ := Nat.exists_eq_add_of_le' (tailCount_pos c₁ returns.length)
  obtain ⟨k₂, tail₂⟩ := Nat.exists_eq_add_of_le' (tailCount_pos c₂ returns.length)
  obtain ⟨bound₁, returned₁⟩ := historicalVarCvar_eq sqrt observations horizon value pos (le.trans_lt lt) rfl tail₁.symm
  obtain ⟨bound₂, returned₂⟩ := historicalVarCvar_eq sqrt observations horizon value (pos.trans_le le) lt rfl tail₂.symm
  cases low.symm.trans returned₁
  cases high.symm.trans returned₂
  have fewer : k₂ ≤ k₁ := by
    have count := tailCount_antitone le returns.length
    omega
  have sorted := Tail.pairwise_descending (lossesOf sqrt horizonDays portfolioValue returns)
  exact ⟨Tail.getElem_antitone sorted fewer bound₁, Tail.mean_take_antitone sorted (Nat.succ_pos k₂) (by omega) bound₁⟩

/-- **The tail measures are ordered**, within the losses, and independent of the order of
the returns. More confidence never lowers one of them. -/
theorem historical_tail_risk (observations : 2 ≤ returns.length) (horizon : 0 < horizonDays) (value : 0 < portfolioValue) :
    (∀ confidence, 0 < confidence → confidence < 1 →
      ∃ result, historicalVarCvar sqrt (returns.map .finite) confidence horizonDays portfolioValue = .ok result ∧
        result.Within (lossesOf sqrt horizonDays portfolioValue returns) ∧
        ∀ reordered : List K, reordered.Perm returns →
          historicalVarCvar sqrt (reordered.map .finite) confidence horizonDays portfolioValue = .ok result) ∧
    ∀ c₁ c₂ r₁ r₂, 0 < c₁ → c₁ ≤ c₂ → c₂ < 1 →
      historicalVarCvar sqrt (returns.map .finite) c₁ horizonDays portfolioValue = .ok r₁ →
      historicalVarCvar sqrt (returns.map .finite) c₂ horizonDays portfolioValue = .ok r₂ →
      r₁.var ≤ r₂.var ∧ r₁.cvar ≤ r₂.cvar := by
  constructor
  · intro confidence pos lt
    obtain ⟨result, returned, within⟩ := historicalVarCvar_within sqrt observations horizon value pos lt
    refine ⟨result, returned, within, ?_⟩
    intro reordered perm
    rw [historicalVarCvar_perm sqrt perm]
    exact returned
  · intro c₁ c₂ r₁ r₂ pos le lt low high
    exact historicalVarCvar_mono sqrt observations horizon value pos le lt low high

/-- What is reported is the mean of the largest losses. -/
theorem historicalVarCvar_cvar (observations : 2 ≤ returns.length) (horizon : 0 < horizonDays) (value : 0 < portfolioValue)
    (pos : 0 < confidence) (lt : confidence < 1) :
    ∃ result, historicalVarCvar sqrt (returns.map .finite) confidence horizonDays portfolioValue = .ok result ∧
      result.cvar = Tail.top (tailCount confidence returns.length) (lossesOf sqrt horizonDays portfolioValue returns) /
        tailCount confidence returns.length := by
  obtain ⟨k, tail⟩ := Nat.exists_eq_add_of_le' (tailCount_pos confidence returns.length)
  obtain ⟨_, returned⟩ := historicalVarCvar_eq sqrt observations horizon value pos lt rfl tail.symm
  rw [tail]
  exact ⟨_, returned, rfl⟩

omit [LinearOrder K] [FloorRing K] [IsStrictOrderedRing K] in
/-- The losses of a combination are the sums of the losses of its parts. -/
theorem lossesOf_zipWith (x y : List K) :
    lossesOf sqrt horizonDays portfolioValue (List.zipWith (· + ·) x y) =
      (x.zip y).map fun pair => -pair.1 * sqrt horizonDays * portfolioValue + -pair.2 * sqrt horizonDays * portfolioValue := by
  have split (a b : K) : -(a + b) * sqrt horizonDays * portfolioValue =
      -a * sqrt horizonDays * portfolioValue + -b * sqrt horizonDays * portfolioValue := by ring
  simp only [lossesOf, List.zip, List.map_zipWith, split]

/-- **Diversification.** The conditional value at risk of two return series together is at
most the sum of theirs. -/
theorem historical_cvar_subadditive {x y : List K} (same : x.length = y.length) (observations : 2 ≤ x.length)
    (horizon : 0 < horizonDays) (value : 0 < portfolioValue) (pos : 0 < confidence) (lt : confidence < 1) :
    ∃ first second together,
      historicalVarCvar sqrt (x.map .finite) confidence horizonDays portfolioValue = .ok first ∧
      historicalVarCvar sqrt (y.map .finite) confidence horizonDays portfolioValue = .ok second ∧
      historicalVarCvar sqrt ((List.zipWith (· + ·) x y).map .finite) confidence horizonDays portfolioValue = .ok together ∧
      together.cvar ≤ first.cvar + second.cvar := by
  have length : (List.zipWith (· + ·) x y).length = x.length := by simp [same]
  obtain ⟨first, returned₁, cvar₁⟩ := historicalVarCvar_cvar sqrt observations horizon value pos lt
  obtain ⟨second, returned₂, cvar₂⟩ := historicalVarCvar_cvar sqrt (same ▸ observations) horizon value pos lt
  obtain ⟨together, returned₃, cvar₃⟩ := historicalVarCvar_cvar sqrt (length ▸ observations) horizon value pos lt
  refine ⟨first, second, together, returned₁, returned₂, returned₃, ?_⟩
  rw [cvar₁, cvar₂, cvar₃, length, ← same, ← add_div]
  apply div_le_div_of_nonneg_right _ (Nat.cast_nonneg _)
  have bound : tailCount confidence x.length ≤ (x.zip y).length := by
    have inside := tailCount_le pos (show 1 ≤ x.length by omega)
    simpa [← same] using inside
  have parts := Tail.top_add_le (fun pair : K × K => -pair.1 * sqrt horizonDays * portfolioValue)
    (fun pair => -pair.2 * sqrt horizonDays * portfolioValue) (x.zip y) bound
  rw [← lossesOf_zipWith] at parts
  have left : (x.zip y).map (fun pair => -pair.1 * sqrt horizonDays * portfolioValue) = lossesOf sqrt horizonDays portfolioValue x := by
    conv_rhs => rw [← List.map_fst_zip same.le, lossesOf, List.map_map]
    rfl
  have right : (x.zip y).map (fun pair => -pair.2 * sqrt horizonDays * portfolioValue) = lossesOf sqrt horizonDays portfolioValue y := by
    conv_rhs => rw [← List.map_snd_zip same.ge, lossesOf, List.map_map]
    rfl
  rwa [left, right] at parts

end Result

end TailRisk

section Examples

/-- At half confidence, two of three losses are the tail. -/
theorem historical_tail_risk_half : ∃ result,
    historicalVarCvar id [.finite (-1 / 10), .finite (1 / 20), .finite (-1 / 50)] (1 / 2 : ℚ) 1 100 = .ok result ∧
    result.Within [10, -5, 2] ∧ result.var = 2 ∧ result.cvar = 6 := by
  have observations : 2 ≤ ([-1 / 10, 1 / 20, -1 / 50] : List ℚ).length := by decide
  obtain ⟨each, -⟩ := historical_tail_risk id observations (show (0 : ℤ) < 1 by decide) (show (0 : ℚ) < 100 by decide +kernel)
  obtain ⟨result, returned, within, -⟩ := each (1 / 2) (by decide +kernel) (by decide +kernel)
  have losses : lossesOf id 1 (100 : ℚ) [-1 / 10, 1 / 20, -1 / 50] = [10, -5, 2] := by decide +kernel
  obtain ⟨same, measured, numbers⟩ := Run.endsIn_iff.mp (show Run.endsIn
    (historicalVarCvar id [.finite (-1 / 10), .finite (1 / 20), .finite (-1 / 50)] (1 / 2 : ℚ) 1 100)
    (fun result => decide (result.var = 2 ∧ result.cvar = 6)) = true by decide +kernel)
  cases returned.symm.trans measured
  exact ⟨result, returned, losses ▸ within, of_decide_eq_true numbers⟩

/-- Two series that lose on different days. -/
theorem historical_cvar_subadditive_hedged : ∃ first second together,
    historicalVarCvar id [.finite (-1 / 10), .finite (1 / 20)] (1 / 2 : ℚ) 1 100 = .ok first ∧
    historicalVarCvar id [.finite (1 / 20), .finite (-1 / 10)] (1 / 2 : ℚ) 1 100 = .ok second ∧
    historicalVarCvar id [.finite (-1 / 20), .finite (-1 / 20)] (1 / 2 : ℚ) 1 100 = .ok together ∧
    together.cvar ≤ first.cvar + second.cvar := by
  have together : List.zipWith (· + ·) [-1 / 10, 1 / 20] [1 / 20, -1 / 10] = ([-1 / 20, -1 / 20] : List ℚ) := by decide +kernel
  have parts := historical_cvar_subadditive id (show ([-1 / 10, 1 / 20] : List ℚ).length = [1 / 20, -1 / 10].length by decide)
    (by decide) (show (0 : ℤ) < 1 by decide) (show (0 : ℚ) < 100 by decide +kernel) (show (0 : ℚ) < 1 / 2 by decide +kernel)
    (by decide +kernel)
  rwa [together] at parts

end Examples

end CryptoQuant.PortfolioEngine
