import CryptoQuant.Lib.Gram
import CryptoQuant.Lib.Pairs
import CryptoQuant.Lib.Run
import CryptoQuant.Risk.PortfolioEngine
import Mathlib.Analysis.Real.Sqrt
import Mathlib.Data.List.Dedup
import Mathlib.Data.String.Basic

/-!
# The correlation matrix

`evaluate_correlation_risk` fills its matrix cell by cell, each half on its own, and
decides on the cells above the diagonal. The cells are correlations: both halves are the
same, the diagonal is one, and no entry is beyond one.
-/

namespace CryptoQuant.PortfolioEngine
set_option autoImplicit false

open Portfolio (sortedNames sortedNames_perm nodup_sortedNames)

section Pearson
variable {K : Type} [Field K] [LinearOrder K]

/-- `num` after the loop of `_pearson`. -/
def products (pairs : List (K × K)) (xMean yMean : K) : K := (pairs.map fun pair => (pair.1 - xMean) * (pair.2 - yMean)).sum

/-- `den_x` and `den_y` after it. -/
def squares (values : List K) (mean : K) : K := (values.map fun value => (value - mean) * (value - mean)).sum

/-- `num / denom`, and zero where `denom` is. -/
def correlation (sqrt : K → K) (x y : List K) (xMean yMean : K) : K :=
  products (x.zip y) xMean yMean / sqrt (squares ((x.zip y).map Prod.fst) xMean * squares ((x.zip y).map Prod.snd) yMean)

omit [LinearOrder K] in
theorem foldl_moments (xMean yMean : K) (pairs : List (K × K)) (m : Moments K) :
    pairs.foldl (Moments.add xMean yMean) m =
      { num := m.num + products pairs xMean yMean, denX := m.denX + squares (pairs.map Prod.fst) xMean
        denY := m.denY + squares (pairs.map Prod.snd) yMean } := by
  induction pairs generalizing m with
  | nil => simp [products, squares]
  | cons pair pairs ih =>
    rw [List.foldl_cons, ih]
    simp [Moments.add, products, squares, add_assoc]

/-- `_pearson` never fails. -/
theorem pearson_eq (sqrt : K → K) (x y : List K) (xMean yMean : K) :
    pearson sqrt x y xMean yMean = .ok (correlation sqrt x y xMean yMean) := by
  simp only [pearson, foldl_moments, zero_add]
  split
  · rename_i zero
    rw [correlation, zero, div_zero]
  · rename_i nonzero
    exact if_neg nonzero

omit [LinearOrder K] in
/-- Both orders of two series have the same correlation. -/
theorem correlation_comm (sqrt : K → K) (x y : List K) (xMean yMean : K) :
    correlation sqrt x y xMean yMean = correlation sqrt y x yMean xMean := by
  have swapped : y.zip x = (x.zip y).map Prod.swap := (List.zip_swap x y).symm
  unfold correlation products
  rw [swapped, List.map_map, List.map_map, List.map_map, mul_comm (squares _ _)]
  simp only [Function.comp_def, Prod.fst_swap, Prod.snd_swap, mul_comm]

/-- A correlation is at most one. -/
theorem abs_correlation_le [IsStrictOrderedRing K] {sqrt : K → K}
    (root : ∀ square, 0 ≤ square → 0 ≤ sqrt square ∧ sqrt square * sqrt square = square) (x y : List K) (xMean yMean : K) :
    |correlation sqrt x y xMean yMean| ≤ 1 := by
  have nonneg (values : List K) (mean : K) : 0 ≤ squares values mean := by
    apply List.sum_nonneg
    intro square member
    obtain ⟨value, -, rfl⟩ := List.mem_map.mp member
    exact mul_self_nonneg _
  obtain ⟨sign, square⟩ := root _ (mul_nonneg (nonneg ((x.zip y).map Prod.fst) xMean) (nonneg ((x.zip y).map Prod.snd) yMean))
  apply Gram.abs_div_le_one sign square
  have bound := Gram.sq_sum_mul_le (x.zip y) (fun pair => pair.1 - xMean) fun pair => pair.2 - yMean
  unfold squares
  rwa [List.map_map, List.map_map]

end Pearson

section Scan
variable {K : Type} [Field K] [LinearOrder K] [FloorRing K]

/-- `matrix[left][right]`. -/
def cell (matrix : Py.Dict String (Py.Dict String K)) (left right : String) : Option K :=
  (matrix.get? left).bind fun row => row.get? right

omit [Field K] [LinearOrder K] [FloorRing K] in
theorem cell_put (scan : Scan K) (left right : String) (corr : K) (a b : String) :
    cell (scan.put left right corr).matrix a b = if a = left ∧ b = right then some corr else cell scan.matrix a b := by
  unfold cell Scan.put
  rw [Py.Dict.get?_set]
  by_cases row : a = left
  · subst row
    rw [if_pos rfl, Option.bind_some, Py.Dict.get?_set]
    by_cases column : b = right
    · rw [if_pos column, if_pos ⟨rfl, column⟩]
    · rw [if_neg column, if_neg fun both => column both.2, Py.Dict.getD]
      cases scan.matrix.get? a with
      | none => rfl
      | some row => rfl
  · rw [if_neg row, if_neg fun both => row both.1]

variable (sqrt : K → K) (strategyReturns : Py.Dict String (List K)) (config : CorrelationRiskConfig K)

/-- The correlation of two strategies, with means over their series. -/
def strategyCorrelation (left right : String) : K :=
  let x := strategyReturns.getD left []
  let y := strategyReturns.getD right []
  if left = right then 1 else correlation sqrt x y (x.sum / x.length) (y.sum / y.length)

omit [LinearOrder K] [FloorRing K] in
theorem strategyCorrelation_comm (a b : String) :
    strategyCorrelation sqrt strategyReturns a b = strategyCorrelation sqrt strategyReturns b a :=
  if_congr eq_comm rfl (correlation_comm sqrt _ _ _ _)

/-- The strategies of some cells. -/
def strategies (cells : List ((String × ℕ) × (String × ℕ))) : List (String × String) :=
  cells.map fun cell => (cell.1.1, cell.2.1)

/-- What the loops have stored after some cells: these of the matrix, and the correlations
above its diagonal. -/
structure Scanned (cells : List ((String × ℕ) × (String × ℕ))) (scan : Scan K) : Prop where
  matrix : ∀ a b, cell scan.matrix a b =
    if (a, b) ∈ strategies cells then some (strategyCorrelation sqrt strategyReturns a b) else none
  absCorrValues : scan.absCorrValues =
    (strategies (Pairs.upper cells)).map fun pair => |strategyCorrelation sqrt strategyReturns pair.1 pair.2|
  breachedPairs : scan.breachedPairs = ((strategies (Pairs.upper cells)).filter fun pair =>
    config.maxAbsPairCorr < |strategyCorrelation sqrt strategyReturns pair.1 pair.2|).map
      fun pair => (pair.1, pair.2, strategyCorrelation sqrt strategyReturns pair.1 pair.2)

omit [FloorRing K] in
/-- A cell has its correlation, and no other cell changes. -/
theorem Scanned.matrix_put {cells : List ((String × ℕ) × (String × ℕ))} {scan : Scan K}
    (scanned : Scanned sqrt strategyReturns config cells scan) (left right : String × ℕ) (a b : String) :
    cell (scan.put left.1 right.1 (strategyCorrelation sqrt strategyReturns left.1 right.1)).matrix a b =
      if (a, b) ∈ strategies (cells ++ [(left, right)]) then some (strategyCorrelation sqrt strategyReturns a b) else none := by
  have added : (a, b) ∈ strategies (cells ++ [(left, right)]) ↔ (a, b) ∈ strategies cells ∨ (a = left.1 ∧ b = right.1) := by
    simp [strategies]
  rw [cell_put, scanned.matrix a b]
  by_cases here : a = left.1 ∧ b = right.1
  · rw [if_pos here, if_pos (added.mpr (.inr here)), here.1, here.2]
  · rw [if_neg here]
    exact if_congr (added.trans (or_iff_left here)).symm rfl rfl

omit [FloorRing K] in
/-- **One round** of the loops stores its cell. -/
theorem Scanned.scanPair {means : Py.Dict String K} {cells : List ((String × ℕ) × (String × ℕ))} {scan : Scan K}
    (scanned : Scanned sqrt strategyReturns config cells scan) {left right : String × ℕ} (place : left.1 = right.1 ↔ left.2 = right.2)
    (averages : ∀ name ∈ [left.1, right.1], means.getD name 0 =
      (strategyReturns.getD name []).sum / (strategyReturns.getD name []).length) :
    ∃ after, scanPair sqrt strategyReturns config means scan left right = .ok after ∧
      Scanned sqrt strategyReturns config (cells ++ [(left, right)]) after := by
  have matrix := scanned.matrix_put sqrt strategyReturns config left right
  have above (order : left.2 < right.2) : Pairs.upper (cells ++ [(left, right)]) = Pairs.upper cells ++ [(left, right)] := by
    simp [Pairs.upper, order]
  have others (order : ¬ left.2 < right.2) : Pairs.upper (cells ++ [(left, right)]) = Pairs.upper cells := by
    simp [Pairs.upper, order]
  unfold PortfolioEngine.scanPair
  by_cases diagonal : left.2 = right.2
  · have one : strategyCorrelation sqrt strategyReturns left.1 right.1 = 1 := if_pos (place.mpr diagonal)
    rw [if_pos diagonal]
    rw [one] at matrix
    have same := others diagonal.not_lt
    exact ⟨_, rfl, matrix, same ▸ scanned.absCorrValues, same ▸ scanned.breachedPairs⟩
  · have off : strategyCorrelation sqrt strategyReturns left.1 right.1 = correlation sqrt (strategyReturns.getD left.1 [])
        (strategyReturns.getD right.1 []) (means.getD left.1 0) (means.getD right.1 0) := by
      rw [averages left.1 (by simp), averages right.1 (by simp)]
      exact if_neg (mt place.mp diagonal)
    rw [if_neg diagonal, pearson_eq, ← off]
    by_cases order : left.2 < right.2
    · have values : scan.absCorrValues ++ [|strategyCorrelation sqrt strategyReturns left.1 right.1|] =
          (strategies (Pairs.upper (cells ++ [(left, right)]))).map
            fun pair => |strategyCorrelation sqrt strategyReturns pair.1 pair.2| := by
        rw [scanned.absCorrValues, above order]
        simp [strategies]
      refine ⟨{ scan.put left.1 right.1 (strategyCorrelation sqrt strategyReturns left.1 right.1) with
          absCorrValues := scan.absCorrValues ++ [|strategyCorrelation sqrt strategyReturns left.1 right.1|]
          breachedPairs := if config.maxAbsPairCorr < |strategyCorrelation sqrt strategyReturns left.1 right.1| then
            scan.breachedPairs ++ [(left.1, right.1, strategyCorrelation sqrt strategyReturns left.1 right.1)]
          else scan.breachedPairs }, ?_, matrix, values, ?_⟩
      · simp only [bind, Except.bind, if_pos order]
        split <;> rfl
      · rw [above order, scanned.breachedPairs]
        split
        · rename_i breach
          simp [strategies, breach]
        · rename_i within
          simp [strategies, within]
    · have same := others order
      refine ⟨scan.put left.1 right.1 (strategyCorrelation sqrt strategyReturns left.1 right.1), ?_, matrix,
        same ▸ scanned.absCorrValues, same ▸ scanned.breachedPairs⟩
      simp only [bind, Except.bind, if_neg order]
      rfl

/-- The means are those of the series. -/
theorem means_ok {names : List String} (nonempty : ∀ name ∈ names, 0 < (strategyReturns.getD name []).length) :
    ∃ means, names.foldlM (fun means name => return means.set name (← mean (strategyReturns.getD name []))) Py.Dict.empty =
        (.ok means : Except PyError (Py.Dict String K)) ∧
      ∀ name ∈ names, means.getD name 0 = (strategyReturns.getD name []).sum / (strategyReturns.getD name []).length := by
  refine Run.progress (P := fun done (means : Py.Dict String K) => ∀ name ∈ done,
    means.getD name 0 = (strategyReturns.getD name []).sum / (strategyReturns.getD name []).length) (by simp) ?_
    (List.append_nil names).symm
  intro done name rest means split averages
  have member : name ∈ names := split ▸ List.mem_append_right done List.mem_cons_self
  refine ⟨_, by rw [mean_eq (nonempty name member)]; rfl, ?_⟩
  intro other among
  rw [Py.Dict.getD_set]
  split
  · rename_i same
    rw [same]
  · rename_i differs
    exact averages other ((List.mem_append.mp among).resolve_right (by simpa using differs))

theorem mem_strategies_grid {names : List String} {a b : String} :
    (a, b) ∈ strategies (Pairs.grid names.zipIdx) ↔ a ∈ names ∧ b ∈ names := by
  constructor
  · intro member
    obtain ⟨place, among, same⟩ := List.mem_map.mp member
    obtain ⟨rfl, rfl⟩ := Prod.mk.inj same
    obtain ⟨first, second⟩ := Pairs.mem_grid.mp among
    exact ⟨List.fst_mem_of_mem_zipIdx first, List.fst_mem_of_mem_zipIdx second⟩
  · rintro ⟨first, second⟩
    obtain ⟨i, bound, rfl⟩ := List.getElem_of_mem first
    obtain ⟨j, bound', rfl⟩ := List.getElem_of_mem second
    refine List.mem_map.mpr ⟨((names[i], i), (names[j], j)), Pairs.mem_grid.mpr ⟨?_, ?_⟩, rfl⟩
    · exact List.mem_zipIdx_iff_getElem?.mpr (List.getElem?_eq_getElem bound)
    · exact List.mem_zipIdx_iff_getElem?.mpr (List.getElem?_eq_getElem bound')

omit [FloorRing K] in
/-- **The loops** fill the whole matrix. -/
theorem scanned_grid {names : List String} (distinct : names.Nodup) {means : Py.Dict String K}
    (averages : ∀ name ∈ names, means.getD name 0 = (strategyReturns.getD name []).sum / (strategyReturns.getD name []).length) :
    ∃ scan, names.zipIdx.foldlM (fun scan left =>
        names.zipIdx.foldlM (fun scan right => scanPair sqrt strategyReturns config means scan left right) scan)
          { matrix := .ofKeys names fun _ => .empty, absCorrValues := [], breachedPairs := [] } = .ok scan ∧
      Scanned sqrt strategyReturns config (Pairs.grid names.zipIdx) scan := by
  have start : Scanned sqrt strategyReturns config []
      { matrix := .ofKeys names fun _ => .empty, absCorrValues := [], breachedPairs := [] } := by
    refine ⟨?_, rfl, rfl⟩
    intro a b
    rw [cell, Py.Dict.get?_ofKeys]
    split <;> rfl
  have run : ∃ scan, (Pairs.grid names.zipIdx).foldlM (fun scan cell =>
        scanPair sqrt strategyReturns config means scan cell.1 cell.2)
          { matrix := .ofKeys names fun _ => .empty, absCorrValues := [], breachedPairs := [] } = .ok scan ∧
      Scanned sqrt strategyReturns config (Pairs.grid names.zipIdx) scan := by
    refine Run.progress (P := Scanned sqrt strategyReturns config) start ?_ (List.append_nil _).symm
    intro done place rest scan split scanned
    have member : place ∈ Pairs.grid names.zipIdx := split ▸ List.mem_append_right done List.mem_cons_self
    obtain ⟨first, second⟩ := Pairs.mem_grid.mp member
    apply scanned.scanPair sqrt strategyReturns config (Pairs.item_iff_place distinct first second)
    intro name among
    apply averages
    rcases List.mem_pair.mp among with rfl | rfl
    · exact List.fst_mem_of_mem_zipIdx first
    · exact List.fst_mem_of_mem_zipIdx second
  unfold Pairs.grid at run
  simp only [Run.foldlM_flatMap, List.foldlM_map] at run
  exact run

/-- What the result tells of the loops. -/
structure Reports (scan : Scan K) (result : CorrelationRiskResult K) : Prop where
  matrix : result.matrix = scan.matrix
  average : result.avgAbsCorrelation = scan.absCorrValues.sum / scan.absCorrValues.length
  approved : result.approved = true ↔ scan.breachedPairs = [] ∧ result.avgAbsCorrelation ≤ config.maxAvgAbsCorr

variable {strategyReturns} in
/-- The evaluation never fails. -/
theorem evaluateCorrelationRisk_ok {n : ℕ} (enough : 2 ≤ strategyReturns.keys.length) (observations : 2 ≤ n)
    (same : ∀ name ∈ strategyReturns.keys, (strategyReturns.getD name []).length = n) :
    ∃ scan result, Scanned sqrt strategyReturns config (Pairs.grid (sortedNames strategyReturns.keys).zipIdx) scan ∧
      evaluateCorrelationRisk sqrt strategyReturns config = .ok result ∧ Reports config scan result := by
  have perm := sortedNames_perm strategyReturns.keys
  have count : 2 ≤ (sortedNames strategyReturns.keys).length := perm.length_eq ▸ enough
  have distinct := nodup_sortedNames strategyReturns
  have length : ∀ name ∈ sortedNames strategyReturns.keys, (strategyReturns.getD name []).length = n :=
    fun name member => same name (perm.mem_iff.mp member)
  have lengths : ((sortedNames strategyReturns.keys).map fun name => (strategyReturns.getD name []).length).dedup = [n] := by
    rw [List.map_congr_left length, List.map_const', List.replicate_dedup (by omega)]
  obtain ⟨means, averaged, averages⟩ := means_ok strategyReturns fun name member => by
    rw [length name member]
    omega
  obtain ⟨scan, looped, scanned⟩ := scanned_grid sqrt strategyReturns config distinct averages
  have values : 0 < scan.absCorrValues.length := by
    rw [scanned.absCorrValues, strategies, Pairs.upper_grid, List.length_map, Pairs.length_pairs]
    exact Nat.choose_pos count
  have returned : ∃ result, evaluateCorrelationRisk sqrt strategyReturns config = .ok result ∧ Reports config scan result := by
    simp only [evaluateCorrelationRisk, raiseIf, not_lt.mpr count, lengths, List.length_singleton, ne_eq, not_true_eq_false,
      List.head?_cons, Option.getD_some, not_lt.mpr observations, if_false, bind, Except.bind] at averaged looped ⊢
    rw [averaged]
    dsimp only
    rw [looped]
    dsimp only
    rw [mean_eq values]
    refine ⟨_, rfl, rfl, rfl, ?_⟩
    refine decide_eq_true_iff.trans ?_
    dsimp only
    rw [List.length_eq_zero_iff, List.append_eq_nil_iff]
    apply and_congr
    · by_cases none_ : scan.breachedPairs = []
      · simp [none_]
      · simp [none_]
    · by_cases beyond : config.maxAvgAbsCorr < scan.absCorrValues.sum / scan.absCorrValues.length
      · simp [beyond]
      · simp [beyond, not_lt.mp beyond]
  obtain ⟨result, evaluated, reports⟩ := returned
  exact ⟨scan, result, scanned, evaluated, reports⟩

/-- The correlations of some strategies: symmetric, one on the diagonal, and within one. -/
structure CorrelationMatrix (names : List String) (corr : String → String → K) (matrix : Py.Dict String (Py.Dict String K)) :
    Prop where
  cells : ∀ a b, cell matrix a b = if a ∈ names ∧ b ∈ names then some (corr a b) else none
  symmetric : ∀ a b, corr a b = corr b a
  diagonal : ∀ a, corr a a = 1
  within : ∀ a b, |corr a b| ≤ 1

end Scan

section Real

theorem real_root (square : ℝ) (nonneg : 0 ≤ square) : 0 ≤ Real.sqrt square ∧ Real.sqrt square * Real.sqrt square = square :=
  ⟨Real.sqrt_nonneg square, Real.mul_self_sqrt nonneg⟩

theorem abs_strategyCorrelation_le (strategyReturns : Py.Dict String (List ℝ)) (a b : String) :
    |strategyCorrelation Real.sqrt strategyReturns a b| ≤ 1 := by
  unfold strategyCorrelation
  split
  · rw [abs_one]
  · exact abs_correlation_le real_root _ _ _ _

/-- A mean of absolute correlations is within one. -/
theorem mean_abs_within (strategyReturns : Py.Dict String (List ℝ)) (pairs : List (String × String)) :
    0 ≤ (pairs.map fun pair => |strategyCorrelation Real.sqrt strategyReturns pair.1 pair.2|).sum / pairs.length ∧
      (pairs.map fun pair => |strategyCorrelation Real.sqrt strategyReturns pair.1 pair.2|).sum / pairs.length ≤ 1 := by
  constructor
  · apply div_nonneg _ (Nat.cast_nonneg _)
    apply List.sum_nonneg
    intro value member
    obtain ⟨pair, -, rfl⟩ := List.mem_map.mp member
    exact abs_nonneg _
  · apply div_le_one_of_le₀ _ (Nat.cast_nonneg _)
    have bound := List.sum_le_card_nsmul (pairs.map fun pair => |strategyCorrelation Real.sqrt strategyReturns pair.1 pair.2|) 1
      (by simpa using fun _ a b _ same => same ▸ abs_strategyCorrelation_le strategyReturns a b)
    simpa using bound

/-- No breach above the diagonal is none at all. -/
theorem no_breach_iff (strategyReturns : Py.Dict String (List ℝ)) (limit : ℝ) {names : List String} (distinct : names.Nodup) :
    (∀ pair ∈ Pairs.pairs names, |strategyCorrelation Real.sqrt strategyReturns pair.1 pair.2| ≤ limit) ↔
      ∀ a ∈ names, ∀ b ∈ names, a ≠ b → |strategyCorrelation Real.sqrt strategyReturns a b| ≤ limit := by
  have symm : Std.Symm fun a b => |strategyCorrelation Real.sqrt strategyReturns a b| ≤ limit :=
    ⟨fun a b within => strategyCorrelation_comm Real.sqrt strategyReturns a b ▸ within⟩
  rw [Pairs.forall_mem_pairs (R := fun a b => |strategyCorrelation Real.sqrt strategyReturns a b| ≤ limit)]
  constructor
  · intro within a first b second differs
    exact within.forall first second differs
  · intro within
    exact distinct.pairwise_of_forall_ne within

/-- **The correlation matrix.** It has a correlation for every two strategies, the average
is over every unordered pair once, and the limits decide the approval. -/
theorem correlation_risk {strategyReturns : Py.Dict String (List ℝ)} (config : CorrelationRiskConfig ℝ) {n : ℕ}
    (enough : 2 ≤ strategyReturns.keys.length) (observations : 2 ≤ n)
    (same : ∀ name ∈ strategyReturns.keys, (strategyReturns.getD name []).length = n) :
    ∃ result, evaluateCorrelationRisk Real.sqrt strategyReturns config = .ok result ∧
      let corr := strategyCorrelation Real.sqrt strategyReturns
      CorrelationMatrix strategyReturns.keys corr result.matrix ∧
      (∃ pairs : List (String × String), pairs.Nodup ∧
        (∀ a b, (a, b) ∈ pairs ↔ a ∈ strategyReturns.keys ∧ b ∈ strategyReturns.keys ∧ a < b) ∧
        pairs.length = strategyReturns.keys.length * (strategyReturns.keys.length - 1) / 2 ∧
        result.avgAbsCorrelation = (pairs.map fun pair => |corr pair.1 pair.2|).sum / pairs.length) ∧
      0 ≤ result.avgAbsCorrelation ∧ result.avgAbsCorrelation ≤ 1 ∧
      (result.approved = true ↔
        (∀ a ∈ strategyReturns.keys, ∀ b ∈ strategyReturns.keys, a ≠ b → |corr a b| ≤ config.maxAbsPairCorr) ∧
        result.avgAbsCorrelation ≤ config.maxAvgAbsCorr) := by
  obtain ⟨scan, result, scanned, returned, reports⟩ := evaluateCorrelationRisk_ok Real.sqrt config enough observations same
  have perm := sortedNames_perm strategyReturns.keys
  have distinct := nodup_sortedNames strategyReturns
  have increasing : (sortedNames strategyReturns.keys).Pairwise (· < ·) :=
    (List.sortedLE_insertionSort.sortedLT_of_nodup distinct).pairwise
  have mem_pairs (a b : String) : (a, b) ∈ Pairs.pairs (sortedNames strategyReturns.keys) ↔
      a ∈ strategyReturns.keys ∧ b ∈ strategyReturns.keys ∧ a < b := by
    rw [Pairs.mem_pairs increasing, perm.mem_iff, perm.mem_iff]
  have length : (Pairs.pairs (sortedNames strategyReturns.keys)).length =
      strategyReturns.keys.length * (strategyReturns.keys.length - 1) / 2 := by
    rw [Pairs.length_pairs, perm.length_eq, Nat.choose_two_right]
  have upper : strategies (Pairs.upper (Pairs.grid (sortedNames strategyReturns.keys).zipIdx)) =
      Pairs.pairs (sortedNames strategyReturns.keys) := Pairs.upper_grid _ 0
  have average := reports.average
  rw [scanned.absCorrValues, upper, List.length_map] at average
  have cells (a b : String) : cell result.matrix a b = if a ∈ strategyReturns.keys ∧ b ∈ strategyReturns.keys then
      some (strategyCorrelation Real.sqrt strategyReturns a b) else none := by
    rw [reports.matrix, scanned.matrix a b]
    refine if_congr ?_ rfl rfl
    rw [mem_strategies_grid, perm.mem_iff, perm.mem_iff]
  refine ⟨result, returned, ⟨cells, strategyCorrelation_comm Real.sqrt strategyReturns, fun a => if_pos rfl, abs_strategyCorrelation_le strategyReturns⟩,
    ⟨_, Pairs.nodup_pairs distinct, mem_pairs, length, average⟩, ?_, ?_, ?_⟩
  · rw [average]
    exact (mean_abs_within strategyReturns _).1
  · rw [average]
    exact (mean_abs_within strategyReturns _).2
  · have breaches := no_breach_iff strategyReturns config.maxAbsPairCorr distinct
    simp only [perm.mem_iff] at breaches
    rw [reports.approved, scanned.breachedPairs, upper, List.map_eq_nil_iff, List.filter_eq_nil_iff, ← breaches]
    simp only [decide_eq_true_eq, not_lt]

end Real

section Examples

/-- One strategy rises when the other falls. -/
def opposite : Py.Dict String (List ℝ) := (Py.Dict.empty.set "a" [0, 1]).set "b" [1, 0]

/-- Their correlation is a breach. -/
theorem correlation_risk_opposite :
    ∃ result, evaluateCorrelationRisk Real.sqrt opposite ⟨85 / 100, 65 / 100, by norm_num, by norm_num⟩ = .ok result ∧
      cell result.matrix "a" "b" = some (-1) ∧ result.avgAbsCorrelation ≤ 1 ∧ result.approved = false := by
  have keys : opposite.keys = ["a", "b"] := rfl
  have first : opposite.getD "a" [] = [0, 1] := rfl
  have second : opposite.getD "b" [] = [1, 0] := rfl
  have same : ∀ name ∈ opposite.keys, (opposite.getD name []).length = 2 := by
    intro name member
    rcases List.mem_pair.mp (keys ▸ member) with rfl | rfl
    · rw [first, List.length_cons, List.length_singleton]
    · rw [second, List.length_cons, List.length_singleton]
  have corr : strategyCorrelation Real.sqrt opposite "a" "b" = -1 := by
    have root : √(4 : ℝ) = 2 := by
      rw [show (4 : ℝ) = 2 * 2 by norm_num]
      exact Real.sqrt_mul_self zero_le_two
    unfold strategyCorrelation correlation products squares
    rw [first, second, if_neg (by decide)]
    norm_num [root]
  obtain ⟨result, returned, matrix, -, -, average, approval⟩ := correlation_risk
    ⟨85 / 100, 65 / 100, by norm_num, by norm_num⟩ (keys ▸ le_rfl) le_rfl same
  refine ⟨result, returned, ?_, average, ?_⟩
  · rw [matrix.cells, if_pos (keys ▸ by simp), corr]
  · rw [Bool.eq_false_iff, Ne, approval]
    rintro ⟨within, -⟩
    have limit := within "a" (keys ▸ by simp) "b" (keys ▸ by simp) (by decide)
    rw [corr] at limit
    norm_num at limit

end Examples

end CryptoQuant.PortfolioEngine
