import CryptoQuant.Portfolio.CapitalAllocator
import Mathlib.Data.List.Dedup

/-!
# Rounds of the projection

What one round of the loop of `_project_weights` makes of the weights: those outside
their bounds go to the bound, and the others share what is left of the total.
-/

namespace CryptoQuant.Portfolio
set_option autoImplicit false

section Dicts
variable {p : Py.Dict String ℚ} {names ks : List String}

theorem sum_values (p : Py.Dict String ℚ) : p.values.sum = (p.keys.map fun name => p.getD name 0).sum := by
  rw [← p.sum_items (fun _ v => v) 0]
  rfl

/-- Writing keys that are there keeps the keys. -/
theorem keys_foldl_set (f : String → ℚ) (p : Py.Dict String ℚ) (there : ∀ name ∈ ks, name ∈ p.keys) :
    (ks.foldl (fun p name => p.set name (f name)) p).keys = p.keys := by
  induction ks generalizing p with
  | nil => rfl
  | cons k ks ih =>
    have same : (p.set k (f k)).keys = p.keys := Py.Dict.keys_set_of_mem (there k List.mem_cons_self) _
    rw [List.foldl_cons, ih, same]
    intro name member
    rw [same]
    exact there name (List.mem_cons_of_mem _ member)

theorem getD_foldl_set (f : String → ℚ) (p : Py.Dict String ℚ) (name : String) :
    (ks.foldl (fun p name => p.set name (f name)) p).getD name 0 = if name ∈ ks then f name else p.getD name 0 := by
  unfold Py.Dict.getD
  rw [Py.Dict.get?_foldl_set]
  split <;> rfl

/-- A comprehension over the items that pass a test lists the keys whose value does. -/
theorem keys_filter_items (test : ℚ → Bool) (p : Py.Dict String ℚ) :
    (p.items.filter fun item => test item.2).map Prod.fst = p.keys.filter fun name => test (p.getD name 0) := by
  have values : ∀ item ∈ p.items, test item.2 = test (p.getD item.1 0) := by
    intro item member
    have found : p.get? item.1 = some item.2 := Py.Dict.get?_of_mem member
    rw [Py.Dict.getD, found, Option.getD_some]
  rw [List.filter_congr values, Py.Dict.keys, List.filter_map]
  rfl

theorem sum_values_set {name : String} (member : name ∈ p.keys) (v : ℚ) :
    (p.set name v).values.sum = p.values.sum + (v - p.getD name 0) := by
  rw [sum_values, sum_values, p.sum_keys_set v (g := fun name => p.getD name 0) (fun a other => ?_)
    (fun absent => absurd member absent), Py.Dict.getD_set_self]
  rw [Py.Dict.getD_set, if_neg other]

end Dicts

section Rounds
variable {names : List String} {base : String → ℚ} {total minWeight maxWeight : ℚ}

/-- The dictionary in which the weights outside their bounds are at the bound. -/
def clamped (minWeight maxWeight : ℚ) (p : Py.Dict String ℚ) : Py.Dict String ℚ :=
  (clampedLow minWeight p).foldl (fun p name => p.set name minWeight)
    ((clampedHigh maxWeight p).foldl (fun p name => p.set name maxWeight) p)

section Clamped
variable {p : Py.Dict String ℚ}

theorem mem_clampedHigh {name : String} :
    name ∈ clampedHigh maxWeight p ↔ name ∈ p.keys ∧ maxWeight < p.getD name 0 := by
  unfold clampedHigh
  rw [keys_filter_items (fun w => decide (maxWeight < w)), List.mem_filter, decide_eq_true_iff]

theorem mem_clampedLow {name : String} :
    name ∈ clampedLow minWeight p ↔ name ∈ p.keys ∧ p.getD name 0 < minWeight := by
  unfold clampedLow
  rw [keys_filter_items (fun w => decide (w < minWeight)), List.mem_filter, decide_eq_true_iff]

theorem keys_clamped : (clamped minWeight maxWeight p).keys = p.keys := by
  have high := keys_foldl_set (fun _ => maxWeight) p fun name member =>
    (show name ∈ p.keys ∧ maxWeight < p.getD name 0 from mem_clampedHigh.mp member).1
  unfold clamped
  rw [keys_foldl_set (fun _ => minWeight), high]
  intro name member
  rw [high]
  exact (mem_clampedLow.mp member).1

theorem getD_clamped {name : String} (member : name ∈ p.keys) :
    (clamped minWeight maxWeight p).getD name 0 =
      if p.getD name 0 < minWeight then minWeight
      else if maxWeight < p.getD name 0 then maxWeight else p.getD name 0 := by
  unfold clamped
  rw [getD_foldl_set (fun _ => minWeight), getD_foldl_set (fun _ => maxWeight)]
  simp only [mem_clampedLow, mem_clampedHigh, member, true_and]

theorem clamped_inside {name : String} (ordered : minWeight ≤ maxWeight) (member : name ∈ p.keys) :
    minWeight ≤ (clamped minWeight maxWeight p).getD name 0 ∧
      (clamped minWeight maxWeight p).getD name 0 ≤ maxWeight := by
  rw [getD_clamped member]
  split
  · exact ⟨le_rfl, ordered⟩
  · split
    · exact ⟨ordered, le_rfl⟩
    · exact ⟨not_lt.mp ‹_›, not_lt.mp ‹_›⟩

end Clamped

/-- **A round keeps the sum**: the fixed weights and what is left for the others. -/
theorem sum_share {p : Py.Dict String ℚ} {fixed : List String} (among : ∀ name ∈ fixed, name ∈ p.keys)
    (distinct : fixed.Nodup) (share : String → ℚ)
    (left : ((p.keys.filter fun name => name ∉ fixed).map share).sum =
      total - (fixed.map fun name => p.getD name 0).sum) :
    ((p.keys.filter fun name => name ∉ fixed).foldl (fun p name => p.set name (share name)) p).values.sum = total := by
  have keys := @keys_foldl_set (p.keys.filter fun name => name ∉ fixed) share p fun name member =>
    (List.mem_filter.mp member).1
  have fixed_ : (p.keys.filter fun name => decide (name ∈ fixed)).Perm fixed := by
    refine (List.perm_ext_iff_of_nodup (p.nodup_keys.filter _) distinct).mpr fun name => ?_
    rw [List.mem_filter, decide_eq_true_iff]
    exact ⟨And.right, fun member => ⟨among name member, member⟩⟩
  have others : (p.keys.filter fun name => !decide (name ∈ fixed)) = p.keys.filter fun name => name ∉ fixed :=
    List.filter_congr fun name _ => (decide_not).symm
  rw [sum_values, keys, Shares.sum_split (fun name => decide (name ∈ fixed)), others]
  simp only [getD_foldl_set share]
  have kept : (p.keys.filter fun name => decide (name ∈ fixed)).map
      (fun name => if name ∈ p.keys.filter (fun name => name ∉ fixed) then share name else p.getD name 0) =
      (p.keys.filter fun name => decide (name ∈ fixed)).map fun name => p.getD name 0 := by
    refine List.map_congr_left fun name member => if_neg ?_
    have within : name ∈ fixed := of_decide_eq_true (List.mem_filter.mp member).2
    rw [List.mem_filter]
    exact fun both => of_decide_eq_true both.2 within
  have shared : (p.keys.filter fun name => name ∉ fixed).map
      (fun name => if name ∈ p.keys.filter (fun name => name ∉ fixed) then share name else p.getD name 0) =
      (p.keys.filter fun name => name ∉ fixed).map share :=
    List.map_congr_left fun name member => if_pos member
  rw [kept, shared, left, (fixed_.map _).sum_eq]
  ring

section Allotment
variable (names : List String) (base : String → ℚ) (total minWeight maxWeight : ℚ) (weight : String → ℚ)

/-- The names whose weight is within the bounds. -/
def insideNames : List String := names.filter fun name => minWeight ≤ weight name ∧ weight name ≤ maxWeight

/-- What the names outside their bounds leave of the total, once they are on the bound. -/
def leftOver : ℚ :=
  total - ((names.filter fun name => maxWeight < weight name).length * maxWeight +
    (names.filter fun name => weight name < minWeight).length * minWeight)

/-- The share of a name inside: in proportion to its base, or even. -/
def allotment (name : String) : ℚ :=
  let inside := insideNames names minWeight maxWeight weight
  if (inside.map base).sum ≤ 0 then leftOver names total minWeight maxWeight weight / inside.length
  else leftOver names total minWeight maxWeight weight * base name / (inside.map base).sum

/-- The weight of a name after a round. -/
def rebalanced (name : String) : ℚ :=
  if weight name < minWeight then minWeight
  else if maxWeight < weight name then maxWeight
  else allotment names base total minWeight maxWeight weight name

end Allotment

section Allotment
variable {weight : String → ℚ}

theorem mem_insideNames {name : String} : name ∈ insideNames names minWeight maxWeight weight ↔
    name ∈ names ∧ minWeight ≤ weight name ∧ weight name ≤ maxWeight := by
  unfold insideNames
  rw [List.mem_filter, decide_eq_true_iff]

theorem insideNames_eq_nil : insideNames names minWeight maxWeight weight = [] ↔
    ∀ name ∈ names, maxWeight < weight name ∨ weight name < minWeight := by
  unfold insideNames
  simp only [List.filter_eq_nil_iff, decide_eq_true_iff, not_and_or, not_le]
  exact forall₂_congr fun name member => or_comm

theorem exists_outside (unsettled : ¬ ∀ name ∈ names, minWeight ≤ weight name ∧ weight name ≤ maxWeight) :
    ∃ name ∈ names, maxWeight < weight name ∨ weight name < minWeight := by
  push Not at unsettled
  obtain ⟨name, member, out⟩ := unsettled
  exact ⟨name, member, (lt_or_ge _ _).symm.imp out id⟩

theorem allotment_of_flat (flat : ((insideNames names minWeight maxWeight weight).map base).sum ≤ 0) :
    allotment names base total minWeight maxWeight weight = fun _ =>
      leftOver names total minWeight maxWeight weight / (insideNames names minWeight maxWeight weight).length :=
  funext fun _ => if_pos flat

theorem allotment_of_base (positive : 0 < ((insideNames names minWeight maxWeight weight).map base).sum) :
    allotment names base total minWeight maxWeight weight = fun name =>
      leftOver names total minWeight maxWeight weight * base name /
        ((insideNames names minWeight maxWeight weight).map base).sum :=
  funext fun _ => if_neg (not_le.mpr positive)

theorem sum_allotments (inside : insideNames names minWeight maxWeight weight ≠ []) :
    ((insideNames names minWeight maxWeight weight).map (allotment names base total minWeight maxWeight weight)).sum =
      leftOver names total minWeight maxWeight weight := by
  by_cases flat : ((insideNames names minWeight maxWeight weight).map base).sum ≤ 0
  · rw [allotment_of_flat flat]
    exact Shares.sum_even _ inside
  · rw [allotment_of_base (not_le.mp flat)]
    exact Shares.sum_proportional _ base (not_le.mp flat).ne'

end Allotment

section Loop
variable {p : Py.Dict String ℚ}

/-- Weights within their bounds stay. -/
theorem projectionLoop_of_inside (rounds : ℕ)
    (inside : ∀ name ∈ p.keys, minWeight ≤ p.getD name 0 ∧ p.getD name 0 ≤ maxWeight) :
    projectionLoop names base total minWeight maxWeight rounds p = p := by
  have high : clampedHigh maxWeight p = [] := List.eq_nil_iff_forall_not_mem.mpr fun name member =>
    not_lt.mpr (inside name (mem_clampedHigh.mp member).1).2 (mem_clampedHigh.mp member).2
  have low : clampedLow minWeight p = [] := List.eq_nil_iff_forall_not_mem.mpr fun name member =>
    not_lt.mpr (inside name (mem_clampedLow.mp member).1).1 (mem_clampedLow.mp member).2
  cases rounds with
  | zero => rfl
  | succ rounds =>
    unfold projectionLoop
    exact if_pos ⟨high, low⟩

theorem mem_fixed {name : String} : name ∈ (clampedHigh maxWeight p ++ clampedLow minWeight p).dedup ↔
    name ∈ p.keys ∧ (maxWeight < p.getD name 0 ∨ p.getD name 0 < minWeight) := by
  rw [List.mem_dedup, List.mem_append, mem_clampedHigh, mem_clampedLow, and_or_left]

theorem some_fixed (outside : ∃ name ∈ p.keys, maxWeight < p.getD name 0 ∨ p.getD name 0 < minWeight) :
    ¬ (clampedHigh maxWeight p = [] ∧ clampedLow minWeight p = []) := by
  rintro ⟨high, low⟩
  obtain ⟨name, member, out⟩ := outside
  have here := mem_fixed.mpr ⟨member, out⟩
  rw [high, low] at here
  exact absurd here List.not_mem_nil

/-- The names a round leaves free are the ones inside. -/
theorem free_eq : (p.keys.filter fun name => name ∉ (clampedHigh maxWeight p ++ clampedLow minWeight p).dedup) =
    insideNames p.keys minWeight maxWeight fun name => p.getD name 0 := by
  refine List.filter_congr fun name member => ?_
  rw [decide_eq_decide, mem_fixed, not_and, not_or, not_lt, not_lt]
  exact ⟨fun inside => (inside member).symm, fun inside _ => inside.symm⟩

/-- When no weight is within its bounds, all are fixed and the loop ends. -/
theorem projectionLoop_of_outside (rounds : ℕ) (some_ : p.keys ≠ [])
    (outside : ∀ name ∈ p.keys, maxWeight < p.getD name 0 ∨ p.getD name 0 < minWeight) :
    projectionLoop p.keys base total minWeight maxWeight (rounds + 1) p = clamped minWeight maxWeight p := by
  have inside := insideNames_eq_nil.mpr outside
  obtain ⟨name, member⟩ := List.exists_mem_of_ne_nil _ some_
  unfold projectionLoop
  simp only
  rw [if_neg (some_fixed ⟨name, member, outside name member⟩), free_eq, if_pos inside]
  rfl

variable (p total) in
/-- What the fixed names leave. -/
theorem left_eq (ordered : minWeight ≤ maxWeight) :
    total - ((clampedHigh maxWeight p ++ clampedLow minWeight p).dedup.map fun name =>
      (clamped minWeight maxWeight p).getD name 0).sum =
      leftOver p.keys total minWeight maxWeight fun name => p.getD name 0 := by
  have high : clampedHigh maxWeight p = p.keys.filter fun name => maxWeight < p.getD name 0 :=
    keys_filter_items (fun w => decide (maxWeight < w)) p
  have low : clampedLow minWeight p = p.keys.filter fun name => p.getD name 0 < minWeight :=
    keys_filter_items (fun w => decide (w < minWeight)) p
  have apart : (clampedHigh maxWeight p ++ clampedLow minWeight p).Nodup := by
    refine List.Nodup.append ?_ ?_ fun name above below => ?_
    · rw [high]
      exact p.nodup_keys.filter _
    · rw [low]
      exact p.nodup_keys.filter _
    · exact absurd ((mem_clampedHigh.mp above).2.trans (mem_clampedLow.mp below).2) (not_lt.mpr ordered)
  have above : (clampedHigh maxWeight p).map (fun name => (clamped minWeight maxWeight p).getD name 0) =
      (clampedHigh maxWeight p).map fun _ => maxWeight := by
    refine List.map_congr_left fun name member => ?_
    obtain ⟨here, more⟩ := mem_clampedHigh.mp member
    rw [getD_clamped here, if_neg (not_lt.mpr (ordered.trans more.le)), if_pos more]
  have below : (clampedLow minWeight p).map (fun name => (clamped minWeight maxWeight p).getD name 0) =
      (clampedLow minWeight p).map fun _ => minWeight := by
    refine List.map_congr_left fun name member => ?_
    obtain ⟨here, less⟩ := mem_clampedLow.mp member
    rw [getD_clamped here, if_pos less]
  rw [apart.dedup, List.map_append, List.sum_append, above, below]
  simp only [List.map_const', List.sum_replicate, nsmul_eq_mul, high, low, leftOver]

variable (base total) in
/-- **A round** from weights of which some are outside their bounds and some are not. -/
theorem projectionLoop_round (ordered : minWeight ≤ maxWeight) (rounds : ℕ)
    (outside : ∃ name ∈ p.keys, maxWeight < p.getD name 0 ∨ p.getD name 0 < minWeight)
    (inside : (insideNames p.keys minWeight maxWeight fun name => p.getD name 0) ≠ []) :
    ∃ q : Py.Dict String ℚ, q.keys = p.keys ∧ q.values.sum = total ∧
      (∀ name ∈ p.keys,
        q.getD name 0 = rebalanced p.keys base total minWeight maxWeight (fun name => p.getD name 0) name) ∧
      projectionLoop p.keys base total minWeight maxWeight (rounds + 1) p =
        projectionLoop p.keys base total minWeight maxWeight rounds q := by
  let free := insideNames p.keys minWeight maxWeight fun name => p.getD name 0
  let given := allotment p.keys base total minWeight maxWeight fun name => p.getD name 0
  let q := free.foldl (fun q name => q.set name (given name)) (clamped minWeight maxWeight p)
  have same : (clamped minWeight maxWeight p).keys = p.keys := keys_clamped
  have there : ∀ name ∈ free, name ∈ (clamped minWeight maxWeight p).keys := fun name member => by
    rw [same]
    exact (mem_insideNames.mp member).1
  refine ⟨q, (keys_foldl_set _ _ there).trans same, ?_, fun name member => ?_, ?_⟩
  · have whole := @sum_share total (clamped minWeight maxWeight p) (clampedHigh maxWeight p ++ clampedLow minWeight p).dedup
      (fun name member => same ▸ (mem_fixed.mp member).1) (List.nodup_dedup _) given
    rw [same, free_eq, left_eq total p ordered] at whole
    exact whole (sum_allotments inside)
  · have mem_free : name ∈ free ↔ minWeight ≤ p.getD name 0 ∧ p.getD name 0 ≤ maxWeight := by
      rw [mem_insideNames, and_iff_right member]
    show (free.foldl (fun q name => q.set name (given name)) (clamped minWeight maxWeight p)).getD name 0 = _
    rw [getD_foldl_set, getD_clamped member, rebalanced]
    by_cases low : p.getD name 0 < minWeight
    · rw [if_neg fun here => absurd (mem_free.mp here).1 (not_le.mpr low), if_pos low, if_pos low]
    · by_cases high : maxWeight < p.getD name 0
      · rw [if_neg fun here => absurd (mem_free.mp here).2 (not_le.mpr high), if_neg low, if_pos high, if_neg low,
          if_pos high]
      · rw [if_pos (mem_free.mpr ⟨not_lt.mp low, not_lt.mp high⟩), if_neg low, if_neg high]
  · have left := left_eq total p ordered
    conv_lhs => unfold projectionLoop
    dsimp only
    rw [if_neg (some_fixed outside), free_eq, if_neg inside]
    change (if (free.map base).sum ≤ 0 then _ else _) = _
    by_cases flat : (free.map base).sum ≤ 0
    · rw [if_pos flat]
      simp only [q, given, allotment_of_flat flat, ← left]
      rfl
    · rw [if_neg flat]
      simp only [q, given, allotment_of_base (not_le.mp flat), ← left]
      rfl

end Loop

end Rounds

end CryptoQuant.Portfolio
