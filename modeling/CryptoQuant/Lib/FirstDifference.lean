import Mathlib.Data.Nat.Find
import Mathlib.Order.Lattice

/-!
# Sequences compared at their first difference

A relation on items compares two sequences by the items at the first place where they
differ. The comparison is as transitive as the relation is at such places. A relation that
ties different items ties sequences too, and hides there what comes later.
-/

namespace FirstDifference
set_option autoImplicit false

variable {α β : Type} {r : α → α → Prop} {u v w : ℕ → α} {i k : ℕ}

/-- The sequences are the same before a place. -/
def AgreeTo (u v : ℕ → α) (i : ℕ) : Prop := ∀ j < i, u j = v j

/-- The first place where the sequences differ. -/
structure DiffersAt (u v : ℕ → α) (i : ℕ) : Prop where
  before : AgreeTo u v i
  here : u i ≠ v i

/-- The comparison of the items at the first difference. -/
def Less (r : α → α → Prop) (u v : ℕ → α) : Prop := ∃ i, DiffersAt u v i ∧ r (u i) (v i)

/-- Neither sequence is less. -/
def Tied (r : α → α → Prop) (u v : ℕ → α) : Prop := ¬ Less r u v ∧ ¬ Less r v u

theorem AgreeTo.symm (agree : AgreeTo u v i) : AgreeTo v u i := fun j earlier => (agree j earlier).symm

theorem AgreeTo.trans (left : AgreeTo u v i) (right : AgreeTo v w i) : AgreeTo u w i :=
  fun j earlier => (left j earlier).trans (right j earlier)

theorem AgreeTo.mono (agree : AgreeTo u v i) (le : k ≤ i) : AgreeTo u v k := fun j earlier => agree j (by omega)

theorem DiffersAt.symm (differs : DiffersAt u v i) : DiffersAt v u i := ⟨differs.before.symm, differs.here.symm⟩

/-- No difference comes before the first one. -/
theorem DiffersAt.le (differs : DiffersAt u v i) (different : u k ≠ v k) : i ≤ k := by
  by_contra later
  exact different (differs.before k (by omega))

theorem DiffersAt.unique (differs : DiffersAt u v i) (differs' : DiffersAt u v k) : i = k :=
  le_antisymm (differs.le differs'.here) (differs'.le differs.here)

/-- Sequences that are not the same have a first difference. -/
theorem eq_or_differs (u v : ℕ → α) : u = v ∨ ∃ i, DiffersAt u v i := by
  classical
  by_cases different : ∃ i, u i ≠ v i
  · refine .inr ⟨Nat.find different, fun j earlier => ?_, Nat.find_spec different⟩
    exact not_not.mp (Nat.find_min different earlier)
  · refine .inl (funext fun i => ?_)
    by_contra here
    exact different ⟨i, here⟩

theorem less_iff (differs : DiffersAt u v i) : Less r u v ↔ r (u i) (v i) := by
  constructor
  · rintro ⟨k, differs', less⟩
    rwa [differs.unique differs']
  · exact fun less => ⟨i, differs, less⟩

theorem not_less_self : ¬ Less r u u := fun ⟨_, differs, _⟩ => differs.here rfl

/-- A common first item is skipped. -/
theorem less_succ (same : u 0 = v 0) : Less r u v ↔ Less r (fun i => u (i + 1)) fun i => v (i + 1) := by
  constructor
  · rintro ⟨i, differs, less⟩
    cases i with
    | zero => exact absurd same differs.here
    | succ i => exact ⟨i, ⟨fun j earlier => differs.before (j + 1) (by omega), differs.here⟩, less⟩
  · rintro ⟨i, differs, less⟩
    refine ⟨i + 1, ⟨fun j earlier => ?_, differs.here⟩, less⟩
    cases j with
    | zero => exact same
    | succ j => exact differs.before j (by omega)

/-- Different first items decide. -/
theorem less_of_ne (different : u 0 ≠ v 0) : Less r u v ↔ r (u 0) (v 0) :=
  less_iff ⟨fun j earlier => absurd earlier (Nat.not_lt_zero j), different⟩

/-! ## Transitivity -/

/-- Sequences that part from a third one at different places compare to each other at the first of these. -/
theorem DiffersAt.trans_lt (left : DiffersAt u v i) (right : DiffersAt v w k) (earlier : i < k) : DiffersAt u w i where
  before := left.before.trans (right.before.mono earlier.le)
  here := fun same => left.here (same.trans (right.before i earlier).symm)

theorem DiffersAt.trans_gt (left : DiffersAt u v i) (right : DiffersAt v w k) (later : k < i) : DiffersAt u w k where
  before := (left.before.mono later.le).trans right.before
  here := fun same => right.here ((left.before k later).symm.trans same)

/-- A chain of three breaks exactly where one of their items does, at the place where the
three are no longer the same. -/
theorem less_trans_iff (asymm : ∀ x y, r x y → ¬ r y x) :
    (Less r u v → Less r v w → Less r u w) ↔
      ∀ i, AgreeTo u v i → AgreeTo v w i → r (u i) (v i) → r (v i) (w i) → r (u i) (w i) := by
  have irrefl : ∀ x, ¬ r x x := fun x self => asymm x x self self
  constructor
  · intro trans i agree agree' left right
    have first : DiffersAt u v i := ⟨agree, fun same => irrefl (v i) (same ▸ left)⟩
    have second : DiffersAt v w i := ⟨agree', fun same => irrefl (w i) (same ▸ right)⟩
    have third : DiffersAt u w i := ⟨agree.trans agree', fun same => asymm (u i) (v i) left (same ▸ right)⟩
    exact (less_iff third).mp (trans ((less_iff first).mpr left) ((less_iff second).mpr right))
  · rintro items ⟨i, first, left⟩ ⟨k, second, right⟩
    rcases Nat.lt_trichotomy i k with earlier | rfl | later
    · refine ⟨i, first.trans_lt second earlier, ?_⟩
      rwa [← second.before i earlier]
    · have less := items i first.before second.before left right
      exact ⟨i, ⟨first.before.trans second.before, fun same => irrefl (w i) (same ▸ less)⟩, less⟩
    · refine ⟨k, first.trans_gt second later, ?_⟩
      rwa [first.before k later]

/-! ## Ties -/

/-- Tied sequences are the same, or have tied items at their first difference. -/
theorem tied_iff : Tied r u v ↔ ∀ i, DiffersAt u v i → ¬ r (u i) (v i) ∧ ¬ r (v i) (u i) := by
  constructor
  · rintro ⟨left, right⟩ i differs
    exact ⟨fun less => left ⟨i, differs, less⟩, fun less => right ⟨i, differs.symm, less⟩⟩
  · intro tied
    exact ⟨fun ⟨i, differs, less⟩ => (tied i differs).1 less, fun ⟨i, differs, less⟩ => (tied i differs.symm).2 less⟩

/-- Ties carry over except from two sequences that part after a place where a third one has
a different, tied item. -/
theorem tied_trans_iff {tie : α → α → Prop} (ties : ∀ x y, x ≠ y → (tie x y ↔ ¬ r x y ∧ ¬ r y x))
    (symm : ∀ x y, tie x y → tie y x) (trans : ∀ x y z, tie x y → tie y z → tie x z) :
    (Tied r u v → Tied r v w → Tied r u w) ↔
      ∀ i, AgreeTo u v i → AgreeTo v w i → u i = w i → v i ≠ u i → tie (u i) (v i) →
        ∀ k, DiffersAt u w k → tie (u k) (w k) := by
  have tied : ∀ {u v : ℕ → α}, Tied r u v ↔ ∀ i, DiffersAt u v i → tie (u i) (v i) := by
    intro u v
    rw [tied_iff]
    exact forall₂_congr fun i differs => (ties _ _ differs.here).symm
  simp only [tied]
  constructor
  · intro carries i agree agree' same different tie
    refine carries (fun k differs => ?_) fun k differs => ?_
    · rwa [differs.unique ⟨agree, different.symm⟩]
    · rw [differs.unique ⟨agree', fun same' => different (same'.trans same.symm)⟩, ← same]
      exact symm _ _ tie
  · intro hidden left right k differs
    rcases eq_or_differs u v with rfl | ⟨i, first⟩
    · exact right k differs
    rcases eq_or_differs v w with rfl | ⟨j, second⟩
    · exact left k differs
    rcases Nat.lt_trichotomy i j with earlier | rfl | later
    · rw [differs.unique (first.trans_lt second earlier), ← second.before i earlier]
      exact left i first
    · by_cases same : u i = w i
      · exact hidden i first.before second.before same first.here.symm (left i first) k differs
      · rw [differs.unique ⟨first.before.trans second.before, same⟩]
        exact trans _ _ _ (left i first) (right i second)
    · rw [differs.unique (first.trans_gt second later), first.before j later]
      exact right j second

/-! ## Values -/

variable {value : α → β}

/-- The first difference of the values does not come before that of the items. -/
theorem differsAt_value (differs : DiffersAt u v i) (different : value (u i) ≠ value (v i)) :
    DiffersAt (fun j => value (u j)) (fun j => value (v j)) i where
  before := fun j earlier => congrArg value (differs.before j earlier)
  here := different

variable [LinearOrder β]

/-- Where items compare by their values, so do the sequences, unless different items of one
value hide a later difference. -/
theorem less_value_iff (values : ∀ i, u i ≠ v i → (r (u i) (v i) ↔ value (u i) < value (v i))) :
    (Less r u v ↔ Less (· < ·) (fun j => value (u j)) fun j => value (v j)) ↔
      ∀ i, DiffersAt u v i → value (u i) = value (v i) → ¬ Less (· < ·) (fun j => value (u j)) fun j => value (v j) := by
  constructor
  · intro agree i differs same less
    have below := (less_iff differs).mp (agree.mpr less)
    exact absurd ((values i differs.here).mp below) (same ▸ lt_irrefl _)
  · intro visible
    rcases eq_or_differs u v with rfl | ⟨i, differs⟩
    · exact iff_of_false not_less_self not_less_self
    rw [less_iff differs, values i differs.here]
    by_cases same : value (u i) = value (v i)
    · exact iff_of_false (same ▸ lt_irrefl _) (visible i differs same)
    · exact (less_iff (r := (· < ·)) (differsAt_value differs same)).symm

/-- Neither is less exactly when they are the same. -/
theorem eq_of_not_less {x y : ℕ → β} (left : ¬ Less (· < ·) x y) (right : ¬ Less (· < ·) y x) : x = y := by
  rcases eq_or_differs x y with same | ⟨i, differs⟩
  · exact same
  rw [less_iff differs] at left
  rw [less_iff differs.symm] at right
  exact absurd (le_antisymm (not_lt.mp right) (not_lt.mp left)) differs.here

/-- The order of lists of one length is that at their first difference. -/
theorem map_range_lt_iff : ∀ (n : ℕ) (x y : ℕ → β), (∀ i, n ≤ i → x i = y i) →
    ((List.range n).map x < (List.range n).map y ↔ Less (· < ·) x y)
  | 0, x, y, rest => by
    obtain rfl : x = y := funext fun i => rest i (Nat.zero_le i)
    exact iff_of_false (List.not_lt_nil _) not_less_self
  | n + 1, x, y, rest => by
    simp only [List.range_succ_eq_map, List.map_cons, List.map_map]
    by_cases same : x 0 = y 0
    · rw [same, List.cons_lt_cons_self, less_succ same]
      exact map_range_lt_iff n _ _ fun i above => rest (i + 1) (by omega)
    · rw [less_of_ne same, List.cons_lt_cons_iff]
      exact ⟨fun less => less.resolve_right fun equal => same equal.1, Or.inl⟩

end FirstDifference
