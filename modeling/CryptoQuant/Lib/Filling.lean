import CryptoQuant.Lib.Grouping

/-!
# Fillers

A filler is an item that repeats what the item before it left. Put between the items
of a list, fillers make the buckets of the items fuller (`Covers`) and add buckets of
their own, which repeat what the bucket before them left (`Flat`).
-/

namespace Buckets
set_option autoImplicit false

variable {α κ β γ : Type}

/-- How the buckets of a scheme take fillers. What an item leaves is the level of the
bucket that takes it. -/
structure Fills (s : Scheme α κ β) (leaves : α → γ) (level : β → γ) (Filler : γ → α → Prop) (Valid : α → Prop)
    (Covers : β → β → Prop) (Flat : γ → β → Prop) : Prop where
  level_first : ∀ x, level (s.first x) = leaves x
  level_add : ∀ b x, level (s.add b x) = leaves x
  leaves_filler : ∀ c f, Filler c f → leaves f = c
  covers_first : ∀ x, Covers (s.first x) (s.first x)
  covers_add : ∀ b b' x, Covers b b' → Covers (s.add b x) (s.add b' x)
  covers_filler : ∀ b b' f, Covers b b' → Filler (level b') f → Covers b (s.add b' f)
  covers_flat : ∀ c b x, Valid x → Flat c b → Covers (s.first x) (s.add b x)
  flat_first : ∀ c f, Filler c f → Flat c (s.first f)
  flat_add : ∀ c b f, Flat c b → Filler c f → Flat c (s.add b f)

/-- The second list is the first one with fillers, after an item. Between two items of
one bucket the fillers are of that bucket. -/
inductive Stuffed (s : Scheme α κ β) (leaves : α → γ) (Filler : γ → α → Prop) : α → List α → List α → Prop
  | nil (p : α) : Stuffed s leaves Filler p [] []
  | cons {p x : α} {fillers xs ys : List α} (all : ∀ f ∈ fillers, Filler (leaves p) f)
      (inside : s.key x = s.key p → ∀ f ∈ fillers, s.key f = s.key p) (rest : Stuffed s leaves Filler x xs ys) :
      Stuffed s leaves Filler p (x :: xs) (fillers ++ x :: ys)

/-- The second buckets are fuller ones with the keys of the first, in their order, and
flat ones between them. -/
inductive Filled (level : β → γ) (Covers : β → β → Prop) (Flat : γ → β → Prop) :
    γ → List (κ × β) → List (κ × β) → Prop
  | nil (c : γ) : Filled level Covers Flat c [] []
  | both {c : γ} {k : κ} {b b' : β} {n g : List (κ × β)} (covers : Covers b b')
      (rest : Filled level Covers Flat (level b') n g) : Filled level Covers Flat c ((k, b) :: n) ((k, b') :: g)
  | flat {c : γ} {k : κ} {b : β} {n g : List (κ × β)} (flat : Flat c b)
      (rest : Filled level Covers Flat c n g) : Filled level Covers Flat c n ((k, b) :: g)

variable {s : Scheme α κ β} {leaves : α → γ} {level : β → γ} {Filler : γ → α → Prop} {Valid : α → Prop}
  {Covers : β → β → Prop} {Flat : γ → β → Prop}

namespace Filled
variable {c : γ} {n g : List (κ × β)}

/-- Every bucket has a fuller one with its key. -/
theorem covers_of_mem (filled : Filled level Covers Flat c n g) {k : κ} {b : β} (member : (k, b) ∈ n) :
    ∃ b', (k, b') ∈ g ∧ Covers b b' := by
  induction filled with
  | nil c => cases member
  | both covers rest ih =>
    rcases List.mem_cons.mp member with first | later
    · cases first
      exact ⟨_, List.mem_cons_self, covers⟩
    · obtain ⟨b', among, fuller⟩ := ih later
      exact ⟨b', List.mem_cons_of_mem _ among, fuller⟩
  | flat flat rest ih =>
    obtain ⟨b', among, fuller⟩ := ih member
    exact ⟨b', List.mem_cons_of_mem _ among, fuller⟩

/-- Every other bucket repeats the one before it. -/
theorem flat_of_not_mem (level_flat : ∀ c b, Flat c b → level b = c) (filled : Filled level Covers Flat c n g)
    {before after : List (κ × β)} {k : κ} {b : β} (split : g = before ++ (k, b) :: after) (other : k ∉ n.map Prod.fst) :
    Flat ((before.getLast?.map fun bucket => level bucket.2).getD c) b := by
  induction filled generalizing before with
  | nil c => simp at split
  | @both c k' b₁ b₂ n g covers rest ih =>
    cases before with
    | nil =>
      cases split
      simp at other
    | cons bucket before =>
      cases split
      have later := ih rfl fun member => other (List.mem_cons_of_mem _ member)
      cases before with
      | nil => exact later
      | cons bucket before =>
        have found := List.getLast?_eq_some_getLast (List.cons_ne_nil bucket before)
        rw [found] at later
        rw [List.getLast?_cons_cons, found]
        exact later
  | @flat c k' b₁ n g flat rest ih =>
    cases before with
    | nil =>
      cases split
      exact flat
    | cons bucket before =>
      cases split
      have later := ih rfl other
      cases before with
      | nil => simpa [level_flat _ _ flat] using later
      | cons bucket before => simpa [List.getLast?_cons_cons] using later

end Filled

/-! ## The two runs -/

section Run
variable [DecidableEq κ] {x : α} {xs ys : List α}

/-- From an open bucket of the item `x` the runs of what follows it are filled. -/
def After (s : Scheme α κ β) (leaves : α → γ) (level : β → γ) (Covers : β → β → Prop) (Flat : γ → β → Prop)
    (x : α) (xs ys : List α) : Prop :=
  ∀ b b' c, Covers b b' → level b' = leaves x →
    Filled level Covers Flat c (s.bucketsFrom (s.key x) b xs) (s.bucketsFrom (s.key x) b' ys)

/-- Fillers and the next item, while a flat bucket is open. -/
theorem After.flat (after : After s leaves level Covers Flat x xs ys)
    (fills : Fills s leaves level Filler Valid Covers Flat) (valid : Valid x) {c : γ} {fillers : List α}
    (all : ∀ f ∈ fillers, Filler c f) (k : κ) {b : β} (flat : Flat c b) :
    Filled level Covers Flat c (s.bucketsFrom (s.key x) (s.first x) xs) (s.bucketsFrom k b (fillers ++ x :: ys)) := by
  induction fillers generalizing k b with
  | nil =>
    rw [List.nil_append]
    by_cases same : s.key x = k
    · rw [s.bucketsFrom_same same, ← same]
      exact after _ _ _ (fills.covers_flat _ _ _ valid flat) (fills.level_add _ _)
    · rw [s.bucketsFrom_other same]
      exact .flat flat (after _ _ _ (fills.covers_first x) (fills.level_first x))
  | cons f fillers ih =>
    rw [List.forall_mem_cons] at all
    rw [List.cons_append]
    by_cases same : s.key f = k
    · rw [s.bucketsFrom_same same]
      exact ih all.2 k (fills.flat_add _ _ _ flat all.1)
    · rw [s.bucketsFrom_other same]
      exact .flat flat (ih all.2 (s.key f) (fills.flat_first _ _ all.1))

/-- Fillers and the next item, while a bucket of the items is open. -/
theorem After.open (after : After s leaves level Covers Flat x xs ys)
    (fills : Fills s leaves level Filler Valid Covers Flat) (valid : Valid x) {k : κ} {fillers : List α} {b b' : β}
    (all : ∀ f ∈ fillers, Filler (level b') f) (inside : s.key x = k → ∀ f ∈ fillers, s.key f = k)
    (covers : Covers b b') (c : γ) :
    Filled level Covers Flat c (s.bucketsFrom k b (x :: xs)) (s.bucketsFrom k b' (fillers ++ x :: ys)) := by
  induction fillers generalizing b' with
  | nil =>
    rw [List.nil_append]
    by_cases same : s.key x = k
    · rw [s.bucketsFrom_same same, s.bucketsFrom_same same, ← same]
      exact after _ _ _ (fills.covers_add _ _ _ covers) (fills.level_add _ _)
    · rw [s.bucketsFrom_other same, s.bucketsFrom_other same]
      exact .both covers (after _ _ _ (fills.covers_first x) (fills.level_first x))
  | cons f fillers ih =>
    rw [List.forall_mem_cons] at all
    rw [List.cons_append]
    by_cases same : s.key f = k
    · rw [s.bucketsFrom_same same]
      apply ih
      · rw [fills.level_add, fills.leaves_filler _ _ all.1]
        exact all.2
      · exact fun own g member => inside own g (List.mem_cons_of_mem _ member)
      · exact fills.covers_filler _ _ _ covers all.1
    · -- The fillers leave the bucket, so the next item does.
      have other : s.key x ≠ k := fun own => same (inside own f List.mem_cons_self)
      rw [s.bucketsFrom_other same, s.bucketsFrom_other other]
      exact .both covers (after.flat fills valid all.2 (s.key f) (fills.flat_first _ _ all.1))

/-- **Fillers** leave the buckets of the items, fuller, and add flat ones. -/
theorem Stuffed.after (fills : Fills s leaves level Filler Valid Covers Flat) {p : α}
    (stuffed : Stuffed s leaves Filler p xs ys) (valid : ∀ x ∈ xs, Valid x) : After s leaves level Covers Flat p xs ys := by
  induction stuffed with
  | nil p =>
    intro b b' c covers _
    exact .both covers (.nil _)
  | cons all inside rest ih =>
    intro b b' c covers same
    rw [List.forall_mem_cons] at valid
    rw [← same] at all
    exact (ih valid.2).open fills valid.1 all inside covers c

end Run

end Buckets
