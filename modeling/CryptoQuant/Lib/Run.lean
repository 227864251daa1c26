import Mathlib.Data.List.Induction

/-!
# Runs

Two ways a program consumes a list of inputs, and the induction rules for
both. A fallible step (`List.foldlM` in `Except`) stops at the first error; a
`Machine` answers every call, an error being one of its answers, and keeps its
state. The rules carry the inputs consumed so far, so an invariant may speak
about the history of the run.
-/

namespace Run
set_option autoImplicit false

section Fallible
variable {σ ι ε α β : Type} {step : σ → ι → Except ε σ}

/-- A sequence of two fallible computations succeeds when both do. -/
theorem bind_ok {x : Except ε α} {f : α → Except ε β} {b : β} :
    (x >>= f) = .ok b ↔ ∃ a, x = .ok a ∧ f a = .ok b := by
  cases x with
  | error e => exact ⟨nofun, fun ⟨_, h, _⟩ => nomatch h⟩
  | ok a => exact ⟨fun h => ⟨a, rfl, h⟩, fun ⟨_, h, e⟩ => by cases h; exact e⟩

/-- The computation succeeds, with a result that passes a test. -/
def endsIn (x : Except ε α) (test : α → Bool) : Bool :=
  match x with
  | .ok a => test a
  | .error _ => false

theorem endsIn_iff {x : Except ε α} {test : α → Bool} :
    endsIn x test = true ↔ ∃ a, x = .ok a ∧ test a = true := by
  cases x with
  | error e => exact ⟨nofun, fun ⟨_, h, _⟩ => nomatch h⟩
  | ok a => exact ⟨fun h => ⟨a, rfl, h⟩, fun ⟨_, h, passes⟩ => by cases h; exact passes⟩

/-- Where a list is mapped without failing, its items are, one by one. -/
theorem forall₂_of_mapM {f : α → Except ε β} {items : List α} {results : List β} (mapped : items.mapM f = .ok results) :
    List.Forall₂ (fun item result => f item = .ok result) items results := by
  induction items generalizing results with
  | nil =>
    cases mapped
    exact .nil
  | cons item items ih =>
    rw [List.mapM_cons] at mapped
    obtain ⟨first, here, rest⟩ := bind_ok.mp mapped
    obtain ⟨others, later, done⟩ := bind_ok.mp rest
    cases done
    exact .cons here (ih later)

/-- Where a list is mapped without failing, every item is, and nothing else. -/
theorem forall_of_mapM {f : α → Except ε β} {items : List α} {results : List β} (mapped : items.mapM f = .ok results) :
    (∀ item ∈ items, ∃ result ∈ results, f item = .ok result) ∧ ∀ result ∈ results, ∃ item ∈ items, f item = .ok result := by
  have pairs := forall₂_of_mapM mapped
  clear mapped
  induction pairs with
  | nil => exact ⟨by simp, by simp⟩
  | cons here _ ih =>
    obtain ⟨forward, backward⟩ := ih
    constructor
    · rintro i (_ | ⟨_, member⟩)
      · exact ⟨_, List.mem_cons_self, here⟩
      · obtain ⟨result, among, maps⟩ := forward i member
        exact ⟨result, List.mem_cons_of_mem _ among, maps⟩
    · rintro r (_ | ⟨_, member⟩)
      · exact ⟨_, List.mem_cons_self, here⟩
      · obtain ⟨i, among, maps⟩ := backward r member
        exact ⟨i, List.mem_cons_of_mem _ among, maps⟩

/-- Where every item maps, the list does. -/
theorem mapM_of_forall {f : α → Except ε β} {items : List α} (each : ∀ item ∈ items, ∃ result, f item = .ok result) :
    ∃ results, items.mapM f = .ok results := by
  induction items with
  | nil => exact ⟨[], rfl⟩
  | cons item items ih =>
    obtain ⟨first, here⟩ := each item List.mem_cons_self
    obtain ⟨others, later⟩ := ih fun i member => each i (List.mem_cons_of_mem _ member)
    refine ⟨first :: others, ?_⟩
    rw [List.mapM_cons]
    exact bind_ok.mpr ⟨first, here, bind_ok.mpr ⟨others, later, rfl⟩⟩

/-- A map that does not fail is the map of its results. -/
theorem mapM_eq_map {f : α → Except ε β} {g : α → β} {items : List α} (each : ∀ item ∈ items, f item = .ok (g item)) :
    items.mapM f = .ok (items.map g) := by
  induction items with
  | nil => rfl
  | cons item items ih =>
    rw [List.mapM_cons, each item List.mem_cons_self, ih fun i member => each i (List.mem_cons_of_mem _ member)]
    rfl

/-- A part of the items maps to the part of the results, where both are told by one test. -/
theorem mapM_filter {f : α → Except ε β} {p : α → Bool} {q : β → Bool} {items : List α} {results : List β}
    (agree : ∀ item result, f item = .ok result → p item = q result) (mapped : items.mapM f = .ok results) :
    (items.filter p).mapM f = .ok (results.filter q) := by
  have pairs := forall₂_of_mapM mapped
  clear mapped
  induction pairs with
  | nil => rfl
  | cons here _ ih =>
    rw [List.filter_cons, List.filter_cons, agree _ _ here]
    split
    · rw [List.mapM_cons, here, ih]
      rfl
    · exact ih

theorem foldlM_cons_ok {s s' : σ} {i : ι} {is : List ι} :
    (i :: is).foldlM step s = .ok s' ↔ ∃ t, step s i = .ok t ∧ is.foldlM step t = .ok s' := by
  rw [List.foldlM_cons, bind_ok]

theorem foldlM_append_ok {s s' : σ} {is js : List ι} :
    (is ++ js).foldlM step s = .ok s' ↔ ∃ t, is.foldlM step s = .ok t ∧ js.foldlM step t = .ok s' := by
  rw [List.foldlM_append, bind_ok]

/-- A loop within a loop is one loop over all their items. -/
theorem foldlM_flatMap {κ : Type} (l : List κ) (f : κ → List ι) (s : σ) :
    (l.flatMap f).foldlM step s = l.foldlM (fun s a => (f a).foldlM step s) s := by
  induction l generalizing s with
  | nil => rfl
  | cons a l ih =>
    rw [List.flatMap_cons, List.foldlM_append, List.foldlM_cons]
    exact bind_congr fun t => ih t

/-- The number of an item of a numbered list is the number of items before it. -/
theorem number_of_split {l : List ι} {k : ℕ} {done rest : List (ι × ℕ)} {item : ι × ℕ} (split : l.zipIdx k = done ++ item :: rest) :
    item.2 = done.length + k := by
  have here : (l.zipIdx k)[done.length]? = some item := by
    rw [split, List.getElem?_append_right (Nat.le_refl _), Nat.sub_self]
    rfl
  rw [List.getElem?_zipIdx, Option.map_eq_some_iff] at here
  obtain ⟨i, -, rfl⟩ := here
  exact Nat.add_comm k done.length

theorem foldlM_snoc_ok {s s' : σ} {is : List ι} {i : ι} :
    (is ++ [i]).foldlM step s = .ok s' ↔ ∃ t, is.foldlM step s = .ok t ∧ step t i = .ok s' := by
  rw [foldlM_append_ok]
  refine exists_congr fun t => and_congr_right fun _ => ?_
  rw [foldlM_cons_ok]
  exact ⟨fun ⟨u, h, e⟩ => by cases e; exact h, fun h => ⟨s', h, rfl⟩⟩

/-- Steps that agree on the inputs give the same run. -/
theorem foldlM_congr {step' : σ → ι → Except ε σ} {is : List ι} (agree : ∀ i ∈ is, ∀ s, step s i = step' s i) (s : σ) :
    is.foldlM step s = is.foldlM step' s := by
  induction is generalizing s with
  | nil => rfl
  | cons i is ih =>
    rw [List.foldlM_cons, List.foldlM_cons, agree i List.mem_cons_self]
    exact bind_congr fun t => ih (fun j member => agree j (List.mem_cons_of_mem i member)) t

/-- **Check rule.** Where a step fails by its input alone, a run fails with the first of its inputs that
fails, or else is a fold. -/
theorem foldlM_checked {check : ι → Option ε} {next : σ → ι → σ}
    (checked : ∀ s i, step s i = (check i).elim (.ok (next s i)) .error) (s : σ) (is : List ι) :
    is.foldlM step s = (is.findSome? check).elim (.ok (is.foldl next s)) .error := by
  induction is generalizing s with
  | nil => rfl
  | cons i is ih =>
    rw [List.foldlM_cons, checked, List.findSome?_cons]
    cases check i with
    | some e => rfl
    | none => exact ih (next s i)

/-- A successful run has a state before each of its inputs, reached by the
inputs before it. -/
theorem state_before {s s' : σ} {before after : List ι} {i : ι}
    (run : (before ++ i :: after).foldlM step s = .ok s') :
    ∃ t u, before.foldlM step s = .ok t ∧ step t i = .ok u ∧
      (before ++ [i]).foldlM step s = .ok u ∧ after.foldlM step u = .ok s' := by
  obtain ⟨t, ht, rest⟩ := foldlM_append_ok.mp run
  obtain ⟨u, hu, rest⟩ := foldlM_cons_ok.mp rest
  exact ⟨t, u, ht, hu, foldlM_snoc_ok.mpr ⟨t, ht, hu⟩, rest⟩

/-- **Prefix rule.** What holds of no inputs and is kept by each input of a list holds of
every initial part of it. -/
theorem prefixes {P : List ι → Prop} {all : List ι} (base : P [])
    (keep : ∀ done i rest, all = done ++ i :: rest → P done → P (done ++ [i])) :
    ∀ {done rest : List ι}, all = done ++ rest → P done := by
  intro done
  induction done using List.reverseRecOn with
  | nil => exact fun _ => base
  | append_singleton done i ih =>
    intro rest split
    have split' : all = done ++ i :: rest := by rw [split, List.append_assoc]; rfl
    exact keep done i rest split' (ih split')

/-- **Invariant rule.** What holds at the start and is kept by every
successful step of the run holds at its end. -/
theorem invariant {P : List ι → σ → Prop} {s : σ} {all : List ι} (base : P [] s)
    (keep : ∀ done i rest t u, all = done ++ i :: rest → P done t → step t i = .ok u → P (done ++ [i]) u) :
    ∀ {done rest : List ι} {t : σ}, all = done ++ rest → done.foldlM step s = .ok t → P done t := by
  intro done rest t split
  refine prefixes (P := fun done => ∀ t, done.foldlM step s = .ok t → P done t) ?_ ?_ split t
  · rintro t ⟨⟩
    exact base
  · intro done i rest split ih t run
    obtain ⟨u, before, last⟩ := foldlM_snoc_ok.mp run
    exact keep done i rest u t split (ih u before) last

/-- **Progress rule.** If every step of the run succeeds from a state with the
invariant and keeps it, the whole run succeeds. -/
theorem progress {P : List ι → σ → Prop} {s : σ} {all : List ι} (base : P [] s)
    (go : ∀ done i rest t, all = done ++ i :: rest → P done t → ∃ u, step t i = .ok u ∧ P (done ++ [i]) u) :
    ∀ {done rest : List ι}, all = done ++ rest → ∃ t, done.foldlM step s = .ok t ∧ P done t := by
  refine prefixes (P := fun done => ∃ t, done.foldlM step s = .ok t ∧ P done t) ⟨s, rfl, base⟩ ?_
  rintro done i rest split ⟨t, run, holds⟩
  obtain ⟨u, last, holds'⟩ := go done i rest t split holds
  exact ⟨u, foldlM_snoc_ok.mpr ⟨t, run, last⟩, holds'⟩

end Fallible

/-- **Frame rule.** What every step keeps, the fold keeps. -/
theorem foldl_frame {σ ι α : Type} {step : σ → ι → σ} (f : σ → α) (keep : ∀ s i, f (step s i) = f s)
    (s : σ) (is : List ι) : f (is.foldl step s) = f s := by
  induction is generalizing s with
  | nil => rfl
  | cons i is ih => rw [List.foldl_cons, ih, keep]

/-- What holds at the start and is kept by every step of the fold holds at its end. -/
theorem foldl_invariant {σ ι : Type} {step : σ → ι → σ} {P : σ → Prop} {is : List ι}
    (keep : ∀ s, ∀ i ∈ is, P s → P (step s i)) {s : σ} (base : P s) : P (is.foldl step s) :=
  List.foldlRecOn is step base fun s h i member => keep s i member h

/-- A component that answers every call: from a state and an input, an output
and the next state. -/
structure Machine (σ ι ο : Type) where
  call : σ → ι → ο × σ

namespace Machine
variable {σ ι ο : Type} (M : Machine σ ι ο)

/-- The state after a call. -/
def next (s : σ) (i : ι) : σ := (M.call s i).2

/-- The answer of a call. -/
def answer (s : σ) (i : ι) : ο := (M.call s i).1

/-- The state after a list of calls. -/
def after (s : σ) (is : List ι) : σ := is.foldl M.next s

@[simp] theorem after_cons (s : σ) (i : ι) (is : List ι) :
    M.after s (i :: is) = M.after (M.next s i) is := rfl

theorem after_append (s : σ) (is js : List ι) : M.after s (is ++ js) = M.after (M.after s is) js :=
  List.foldl_append

@[simp] theorem after_snoc (s : σ) (is : List ι) (i : ι) :
    M.after s (is ++ [i]) = M.next (M.after s is) i := by
  rw [after_append]; rfl

/-- **Invariant rule.** What holds at the start and is kept by every call of
the run, given the calls before it, holds after every prefix of the run. -/
theorem invariant {P : List ι → σ → Prop} {s : σ} {all : List ι} (base : P [] s)
    (keep : ∀ done i rest t, all = done ++ i :: rest → t = M.after s done → P done t →
      P (done ++ [i]) (M.next t i)) :
    ∀ {done rest : List ι}, all = done ++ rest → P done (M.after s done) := by
  refine prefixes (P := fun done => P done (M.after s done)) base ?_
  intro done i rest split holds
  rw [after_snoc]
  exact keep done i rest _ split rfl holds

/-- The invariant rule for a property of the state alone. -/
theorem always {P : σ → Prop} {s : σ} (base : P s) (keep : ∀ t i, P t → P (M.next t i)) (is : List ι) :
    P (M.after s is) :=
  M.invariant (P := fun _ => P) base (fun _ i _ t _ _ h => keep t i h) (List.append_nil is).symm

/-- **Simulation rule.** Two machines that are driven by the same commands, each in its
own calls, stay in related states. -/
theorem simulation {τ κ π α : Type} (N : Machine τ κ π) {R : σ → τ → Prop} (f : α → ι) (g : α → κ) {s : σ} {t : τ}
    (start : R s t) {commands : List α} (keep : ∀ s t, ∀ a ∈ commands, R s t → R (M.next s (f a)) (N.next t (g a))) :
    R (M.after s (commands.map f)) (N.after t (commands.map g)) := by
  induction commands generalizing s t with
  | nil => exact start
  | cons a rest ih =>
    exact ih (keep s t a List.mem_cons_self start) fun s t b member => keep s t b (List.mem_cons_of_mem _ member)

/-- **Exactness rule.** A property that harmless calls keep and the others, those of
`H`, break in the states a run can be in, those of `R`, holds along a run exactly
when all its calls are harmless. -/
theorem along_iff_of {P R : σ → Prop} {H : σ → ι → Prop} {s : σ} (base : P s)
    (reached : ∀ is, R (M.after s is)) (keep : ∀ t i, R t → P t → ¬ H t i → P (M.next t i))
    (breaks : ∀ t i, R t → P t → H t i → ¬ P (M.next t i)) (all : List ι) :
    (∀ done rest, all = done ++ rest → P (M.after s done)) ↔
      ∀ done i rest, all = done ++ i :: rest → ¬ H (M.after s done) i := by
  constructor
  · intro holds done i rest split harms
    have after := holds (done ++ [i]) rest (by rw [split, List.append_assoc]; rfl)
    rw [after_snoc] at after
    exact breaks _ i (reached done) (holds done (i :: rest) split) harms after
  · intro harmless done rest split
    refine M.invariant (P := fun _ => P) base ?_ split
    rintro done i rest t cut rfl h
    exact keep _ i (reached done) h (harmless done i rest cut)

/-- The exactness rule for calls that break the property in any state. -/
theorem along_iff {P R : σ → Prop} {H : σ → ι → Prop} {s : σ} (base : P s)
    (reached : ∀ is, R (M.after s is)) (keep : ∀ t i, P t → ¬ H t i → P (M.next t i))
    (breaks : ∀ t i, R t → H t i → ¬ P (M.next t i)) (all : List ι) :
    (∀ done rest, all = done ++ rest → P (M.after s done)) ↔
      ∀ done i rest, all = done ++ i :: rest → ¬ H (M.after s done) i :=
  M.along_iff_of base reached (fun t i _ => keep t i) (fun t i r _ => breaks t i r) all

/-- The condition shows at the last call of a run; before the first call it does
not. -/
def shownLast (shows : σ → ι → Bool) (s : σ) (is : List ι) : Bool :=
  is.getLast?.any fun i => shows (M.after s is.dropLast) i

@[simp] theorem shownLast_nil (shows : σ → ι → Bool) (s : σ) : M.shownLast shows s [] = false := rfl

@[simp] theorem shownLast_snoc (shows : σ → ι → Bool) (s : σ) (is : List ι) (i : ι) :
    M.shownLast shows s (is ++ [i]) = shows (M.after s is) i := by
  simp [shownLast]

/-- **Edge rule.** A flag that starts down and that every call of the run sets to
its condition tells whether the condition showed at the last call: what a call
signals when it shows and the flag is down are the rising edges. -/
theorem flag_eq_shownLast {flag : σ → Bool} {shows : σ → ι → Bool} {s : σ} {all : List ι}
    (base : flag s = false)
    (refresh : ∀ done i rest, all = done ++ i :: rest → flag (M.next (M.after s done) i) = shows (M.after s done) i) :
    ∀ {done rest : List ι}, all = done ++ rest → flag (M.after s done) = M.shownLast shows s done := by
  intro done rest split
  rcases List.eq_nil_or_concat done with rfl | ⟨init, i, rfl⟩
  · exact base
  · rw [List.concat_eq_append] at split ⊢
    rw [after_snoc, shownLast_snoc]
    exact refresh init i rest (by rw [split, List.append_assoc]; rfl)

/-- In the run a call has turned something on, and no call after it has turned it off. -/
def Since (on off : σ → ι → Prop) (s : σ) (is : List ι) : Prop :=
  ∃ before i later, is = before ++ i :: later ∧ on (M.after s before) i ∧
    ∀ done j rest, later = done ++ j :: rest → ¬ off (M.after s (before ++ i :: done)) j

theorem since_nil (on off : σ → ι → Prop) (s : σ) : ¬ M.Since on off s [] := by
  rintro ⟨before, i, later, split, -⟩
  exact absurd split (by simp)

theorem since_snoc (on off : σ → ι → Prop) (s : σ) (is : List ι) (i : ι) :
    M.Since on off s (is ++ [i]) ↔ on (M.after s is) i ∨ M.Since on off s is ∧ ¬ off (M.after s is) i := by
  constructor
  · rintro ⟨before, k, later, split, turned, kept⟩
    rcases List.eq_nil_or_concat later with rfl | ⟨init, j, rfl⟩
    · obtain ⟨rfl, same⟩ := List.append_inj' split rfl
      obtain rfl := List.singleton_inj.mp same
      exact .inl turned
    · rw [List.concat_eq_append, ← List.cons_append, ← List.append_assoc] at split
      obtain ⟨rfl, same⟩ := List.append_inj' split rfl
      obtain rfl := List.singleton_inj.mp same
      refine .inr ⟨⟨before, k, init, rfl, turned, fun done j' rest cut => ?_⟩, ?_⟩
      · exact kept done j' (rest ++ [i]) (by rw [cut]; simp)
      · exact kept init i [] (by simp)
  · rintro (turned | ⟨⟨before, k, later, rfl, turned, kept⟩, stays⟩)
    · exact ⟨is, i, [], rfl, turned, fun done j rest cut => absurd cut (by simp)⟩
    · refine ⟨before, k, later ++ [i], by simp, turned, fun done j rest cut => ?_⟩
      rcases List.eq_nil_or_concat rest with rfl | ⟨init, j', rfl⟩
      · obtain ⟨rfl, same⟩ := List.append_inj' cut rfl
        obtain rfl := List.singleton_inj.mp same
        exact stays
      · rw [List.concat_eq_append, ← List.cons_append, ← List.append_assoc] at cut
        obtain ⟨rfl, -⟩ := List.append_inj' cut rfl
        exact kept done j init rfl

/-- **Latch rule.** What is down at the start, goes up with the calls that turn it on, down with those that
turn it off, and is kept by the others, is up exactly since the last call that turned it on. -/
theorem latch {P : σ → Prop} {on off : σ → ι → Prop} {s : σ} {all : List ι} (base : ¬ P s)
    (keep : ∀ done i rest, all = done ++ i :: rest →
      (P (M.next (M.after s done) i) ↔ on (M.after s done) i ∨ P (M.after s done) ∧ ¬ off (M.after s done) i)) :
    ∀ {done rest : List ι}, all = done ++ rest → (P (M.after s done) ↔ M.Since on off s done) := by
  refine prefixes (P := fun done => P (M.after s done) ↔ M.Since on off s done) ?_ ?_
  · exact ⟨fun h => absurd h base, fun h => absurd h (M.since_nil on off s)⟩
  · intro done i rest split ih
    rw [after_snoc, keep done i rest split, ih, since_snoc]

/-- **Register rule.** What a call sets or leaves as it is holds what was set last. -/
theorem register {α : Type} {f : σ → α} {sets : ι → Option α} (keep : ∀ s i, f (M.next s i) = (sets i).getD (f s))
    (s : σ) (is : List ι) : f (M.after s is) = (is.reverse.findSome? sets).getD (f s) := by
  induction is using List.reverseRecOn with
  | nil => rfl
  | append_singleton is i ih =>
    rw [after_snoc, keep, List.reverse_append, List.reverse_singleton, List.singleton_append, List.findSome?_cons]
    cases sets i with
    | none => exact ih
    | some a => rfl

/-- The answers of a run. -/
def answers (M : Machine σ ι ο) (s : σ) : List ι → List ο
  | [] => []
  | i :: is => M.answer s i :: answers M (M.next s i) is

@[simp] theorem answers_snoc (s : σ) (is : List ι) (i : ι) :
    M.answers s (is ++ [i]) = M.answers s is ++ [M.answer (M.after s is) i] := by
  induction is generalizing s with
  | nil => rfl
  | cons j is ih => simp [answers, ih]

/-- The calls of a run whose answers are kept. -/
def kept (M : Machine σ ι ο) (keeps : ο → Bool) (s : σ) : List ι → List ι
  | [] => []
  | i :: is => if keeps (M.answer s i) then i :: kept M keeps (M.next s i) is else kept M keeps (M.next s i) is

@[simp] theorem kept_nil (keeps : ο → Bool) (s : σ) : M.kept keeps s [] = [] := rfl

@[simp] theorem kept_snoc (keeps : ο → Bool) (s : σ) (is : List ι) (i : ι) :
    M.kept keeps s (is ++ [i]) =
      if keeps (M.answer (M.after s is) i) then M.kept keeps s is ++ [i] else M.kept keeps s is := by
  induction is generalizing s with
  | nil => rfl
  | cons j is ih =>
    rw [List.cons_append, kept, ih, after_cons]
    cases head : keeps (M.answer s j) with
    | true =>
      rw [kept, head, if_pos rfl, if_pos rfl]
      split <;> rfl
    | false =>
      rw [kept, head]
      rfl

end Machine

/-- **Step by step.** Two properties of the steps of a run that agree where the
invariant holds, one of which keeps it, hold at every step of the same runs. -/
theorem each_iff {ι : Type} {P : List ι → Prop} {A B : List ι → ι → Prop} {all : List ι} (base : P [])
    (agree : ∀ done i rest, all = done ++ i :: rest → P done → (A done i ↔ B done i))
    (keep : ∀ done i rest, all = done ++ i :: rest → P done → B done i → P (done ++ [i])) :
    (∀ done i rest, all = done ++ i :: rest → A done i) ↔ ∀ done i rest, all = done ++ i :: rest → B done i := by
  have reach (holds : ∀ done i rest, all = done ++ i :: rest → P done → B done i) :
      ∀ done rest, all = done ++ rest → P done :=
    fun _ _ => prefixes base fun done i rest split before => keep done i rest split before (holds done i rest split before)
  constructor
  · intro all_ done i rest split
    have before := reach (fun done i rest split p => (agree done i rest split p).mp (all_ done i rest split))
      done (i :: rest) split
    exact (agree done i rest split before).mp (all_ done i rest split)
  · intro all_ done i rest split
    have before := reach (fun done i rest split _ => all_ done i rest split) done (i :: rest) split
    exact (agree done i rest split before).mpr (all_ done i rest split)

end Run
