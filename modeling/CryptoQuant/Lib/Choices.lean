import Mathlib.Data.Set.Basic
import Mathlib.Data.List.Induction

/-!
# Checks of independent choices

A list of checks, each of which reads one named value and may fail. The first failure is the
outcome. When every name has a set of values and these are chosen independently, the outcome
is the same for all choices only if no value fails, or if there is a name of which every
value fails, with one error, before any other value fails with another one.
-/

namespace Choices
set_option autoImplicit false

variable {κ α ε : Type}

/-- A check: the name it reads, and the error it makes of a value. -/
structure Check (κ α ε : Type) where
  name : κ
  error : α → Option ε

/-- The first error of the checks of chosen values. -/
def failure (checks : List (Check κ α ε)) (choice : κ → α) : Option ε :=
  checks.findSome? fun check => check.error (choice check.name)

/-- A choice of a value for every name. -/
def Chooses (values : κ → Set α) (choice : κ → α) : Prop := ∀ name, choice name ∈ values name

section First
variable {checks more : List (Check κ α ε)} {choice : κ → α}

theorem failure_cons (check : Check κ α ε) :
    failure (check :: checks) choice = (check.error (choice check.name)).or (failure checks choice) := by
  rw [failure, List.findSome?_cons]
  cases check.error (choice check.name) with
  | none => rfl
  | some e => rfl

theorem failure_append : failure (checks ++ more) choice = (failure checks choice).or (failure more choice) :=
  List.findSome?_append

/-- What fails in a part of the checks fails. -/
theorem failure_of_part {part : List (Check κ α ε)} {e : ε} (extends_ : part <+: checks) (fails : failure part choice = some e) :
    failure checks choice = some e := by
  obtain ⟨rest, rfl⟩ := extends_
  rw [failure_append, fails, Option.some_or]

end First

variable [DecidableEq κ]

/-- The first error that a value of one name meets. -/
def own (checks : List (Check κ α ε)) (name : κ) (value : α) : Option ε :=
  checks.findSome? fun check => if check.name = name then check.error value else none

section Failure
variable {checks more : List (Check κ α ε)} {choice : κ → α} {name : κ} {value : α} {e : ε}

theorem own_cons (check : Check κ α ε) :
    own (check :: checks) name value =
      if check.name = name then (check.error value).or (own checks name value) else own checks name value := by
  rw [own, List.findSome?_cons]
  by_cases mine : check.name = name
  · rw [if_pos mine, if_pos mine]
    cases check.error value with
    | none => rfl
    | some e => rfl
  · rw [if_neg mine, if_neg mine]
    rfl

theorem own_append : own (checks ++ more) name value = (own checks name value).or (own more name value) :=
  List.findSome?_append

/-- A failure is the first error of one of the values. -/
theorem own_of_failure (fails : failure checks choice = some e) : ∃ name, own checks name (choice name) = some e := by
  induction checks with
  | nil => cases fails
  | cons check checks ih =>
    rw [failure_cons] at fails
    cases error : check.error (choice check.name) with
    | some e' =>
      rw [error] at fails
      exact ⟨check.name, by rw [own_cons, if_pos rfl, error]; exact fails⟩
    | none =>
      rw [error] at fails
      obtain ⟨name, errs⟩ := ih fails
      refine ⟨name, ?_⟩
      rw [own_cons]
      split
      · rename_i mine
        rw [← mine, error, mine]
        exact errs
      · exact errs

/-- Where one value fails, the checks do. -/
theorem failure_ne_none (errs : own checks name (choice name) ≠ none) : failure checks choice ≠ none := by
  intro passes
  refine errs (List.findSome?_eq_none_iff.mpr fun check member => ?_)
  split
  · rename_i mine
    rw [← mine]
    exact List.findSome?_eq_none_iff.mp passes check member
  · rfl

/-- Where no other value fails, the failure is that of one name. -/
theorem failure_of_others (name : κ) (others : ∀ other, other ≠ name → own checks other (choice other) = none) :
    failure checks choice = own checks name (choice name) := by
  cases fails : failure checks choice with
  | none =>
    by_contra errs
    exact failure_ne_none (Ne.symm errs) fails
  | some e =>
    obtain ⟨other, errs⟩ := own_of_failure fails
    by_cases same : other = name
    · rw [← same, errs]
    · rw [others other same] at errs
      cases errs

end Failure

section Constant
variable {checks : List (Check κ α ε)} {values : κ → Set α} {e : ε}

/-- Choosing another value for one name. -/
theorem Chooses.update {choice : κ → α} (chooses : Chooses values choice) {name : κ} {value : α} (among : value ∈ values name) :
    Chooses values (Function.update choice name value) := by
  intro other
  by_cases here : other = name
  · rw [here, Function.update_self]
    exact among
  · rw [Function.update_of_ne here]
    exact chooses other

/-- No choice fails exactly when no value does. -/
theorem none_iff (inhabited : ∀ name, (values name).Nonempty) :
    (∀ choice, Chooses values choice → failure checks choice = none) ↔
      ∀ check ∈ checks, ∀ value ∈ values check.name, check.error value = none := by
  constructor
  · intro passes check member value among
    choose choice chooses using inhabited
    have error := List.findSome?_eq_none_iff.mp (passes _ (Chooses.update chooses among)) check member
    rwa [Function.update_self] at error
  · intro passes choice chooses
    exact List.findSome?_eq_none_iff.mpr fun check member => passes check member _ (chooses check.name)

/-- From some part of the checks on, a name fails whatever its value, with this error, and
no value fails with another error in this part. -/
def Forced (values : κ → Set α) (checks : List (Check κ α ε)) (e : ε) : Prop :=
  ∃ part, part <+: checks ∧ ∃ name, (∀ value ∈ values name, own part name value = some e) ∧
    ∀ other, ∀ value ∈ values other, own part other value = none ∨ own part other value = some e

theorem Forced.failure (forced : Forced values checks e) {choice : κ → α} (chooses : Chooses values choice) :
    failure checks choice = some e := by
  obtain ⟨part, ⟨rest, rfl⟩, name, fails, same⟩ := forced
  have errs : own part name (choice name) ≠ none := by
    rw [fails _ (chooses name)]
    exact Option.some_ne_none e
  obtain ⟨e', failed⟩ := Option.ne_none_iff_exists'.mp (failure_ne_none errs)
  obtain ⟨other, first⟩ := own_of_failure failed
  have equal : e' = e := by
    rcases same other _ (chooses other) with none | some
    · rw [none] at first
      cases first
    · rw [some] at first
      exact (Option.some_inj.mp first).symm
  rw [failure_append, failed, Option.some_or, equal]

/-- One more check concerns the values of its own name. -/
theorem own_snoc_of_ne {check : Check κ α ε} {name : κ} (other : check.name ≠ name) (value : α) :
    own (checks ++ [check]) name value = own checks name value := by
  rw [own_append, own_cons, if_neg other]
  exact Option.or_none

/-- Some choice passes, or there is a first check that leaves its name no value to pass with. -/
theorem passes_or_exhausted (inhabited : ∀ name, (values name).Nonempty) (checks : List (Check κ α ε)) :
    (∃ choice, Chooses values choice ∧ ∀ name, own checks name (choice name) = none) ∨
      ∃ part check, part ++ [check] <+: checks ∧ (∃ choice, Chooses values choice ∧ ∀ name, own part name (choice name) = none) ∧
        ∀ value ∈ values check.name, own (part ++ [check]) check.name value ≠ none := by
  induction checks using List.reverseRecOn with
  | nil =>
    choose choice chooses using inhabited
    exact .inl ⟨choice, chooses, fun name => rfl⟩
  | append_singleton checks check ih =>
    rcases ih with ⟨choice, chooses, passes⟩ | ⟨part, last, extends_, rest⟩
    · by_cases open_ : ∃ value ∈ values check.name, own (checks ++ [check]) check.name value = none
      · obtain ⟨value, among, passing⟩ := open_
        refine .inl ⟨_, chooses.update among, fun name => ?_⟩
        by_cases mine : name = check.name
        · rw [mine, Function.update_self]
          exact passing
        · rw [Function.update_of_ne mine, own_snoc_of_ne (Ne.symm mine)]
          exact passes name
      · refine .inr ⟨checks, check, List.prefix_rfl, ⟨choice, chooses, passes⟩, fun value among none => ?_⟩
        exact open_ ⟨value, among, none⟩
    · exact .inr ⟨part, last, extends_.trans (List.prefix_append _ _), rest⟩

/-- Every choice fails with one error exactly when a part of the checks forces it. -/
theorem some_iff (inhabited : ∀ name, (values name).Nonempty) :
    (∀ choice, Chooses values choice → failure checks choice = some e) ↔ Forced values checks e := by
  refine ⟨fun fails => ?_, fun forced choice => forced.failure⟩
  rcases passes_or_exhausted inhabited checks with ⟨choice, chooses, passes⟩ | ⟨part, check, extends_, ⟨choice, chooses, passes⟩, spent⟩
  · obtain ⟨name, errs⟩ := own_of_failure (fails choice chooses)
    rw [passes name] at errs
    cases errs
  -- with the other names passing, a value of `check.name` decides alone
  have others : ∀ name, name ≠ check.name → own (part ++ [check]) name (choice name) = none := fun name mine => by
    rw [own_snoc_of_ne (Ne.symm mine)]
    exact passes name
  have forced : ∀ value ∈ values check.name, own (part ++ [check]) check.name value = some e := by
    intro value among
    obtain ⟨e', errs⟩ := Option.ne_none_iff_exists'.mp (spent value among)
    have alone : Choices.failure (part ++ [check]) (Function.update choice check.name value) = some e' := by
      rw [failure_of_others check.name, Function.update_self, errs]
      intro name mine
      rw [Function.update_of_ne mine]
      exact others name mine
    rw [errs, ← failure_of_part extends_ alone]
    exact fails _ (chooses.update among)
  refine ⟨part ++ [check], extends_, check.name, forced, fun other value among => ?_⟩
  by_cases mine : other = check.name
  · exact .inr (mine ▸ forced value (mine ▸ among))
  rw [own_snoc_of_ne (Ne.symm mine)]
  cases errs : own part other value with
  | none => exact .inl rfl
  | some e' =>
    have alone : Choices.failure part (Function.update choice other value) = some e' := by
      rw [failure_of_others other, Function.update_self, errs]
      intro name different
      rw [Function.update_of_ne different]
      exact passes name
    have shown := failure_of_part ((List.prefix_append _ _).trans extends_) alone
    rw [fails _ (chooses.update among)] at shown
    exact .inr shown.symm

end Constant

end Choices
