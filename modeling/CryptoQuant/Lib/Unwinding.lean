import CryptoQuant.Lib.Run

/-!
# Unwinding

A trace of a machine, and the part of it that an observer sees. When what is not seen
never reaches the state that the observer depends on, the calls that are seen answer the
same without the others.
-/

namespace Run.Machine
set_option autoImplicit false

variable {σ ι ο : Type} (M : Machine σ ι ο)

/-- The calls of a run with their answers. -/
def trace (M : Machine σ ι ο) (s : σ) : List ι → List (ι × ο)
  | [] => []
  | i :: is => (i, M.answer s i) :: trace M (M.next s i) is

/-- The relation of two states that an observer cannot tell apart, over whole runs: calls
that are seen answer the same and keep it, the others keep it by themselves. -/
structure Unwinds (R : σ → σ → Prop) (sees : ι × ο → Bool) : Prop where
  seen : ∀ s t i, R s t → sees (i, M.answer s i) = true → M.answer t i = M.answer s i ∧ R (M.next s i) (M.next t i)
  unseen : ∀ s t i, R s t → sees (i, M.answer s i) = false → R (M.next s i) t

variable {M}

/-- **Unwinding.** The run of the calls that are seen is the part of the run that is seen. -/
theorem Unwinds.trace {R : σ → σ → Prop} {sees : ι × ο → Bool} (unwinds : M.Unwinds R sees) {s t : σ} (related : R s t)
    (is : List ι) : M.trace t (((M.trace s is).filter sees).map Prod.fst) = (M.trace s is).filter sees := by
  induction is generalizing s t with
  | nil => rfl
  | cons i is ih =>
    rw [Machine.trace]
    cases sight : sees (i, M.answer s i) with
    | true =>
      obtain ⟨same, later⟩ := unwinds.seen s t i related sight
      rw [List.filter_cons_of_pos sight, List.map_cons, Machine.trace, same, ih later]
    | false =>
      rw [List.filter_cons_of_neg (by rw [sight]; exact Bool.false_ne_true)]
      exact ih (unwinds.unseen s t i related sight)

end Run.Machine
