import Mathlib.Algebra.Order.BigOperators.Group.Finset
import Mathlib.Data.Fintype.Basic
import Mathlib.Order.WellFounded

/-!
# Parties that take turns

Finitely many parties move one at a time. A sum over the parties changes by what the
one that moves changes, and a rank that a helpful move lowers reaches its goal when
helpful moves never stop coming.
-/

namespace Parties
set_option autoImplicit false

open Finset

section Sums
variable {ι α : Type} [Fintype ι] [DecidableEq ι]

/-- **One party moves**: the sum exchanges its term. -/
theorem sum_update (f : α → ℕ) (parties : ι → α) (i : ι) (x : α) :
    ∑ j, f (Function.update parties i x j) + f (parties i) = ∑ j, f (parties j) + f x := by
  rw [← Finset.add_sum_erase _ _ (mem_univ i), ← Finset.add_sum_erase univ (fun j => f (parties j)) (mem_univ i)]
  have others : ∑ j ∈ univ.erase i, f (Function.update parties i x j) = ∑ j ∈ univ.erase i, f (parties j) := by
    refine Finset.sum_congr rfl fun j member => ?_
    rw [Function.update_of_ne (Finset.ne_of_mem_erase member)]
  rw [others, Function.update_self]
  omega

omit [DecidableEq ι] in
theorem le_sum (f : α → ℕ) (parties : ι → α) (i : ι) : f (parties i) ≤ ∑ j, f (parties j) :=
  Finset.single_le_sum (f := fun j => f (parties j)) (fun _ _ => Nat.zero_le _) (mem_univ i)

omit [DecidableEq ι] in
theorem sum_eq_zero {f : α → ℕ} {parties : ι → α} (none_ : ∀ i, f (parties i) = 0) : ∑ j, f (parties j) = 0 :=
  Finset.sum_eq_zero fun i _ => none_ i

end Sums

section Progress
variable {σ ρ : Type} {lt : ρ → ρ → Prop} {states : ℕ → σ} {P G : σ → Prop} {r : σ → ρ} {helps : ℕ → Prop}

/-- **Rank rule.** As long as the goal is not reached, no move raises the rank and the
helpful ones lower it. -/
theorem eventually_of_rank (wf : WellFounded lt) (fair : ∀ t, ∃ t', t ≤ t' ∧ helps t')
    (keep : ∀ t, P (states t) → G (states (t + 1)) ∨ P (states (t + 1)) ∧
      (lt (r (states (t + 1))) (r (states t)) ∨ r (states (t + 1)) = r (states t) ∧ ¬ helps t))
    {t : ℕ} (start : P (states t)) : ∃ t', t ≤ t' ∧ G (states t') := by
  have lower : ∀ x t, r (states t) = x → P (states t) → ∃ t', t ≤ t' ∧ G (states t') := by
    intro x
    induction x using wf.induction with
    | _ x ih =>
      intro t ranked start
      obtain ⟨helpful, later, help⟩ := fair t
      -- until the next helpful move the rank stays, and that move lowers it
      obtain ⟨wait, rfl⟩ : ∃ wait, helpful = t + wait := ⟨helpful - t, by omega⟩
      induction wait generalizing t with
      | zero =>
        rcases keep t start with goal | ⟨still, lowered | ⟨-, helpless⟩⟩
        · exact ⟨t + 1, by omega, goal⟩
        · obtain ⟨t', after, goal⟩ := ih _ (ranked ▸ lowered) (t + 1) rfl still
          exact ⟨t', by omega, goal⟩
        · exact absurd help helpless
      | succ wait next =>
        rcases keep t start with goal | ⟨still, lowered | ⟨same, -⟩⟩
        · exact ⟨t + 1, by omega, goal⟩
        · obtain ⟨t', after, goal⟩ := ih _ (ranked ▸ lowered) (t + 1) rfl still
          exact ⟨t', by omega, goal⟩
        · have moment : t + 1 + wait = t + (wait + 1) := by omega
          obtain ⟨t', after, goal⟩ := next (t + 1) (same.trans ranked) still (by omega) (moment ▸ help)
          exact ⟨t', by omega, goal⟩
  exact lower _ t rfl start

end Progress

end Parties
