import Mathlib.Data.List.Basic

/-!
# Bucketing

Consecutive items with one key are gathered into a bucket, which is emitted as an
item when the next key is another one, and at the end. Gathering into fine buckets
and these into coarse ones is gathering into the coarse ones at once, when the
schemes fit together (`Refines`).
-/

namespace Buckets
set_option autoImplicit false

/-- The key of an item, the contents of a bucket, and what a bucket is emitted as. -/
structure Scheme (α κ β : Type) where
  key : α → κ
  first : α → β
  add : β → α → β
  emit : κ → β → α

variable {α κ ι β γ : Type} [DecidableEq κ] [DecidableEq ι]

namespace Scheme
variable (s : Scheme α κ β)

/-- The next item: what is emitted so far, and the bucket that is open. -/
def step (st : List α × Option (κ × β)) (x : α) : List α × Option (κ × β) :=
  match st with
  | (out, none) => (out, some (s.key x, s.first x))
  | (out, some (k, b)) =>
    if s.key x = k then (out, some (k, s.add b x)) else (out ++ [s.emit k b], some (s.key x, s.first x))

/-- The open bucket is emitted at the end. -/
def finish (st : List α × Option (κ × β)) : List α :=
  match st with
  | (out, none) => out
  | (out, some (k, b)) => out ++ [s.emit k b]

/-- The buckets of the items. -/
def run (xs : List α) : List α := s.finish (xs.foldl s.step ([], none))

theorem step_same {out : List α} {k : κ} {b : β} {x : α} (same : s.key x = k) :
    s.step (out, some (k, b)) x = (out, some (k, s.add b x)) :=
  if_pos same

theorem step_other {out : List α} {k : κ} {b : β} {x : α} (other : s.key x ≠ k) :
    s.step (out, some (k, b)) x = (out ++ [s.emit k b], some (s.key x, s.first x)) :=
  if_neg other

/-- **Contents rule.** What the first item gives and every other keeps holds of the
contents of every bucket. -/
theorem mem_run {P : β → Prop} {xs : List α} (first : ∀ x ∈ xs, P (s.first x)) (add : ∀ x ∈ xs, ∀ b, P b → P (s.add b x))
    {y : α} (member : y ∈ s.run xs) : ∃ k b, P b ∧ y = s.emit k b := by
  let Holds (st : List α × Option (κ × β)) : Prop :=
    (∀ y ∈ st.1, ∃ k b, P b ∧ y = s.emit k b) ∧ ∀ k b, st.2 = some (k, b) → P b
  have keep : ∀ st, ∀ x ∈ xs, Holds st → Holds (s.step st x) := by
    rintro ⟨out, current⟩ x here ⟨emitted, within⟩
    cases current with
    | none => exact ⟨emitted, by rintro k b ⟨rfl, rfl⟩; exact first x here⟩
    | some bucket =>
      obtain ⟨k, b⟩ := bucket
      by_cases same : s.key x = k
      · rw [s.step_same same]
        exact ⟨emitted, by rintro k b ⟨rfl, rfl⟩; exact add x here _ (within _ _ rfl)⟩
      · rw [s.step_other same]
        refine ⟨?_, by rintro k b ⟨rfl, rfl⟩; exact first x here⟩
        intro y member
        rcases List.mem_append.mp member with old | new
        · exact emitted y old
        · exact ⟨k, b, within k b rfl, List.mem_singleton.mp new⟩
  have holds : Holds (xs.foldl s.step ([], none)) :=
    List.foldlRecOn xs s.step ⟨by simp, by simp⟩ fun st h x here => keep st x here h
  unfold run finish at member
  split at member
  · rename_i out done
    rw [done] at holds
    exact holds.1 y member
  · rename_i out k b done
    rw [done] at holds
    rcases List.mem_append.mp member with old | new
    · exact holds.1 y old
    · exact ⟨k, b, holds.2 k b rfl, List.mem_singleton.mp new⟩

end Scheme

/-- Every fine bucket lies in a coarse one, and a coarse bucket takes an emitted
fine one as it would have taken its items. -/
structure Refines (fine : Scheme α κ β) (coarse : Scheme α ι γ) (Valid : α → Prop) (up : κ → ι) : Prop where
  key : ∀ x, coarse.key x = up (fine.key x)
  key_emit : ∀ x b, coarse.key (fine.emit (fine.key x) b) = up (fine.key x)
  first : ∀ x, Valid x → coarse.first (fine.emit (fine.key x) (fine.first x)) = coarse.first x
  add : ∀ x c, Valid x → coarse.add c (fine.emit (fine.key x) (fine.first x)) = coarse.add c x
  first_add : ∀ k b x, coarse.first (fine.emit k (fine.add b x)) = coarse.add (coarse.first (fine.emit k b)) x
  add_add : ∀ c k b x, coarse.add c (fine.emit k (fine.add b x)) = coarse.add (coarse.add c (fine.emit k b)) x

variable {fine : Scheme α κ β} {coarse : Scheme α ι γ} {Valid : α → Prop} {up : κ → ι}

/-- The coarse state of the items is that of the fine buckets with the open one. -/
structure Follows (fine : Scheme α κ β) (coarse : Scheme α ι γ) (up : κ → ι) (st : List α × Option (κ × β))
    (direct : List α × Option (ι × γ)) (k : κ) (b : β) : Prop where
  current : st.2 = some (k, b)
  within : ∃ c, direct.2 = some (up k, c)
  same : coarse.step (st.1.foldl coarse.step ([], none)) (fine.emit k b) = direct

omit [DecidableEq κ] in
/-- One item more in the fine bucket is one item more in the coarse one. -/
theorem Refines.step_add (refines : Refines fine coarse Valid up) (st : List α × Option (ι × γ)) {k : κ} (b : β) {x : α}
    (same : fine.key x = k) {out : List α} {c : γ}
    (before : coarse.step st (fine.emit k b) = (out, some (up k, c))) :
    coarse.step st (fine.emit k (fine.add b x)) = (out, some (up k, coarse.add c x)) := by
  subst same
  obtain ⟨done, current⟩ := st
  cases current with
  | none =>
    simp only [Scheme.step, refines.key_emit, Prod.mk.injEq, Option.some.injEq, true_and] at before ⊢
    rw [refines.first_add, before.2]
    exact ⟨before.1, rfl⟩
  | some bucket =>
    obtain ⟨i, d⟩ := bucket
    by_cases inside : up (fine.key x) = i
    · rw [coarse.step_same (by rw [refines.key_emit, inside])] at before ⊢
      simp only [Prod.mk.injEq, Option.some.injEq] at before ⊢
      rw [refines.add_add, before.2.2]
      exact ⟨before.1, before.2.1, rfl⟩
    · rw [coarse.step_other (by rw [refines.key_emit]; exact inside)] at before ⊢
      simp only [refines.key_emit, Prod.mk.injEq, Option.some.injEq, true_and] at before ⊢
      rw [refines.first_add, before.2]
      exact ⟨before.1, rfl⟩

omit [DecidableEq κ] in
/-- An item alone in a fine bucket is taken as it is. -/
theorem Refines.step_first (refines : Refines fine coarse Valid up) {x : α} (valid : Valid x)
    (st : List α × Option (ι × γ)) : coarse.step st (fine.emit (fine.key x) (fine.first x)) = coarse.step st x := by
  obtain ⟨done, current⟩ := st
  cases current with
  | none => simp only [Scheme.step, refines.key_emit, refines.key, refines.first x valid]
  | some bucket =>
    simp only [Scheme.step, refines.key_emit, refines.key, refines.first x valid, refines.add x _ valid]

/-- After any item the bucket of its key is open. -/
theorem Scheme.step_open (s : Scheme α κ β) (st : List α × Option (κ × β)) (x : α) :
    ∃ b, (s.step st x).2 = some (s.key x, b) := by
  obtain ⟨out, current⟩ := st
  cases current with
  | none => exact ⟨s.first x, rfl⟩
  | some bucket =>
    obtain ⟨k, b⟩ := bucket
    by_cases same : s.key x = k
    · exact ⟨s.add b x, by rw [s.step_same same, same]⟩
    · exact ⟨s.first x, by rw [s.step_other same]⟩

/-- **One item**: the two ways stay together. -/
theorem Follows.step (refines : Refines fine coarse Valid up) {st : List α × Option (κ × β)}
    {direct : List α × Option (ι × γ)} {k : κ} {b : β} (follows : Follows fine coarse up st direct k b) {x : α}
    (valid : Valid x) : ∃ k b, Follows fine coarse up (fine.step st x) (coarse.step direct x) k b := by
  obtain ⟨out, current⟩ := st
  obtain ⟨current_, ⟨c, within⟩, same⟩ := follows
  dsimp only at current_ same
  subst current_
  by_cases inside : fine.key x = k
  · have shared : coarse.key x = up k := by rw [refines.key, inside]
    have direct_ : direct = (direct.1, some (up k, c)) := Prod.ext rfl within
    refine ⟨k, fine.add b x, by rw [fine.step_same inside], ⟨coarse.add c x, ?_⟩, ?_⟩
    · rw [direct_, coarse.step_same shared]
    · rw [fine.step_same inside, direct_, coarse.step_same shared]
      exact refines.step_add _ b inside (same.trans direct_)
  · refine ⟨fine.key x, fine.first x, by rw [fine.step_other inside], ?_, ?_⟩
    · rw [← refines.key]
      exact coarse.step_open direct x
    · rw [fine.step_other inside]
      dsimp only
      rw [List.foldl_append, List.foldl_cons, List.foldl_nil, same, refines.step_first valid]

/-- **Bucketing composes**: the coarse buckets of the fine buckets are the coarse
buckets of the items. -/
theorem Refines.run_run (refines : Refines fine coarse Valid up) {xs : List α} (valid : ∀ x ∈ xs, Valid x) :
    coarse.run (fine.run xs) = coarse.run xs := by
  cases xs with
  | nil => rfl
  | cons x xs =>
    have start : Follows fine coarse up (fine.step ([], none) x) (coarse.step ([], none) x) (fine.key x) (fine.first x) :=
      ⟨rfl, ⟨coarse.first x, by rw [← refines.key]; rfl⟩, refines.step_first (valid x List.mem_cons_self) _⟩
    have all : ∀ ys : List α, (∀ y ∈ ys, Valid y) → ∀ st direct, (∃ k b, Follows fine coarse up st direct k b) →
        ∃ k b, Follows fine coarse up (ys.foldl fine.step st) (ys.foldl coarse.step direct) k b := by
      intro ys
      induction ys with
      | nil => exact fun _ _ _ follows => follows
      | cons y ys ih =>
        rintro valid st direct ⟨k, b, follows⟩
        exact ih (fun z member => valid z (List.mem_cons_of_mem y member)) _ _
          (follows.step refines (valid y List.mem_cons_self))
    obtain ⟨k, b, follows⟩ := all xs (fun y member => valid y (List.mem_cons_of_mem x member)) _ _ ⟨_, _, start⟩
    unfold Scheme.run
    rw [List.foldl_cons, List.foldl_cons, ← follows.same]
    have last : (xs.foldl fine.step (fine.step ([], none) x)).2 = some (k, b) := follows.current
    have emitted : fine.finish (xs.foldl fine.step (fine.step ([], none) x)) =
        (xs.foldl fine.step (fine.step ([], none) x)).1 ++ [fine.emit k b] := by
      unfold Scheme.finish
      rw [← Prod.eta (xs.foldl fine.step _), last]
    rw [emitted, List.foldl_append, List.foldl_cons, List.foldl_nil]

end Buckets
