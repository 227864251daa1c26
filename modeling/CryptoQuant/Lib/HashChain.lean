import Mathlib.Data.List.Forall2
import Mathlib.Data.List.Induction

/-!
# Hash chains

A list of numbered entries, each stored with its digest and naming the digest of
the one before. Where equal digests mean the same entry, the last digest commits
to the whole list.
-/

namespace HashChain
set_option autoImplicit false

/-- What a chain reads of an entry: its number, the digest it names, the digest
computed from it and the digest it is stored with. -/
structure Scheme (ε η : Type) where
  number : ε → ℕ
  prev : ε → η
  digest : ε → η
  stored : ε → η

variable {ε η : Type} (S : Scheme ε η)

/-- The entries are numbered from `n` on and follow the digest `h`. -/
def Linked : ℕ → η → List ε → Prop
  | _, _, [] => True
  | n, h, e :: rest => S.number e = n ∧ S.prev e = h ∧ S.digest e = S.stored e ∧ Linked (n + 1) (S.stored e) rest

/-- The digest that the next entry has to name. -/
def tip (h : η) (entries : List ε) : η := (entries.getLast?.map S.stored).getD h

theorem tip_cons (h : η) (e : ε) (entries : List ε) : tip S h (e :: entries) = tip S (S.stored e) entries := by
  unfold tip
  cases entries with
  | nil => rfl
  | cons e' rest =>
    rw [List.getLast?_cons_cons]
    cases found : (e' :: rest).getLast? with
    | none => exact absurd found (by simp)
    | some last => rfl

theorem tip_snoc (h : η) (entries : List ε) (e : ε) : tip S h (entries ++ [e]) = S.stored e := by
  simp [tip]

theorem linked_snoc {n : ℕ} {h : η} {entries : List ε} {e : ε} :
    Linked S n h (entries ++ [e]) ↔
      Linked S n h entries ∧ S.number e = n + entries.length ∧ S.prev e = tip S h entries ∧ S.digest e = S.stored e := by
  induction entries generalizing n h with
  | nil => simp [Linked, tip]
  | cons first rest ih =>
    have shifted : n + 1 + rest.length = n + (first :: rest).length := by
      rw [List.length_cons]
      omega
    rw [List.cons_append, Linked, ih, Linked, tip_cons, shifted]
    tauto

/-- Only what the chain reads of its entries matters. -/
theorem Linked.congr {n : ℕ} {h : η} {left right : List ε}
    (same : List.Forall₂ (fun a b => S.number a = S.number b ∧ S.prev a = S.prev b ∧ S.digest a = S.digest b ∧
      S.stored a = S.stored b) left right) (linked : Linked S n h left) : Linked S n h right := by
  induction same generalizing n h with
  | nil => trivial
  | cons head rest ih =>
    obtain ⟨number, prev, digest, stored⟩ := head
    obtain ⟨number', prev', digest', linked⟩ := linked
    rw [Linked, ← number, ← prev, ← digest, ← stored]
    exact ⟨number', prev', digest', ih linked⟩

/-- **Commitment.** Two chains that end with the same digest have the same
entries, if equal digests of their entries mean the same entry. The induction
goes backwards: the last entries are the same, so their numbers give the same
length and the digests they name are the ends of what is before them. -/
theorem committed (Same : ε → ε → Prop) (number : ∀ a b, Same a b → S.number a = S.number b)
    (prev : ∀ a b, Same a b → S.prev a = S.prev b) {n : ℕ} {h h' d : η} {left right : List ε}
    (separate : ∀ a ∈ left, ∀ b ∈ right, S.digest a = S.digest b → Same a b)
    (linkedLeft : Linked S n h left) (linkedRight : Linked S n h' right)
    (lastLeft : left.getLast?.map S.stored = some d) (lastRight : right.getLast?.map S.stored = some d) :
    List.Forall₂ (fun a b => Same a b ∧ S.stored a = S.stored b) left right := by
  induction left using List.reverseRecOn generalizing right d with
  | nil => cases lastLeft
  | append_singleton left a ih =>
    rcases List.eq_nil_or_concat' right with rfl | ⟨right, b, rfl⟩
    · cases lastRight
    rw [linked_snoc] at linkedLeft linkedRight
    obtain ⟨linkedLeft, numberA, prevA, digestA⟩ := linkedLeft
    obtain ⟨linkedRight, numberB, prevB, digestB⟩ := linkedRight
    have storedA : S.stored a = d := by simpa using lastLeft
    have storedB : S.stored b = d := by simpa using lastRight
    have same : Same a b := separate a (by simp) b (by simp) (by rw [digestA, digestB, storedA, storedB])
    have lengths : left.length = right.length := by
      have := number a b same
      omega
    have ends : tip S h left = tip S h' right := by rw [← prevA, ← prevB, prev a b same]
    refine List.rel_append ?_ (.cons ⟨same, by rw [storedA, storedB]⟩ .nil)
    rcases List.eq_nil_or_concat' left with rfl | ⟨left, last, rfl⟩
    · rw [List.eq_nil_of_length_eq_zero lengths.symm]
      exact .nil
    rcases List.eq_nil_or_concat' right with rfl | ⟨right, last', rfl⟩
    · simp at lengths
    rw [tip_snoc, tip_snoc] at ends
    exact ih (fun a ha b hb => separate a (List.mem_append_left _ ha) b (List.mem_append_left _ hb)) linkedLeft linkedRight
      (d := S.stored last) (by simp) (by simp [ends])

end HashChain
