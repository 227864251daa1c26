import Mathlib.Data.List.Basic
import Mathlib.Data.List.DropRight

/-!
# Identifiers built from text

Programs make identifiers by gluing separators, names and decimal numbers
together. These rules take such identifiers apart again: equal identifiers have
equal parts, as far as the parts can be told apart.
-/

namespace Text
set_option autoImplicit false

/-- Decimal numerals are read back uniquely. -/
theorem toString_nat_inj {a b : ℕ} (h : toString a = toString b) : a = b := by
  have digits : Nat.toDigits 10 a = Nat.toDigits 10 b := by
    rw [← Nat.toList_repr, ← Nat.toList_repr]
    exact congrArg String.toList h
  rw [← @Nat.ofDigitChars_ten_toDigits a, digits, Nat.ofDigitChars_ten_toDigits]

/-- A numeral after a common start. -/
theorem append_nat_inj {start : String} {a b : ℕ} (h : start ++ toString a = start ++ toString b) : a = b :=
  toString_nat_inj ((String.append_right_inj start).mp h)

/-- Texts with different first characters differ, whatever follows. -/
theorem append_ne_of_head {p q : String} (first : p.toList.head? ≠ q.toList.head?)
    (left : p.toList ≠ []) (right : q.toList ≠ []) (x y : String) : p ++ x ≠ q ++ y := by
  intro same
  have lists := congrArg String.toList same
  rw [String.toList_append, String.toList_append] at lists
  have heads := congrArg List.head? lists
  rw [List.head?_append_of_ne_nil _ left, List.head?_append_of_ne_nil _ right] at heads
  exact first heads

/-- A list is cut uniquely at the first element that fails a test. -/
theorem cut_unique {α : Type} {p : α → Prop} {c : α} (stop : ¬ p c) :
    ∀ {xs ys r r' : List α}, (∀ x ∈ xs, p x) → (∀ y ∈ ys, p y) → xs ++ c :: r = ys ++ c :: r' →
      xs = ys ∧ r = r' := by
  intro xs
  induction xs with
  | nil =>
    intro ys r r' _ hy same
    cases ys with
    | nil => exact ⟨rfl, (List.cons.inj same).2⟩
    | cons y ys => exact absurd (hy y List.mem_cons_self) ((List.cons.inj same).1 ▸ stop)
  | cons x xs ih =>
    intro ys r r' hx hy same
    cases ys with
    | nil => exact absurd (hx x List.mem_cons_self) ((List.cons.inj same).1 ▸ stop)
    | cons y ys =>
      obtain ⟨head, tail⟩ := List.cons.inj same
      obtain ⟨rest, left⟩ := ih (fun a member => hx a (List.mem_cons_of_mem _ member))
        (fun a member => hy a (List.mem_cons_of_mem _ member)) tail
      exact ⟨by rw [head, rest], left⟩

/-- A numeral between a common start and a separator is read back, and with it
what stands from the separator on. -/
theorem nat_then_inj {start x y : String} {a b : ℕ} {c : Char} {xs ys : List Char}
    (stop : ¬ c.isDigit = true) (hx : x.toList = c :: xs) (hy : y.toList = c :: ys)
    (same : start ++ toString a ++ x = start ++ toString b ++ y) : a = b ∧ x = y := by
  have lists := congrArg String.toList same
  simp only [String.toList_append, List.append_assoc, List.append_cancel_left_eq, hx, hy] at lists
  have digits : ∀ n : ℕ, ∀ d ∈ (toString n).toList, d.isDigit = true := by
    intro n d member
    have member : d ∈ Nat.toDigits 10 n := by rw [← Nat.toList_repr]; exact member
    exact Nat.isDigit_of_mem_toDigits (by omega) (by omega) member
  obtain ⟨numerals, rest⟩ := cut_unique (p := fun d : Char => d.isDigit = true) stop (digits a) (digits b) lists
  refine ⟨toString_nat_inj (String.toList_inj.mp numerals), String.toList_inj.mp ?_⟩
  rw [hx, hy, rest]

section Parts
variable {α : Type} [DecidableEq α]

/-- What is before the first `c`, and what is after it. -/
def partition (c : α) (xs : List α) : List α × List α := (xs.takeWhile (· ≠ c), (xs.dropWhile (· ≠ c)).tail)

theorem partition_append {c : α} {xs : List α} (free : c ∉ xs) (ys : List α) : partition c (xs ++ c :: ys) = (xs, ys) := by
  induction xs with
  | nil => simp [partition]
  | cons x xs ih =>
    obtain ⟨differs, rest⟩ := not_or.mp fun here => free (List.mem_cons.mpr here)
    have here := Prod.mk.inj (ih rest)
    simp only [partition, List.cons_append, List.takeWhile_cons, List.dropWhile_cons, ne_eq, Ne.symm differs,
      not_false_eq_true, decide_true, if_true] at here ⊢
    rw [here.1, here.2]

theorem not_mem_fst_partition (c : α) (xs : List α) : c ∉ (partition c xs).1 := by
  intro member
  have passes : decide (c ≠ c) = true := List.mem_takeWhile_imp (p := fun x => decide (x ≠ c)) member
  exact of_decide_eq_true passes rfl

theorem mem_of_mem_fst_partition {c x : α} {xs : List α} (member : x ∈ (partition c xs).1) : x ∈ xs :=
  (List.takeWhile_prefix _).subset member

theorem mem_of_mem_snd_partition {c x : α} {xs : List α} (member : x ∈ (partition c xs).2) : x ∈ xs :=
  (List.dropWhile_suffix _).subset (List.mem_of_mem_tail member)

/-- No part between separators has the separator in it. -/
theorem not_mem_of_mem_splitOn {c : α} {xs part : List α} (member : part ∈ xs.splitOn c) : c ∉ part := by
  induction xs generalizing part with
  | nil =>
    rw [List.splitOn_nil, List.mem_singleton] at member
    rw [member]
    exact List.not_mem_nil
  | cons x xs ih =>
    obtain ⟨first, rest, split⟩ := List.exists_cons_of_ne_nil (List.splitOn_ne_nil c xs)
    rw [List.splitOn_cons_eq_if_modifyHead, split] at member
    rw [split] at ih
    by_cases here : x = c
    · rw [if_pos (beq_iff_eq.mpr here)] at member
      rcases List.mem_cons.mp member with rfl | later
      · exact List.not_mem_nil
      · exact ih later
    · rw [if_neg (by rwa [beq_iff_eq]), List.modifyHead_cons] at member
      rcases List.mem_cons.mp member with rfl | later
      · exact fun among => (List.mem_cons.mp among).elim (Ne.symm here) (ih List.mem_cons_self)
      · exact ih (List.mem_cons_of_mem first later)

end Parts

section Strip
variable {α : Type} {blank : α → Bool}

/-- A text without the blanks at its two ends. -/
def strip (blank : α → Bool) (xs : List α) : List α := (xs.dropWhile blank).rdropWhile blank

theorem mem_of_mem_strip {x : α} {xs : List α} (member : x ∈ strip blank xs) : x ∈ xs :=
  (List.dropWhile_suffix _).subset ((List.rdropWhile_prefix _ _).subset member)

@[simp] theorem strip_strip (xs : List α) : strip blank (strip blank xs) = strip blank xs := by
  have front : (strip blank xs).dropWhile blank = strip blank xs := by
    rw [List.dropWhile_eq_self_iff]
    intro filled
    have filled' : 0 < (xs.dropWhile blank).length := filled.trans_le (List.rdropWhile_prefix blank _).length_le
    have same : (strip blank xs)[0] = (xs.dropWhile blank)[0] := (List.rdropWhile_prefix blank _).getElem filled
    rw [same]
    exact List.dropWhile_get_zero_not blank xs filled'
  rw [strip, front, strip, List.rdropWhile_idempotent]

end Strip

end Text
