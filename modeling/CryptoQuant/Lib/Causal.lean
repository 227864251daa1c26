import Mathlib.Data.List.Basic

/-!
# Causal functions

A function of lists is causal when its result on a prefix is the prefix of its
result. Loops over the places of a list are, when their step at a place reads
the list no further than that place.
-/

namespace Prefix
set_option autoImplicit false

variable {α β γ σ : Type}

/-- No entry of the result depends on later entries of the list. -/
def Causal (f : List α → List β) : Prop := ∀ xs k, f (xs.take k) = (f xs).take k

theorem Causal.comp {f : List β → List γ} {g : List α → List β} (outer : Causal f) (inner : Causal g) :
    Causal (f ∘ g) := by
  intro xs k
  rw [Function.comp_apply, Function.comp_apply, inner, outer]

theorem causal_map (f : α → β) : Causal (List.map f) := fun _ _ => List.map_take

theorem Causal.map (f : β → γ) {g : List α → List β} (causal : Causal g) : Causal fun xs => (g xs).map f := by
  intro xs k
  show (g (xs.take k)).map f = ((g xs).map f).take k
  rw [causal, List.map_take]

/-- Causality is settled on proper prefixes. -/
theorem causal_of_lt {f : List α → List β} (length : ∀ xs, (f xs).length = xs.length)
    (agree : ∀ xs k, k < xs.length → f (xs.take k) = (f xs).take k) : Causal f := by
  intro xs k
  by_cases short : k < xs.length
  · exact agree xs k short
  · have all : xs.length ≤ k := Nat.le_of_not_lt short
    rw [List.take_of_length_le all, List.take_of_length_le]
    rw [length]
    exact all

/-- The states of `n` rounds of a loop over places, from place `i` on. -/
def states (step : ℕ → σ → σ) : ℕ → ℕ → σ → List σ
  | _, 0, _ => []
  | i, n + 1, s => step i s :: states step (i + 1) n (step i s)

@[simp] theorem length_states (step : ℕ → σ → σ) (i n : ℕ) (s : σ) : (states step i n s).length = n := by
  induction n generalizing i s with
  | zero => rfl
  | succ n ih => rw [states, List.length_cons, ih]

theorem take_states (step : ℕ → σ → σ) (i n m : ℕ) (s : σ) :
    (states step i n s).take m = states step i (min m n) s := by
  induction n generalizing i m s with
  | zero => simp [states]
  | succ n ih =>
    cases m with
    | zero => simp [states]
    | succ m => rw [states, List.take_succ_cons, ih, Nat.succ_min_succ, states]

theorem states_congr {step step' : ℕ → σ → σ} {i n : ℕ} (agree : ∀ j, i ≤ j → j < i + n → ∀ s, step j s = step' j s)
    (s : σ) : states step i n s = states step' i n s := by
  induction n generalizing i s with
  | zero => rfl
  | succ n ih =>
    have here : step i s = step' i s := agree i (Nat.le_refl i) (by omega) s
    rw [states, states, here, ih fun j least most => agree j (by omega) (by omega)]

/-- Loops that correspond round by round correspond as a whole. -/
theorem map_states {τ : Type} {step : ℕ → σ → σ} {step' : ℕ → τ → τ} {f : σ → τ} {i n : ℕ}
    (agree : ∀ j, i ≤ j → j < i + n → ∀ s, step' j (f s) = f (step j s)) (s : σ) :
    states step' i n (f s) = (states step i n s).map f := by
  induction n generalizing i s with
  | zero => rfl
  | succ n ih =>
    rw [states, states, List.map_cons, agree i (Nat.le_refl i) (by omega)]
    rw [ih fun j first last => agree j (by omega) (by omega)]

/-- **Invariant rule.** What holds before the loop and is kept by every round holds after each. -/
theorem states_invariant {step : ℕ → σ → σ} {P : ℕ → σ → Prop} {i n : ℕ} {s : σ} (base : P i s)
    (keep : ∀ j, i ≤ j → j < i + n → ∀ s, P j s → P (j + 1) (step j s)) {k : ℕ} {t : σ}
    (found : (s :: states step i n s)[k]? = some t) : P (i + k) t := by
  induction n generalizing i s k with
  | zero =>
    cases k with
    | zero =>
      cases found
      exact base
    | succ k => cases found
  | succ n ih =>
    cases k with
    | zero =>
      cases found
      exact base
    | succ k =>
      have later := ih (keep i (Nat.le_refl i) (by omega) s base) (fun j first last => keep j (by omega) (by omega)) found
      rwa [Nat.add_right_comm, Nat.add_assoc] at later

/-- **Loop rule.** A loop whose step at a place reads the list up to that place. -/
theorem causal_states (step : List α → ℕ → σ → σ) (s : σ)
    (reads : ∀ xs k i, i < k → ∀ s, step (xs.take k) i s = step xs i s) :
    Causal fun xs => states (step xs) 0 xs.length s := by
  intro xs k
  show states (step (xs.take k)) 0 (xs.take k).length s = (states (step xs) 0 xs.length s).take k
  rw [take_states, List.length_take]
  refine states_congr (fun j _ most => reads xs k j ?_) s
  omega

/-- The result of a loop that starts once there are more than `warm` entries: no
value before, one for the first state, and one for every state of the loop. -/
def warmed (warm : ℕ) (first : List α → σ) (step : List α → ℕ → σ → σ) (read : σ → β) (xs : List α) : List (Option β) :=
  if xs.length ≤ warm then List.replicate xs.length none
  else List.replicate warm none ++
    (first xs :: states (step xs) (warm + 1) (xs.length - (warm + 1)) (first xs)).map fun s => some (read s)

/-- **Warm-up rule.** The first state reads the entries up to the first value. -/
theorem causal_warmed {warm : ℕ} {first : List α → σ} {step : List α → ℕ → σ → σ} {read : σ → β}
    (starts : ∀ xs k, warm < k → first (xs.take k) = first xs)
    (reads : ∀ xs k i, i < k → ∀ s, step (xs.take k) i s = step xs i s) : Causal (warmed warm first step read) := by
  apply causal_of_lt
  · intro xs
    unfold warmed
    split
    · rw [List.length_replicate]
    · rw [List.length_append, List.length_replicate, List.length_map, List.length_cons, length_states]
      omega
  intro xs k within
  have length : (xs.take k).length = k := by rw [List.length_take]; omega
  unfold warmed
  rw [length]
  by_cases short : k ≤ warm
  · rw [if_pos short]
    split
    · rw [List.take_replicate, Nat.min_eq_left (Nat.le_of_lt within)]
    · rw [List.take_append_of_le_length (by rw [List.length_replicate]; exact short), List.take_replicate,
        Nat.min_eq_left short]
  · have more : warm + 1 ≤ k := Nat.lt_of_not_le short
    have same : first (xs.take k) = first xs := starts xs k more
    have left : k - warm = (k - (warm + 1)) + 1 := by omega
    have agrees : states (step (xs.take k)) (warm + 1) (k - (warm + 1)) (first xs) =
        states (step xs) (warm + 1) (k - (warm + 1)) (first xs) := by
      refine states_congr (fun j _ most => reads xs k j ?_) _
      omega
    rw [if_neg short, if_neg (by omega), same, agrees, List.take_append, List.take_replicate, List.length_replicate,
      Nat.min_eq_right (by omega), ← List.map_take, left, List.take_succ_cons, take_states, Nat.min_eq_left (by omega)]

/-- Entries below a prefix's end are those of the list. -/
theorem getD_take {xs : List α} {i k : ℕ} (below : i < k) (default : α) : (xs.take k).getD i default = xs.getD i default := by
  rw [List.getD_eq_getElem?_getD, List.getD_eq_getElem?_getD, List.getElem?_take_of_lt below]

end Prefix
