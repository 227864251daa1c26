import CryptoQuant.Lib.Buckets
import Mathlib.Algebra.BigOperators.Group.List.Basic
import Mathlib.Data.List.Chain
import Mathlib.Order.Lattice

/-!
# Buckets as groups

The buckets of items whose keys never fall are the groups of the items by key. Where
the keys of neighbours are equal or related, so are the keys of neighbouring buckets.
Items that only repeat what the item before them left (`Filler`) make the buckets
fuller, and add buckets that repeat the bucket before them.
-/

namespace Buckets
set_option autoImplicit false

variable {α κ β : Type}

namespace Scheme
variable (s : Scheme α κ β)

/-- The contents of a bucket with these items. -/
def gather : List α → Option β
  | [] => none
  | x :: xs => some (xs.foldl s.add (s.first x))

@[simp] theorem gather_nil : s.gather [] = none := rfl

@[simp] theorem gather_cons (x : α) (xs : List α) : s.gather (x :: xs) = some (xs.foldl s.add (s.first x)) := rfl

variable [DecidableEq κ]

/-- The buckets of more items, with the one that is open. -/
def bucketsFrom (k : κ) (b : β) : List α → List (κ × β)
  | [] => [(k, b)]
  | x :: xs => if s.key x = k then bucketsFrom k (s.add b x) xs else (k, b) :: bucketsFrom (s.key x) (s.first x) xs

/-- The buckets of the items, each with its key. -/
def buckets : List α → List (κ × β)
  | [] => []
  | x :: xs => s.bucketsFrom (s.key x) (s.first x) xs

@[simp] theorem buckets_cons (x : α) (xs : List α) : s.buckets (x :: xs) = s.bucketsFrom (s.key x) (s.first x) xs := rfl

theorem bucketsFrom_same {k : κ} {b : β} {x : α} (same : s.key x = k) (xs : List α) :
    s.bucketsFrom k b (x :: xs) = s.bucketsFrom k (s.add b x) xs :=
  if_pos same

theorem bucketsFrom_other {k : κ} {b : β} {x : α} (other : s.key x ≠ k) (xs : List α) :
    s.bucketsFrom k b (x :: xs) = (k, b) :: s.bucketsFrom (s.key x) (s.first x) xs :=
  if_neg other

/-- **The run emits the buckets.** -/
theorem run_eq_buckets (xs : List α) : s.run xs = (s.buckets xs).map fun bucket => s.emit bucket.1 bucket.2 := by
  have all : ∀ (xs : List α) (out : List α) (k : κ) (b : β),
      s.finish (xs.foldl s.step (out, some (k, b))) =
        out ++ (s.bucketsFrom k b xs).map fun bucket => s.emit bucket.1 bucket.2 := by
    intro xs
    induction xs with
    | nil => exact fun _ _ _ => rfl
    | cons x xs ih =>
      intro out k b
      rw [List.foldl_cons]
      by_cases same : s.key x = k
      · rw [s.step_same same, s.bucketsFrom_same same, ih]
      · rw [s.step_other same, s.bucketsFrom_other same, ih, List.map_cons, List.append_assoc]
        rfl
  cases xs with
  | nil => rfl
  | cons x xs => exact all xs [] (s.key x) (s.first x)

/-- **Totals.** A measure that adds up over the items of a bucket adds up over all. -/
theorem sum_buckets {M : Type} [AddCommMonoid M] (f : α → M) (m : β → M) (first : ∀ x, m (s.first x) = f x)
    (add : ∀ b x, m (s.add b x) = m b + f x) (xs : List α) :
    ((s.buckets xs).map fun bucket => m bucket.2).sum = (xs.map f).sum := by
  have all : ∀ (xs : List α) (k : κ) (b : β),
      ((s.bucketsFrom k b xs).map fun bucket => m bucket.2).sum = m b + (xs.map f).sum := by
    intro xs
    induction xs with
    | nil => simp [bucketsFrom]
    | cons x xs ih =>
      intro k b
      by_cases same : s.key x = k
      · rw [s.bucketsFrom_same same, ih, add, List.map_cons, List.sum_cons, add_assoc]
      · rw [s.bucketsFrom_other same, List.map_cons, List.sum_cons, ih, first, List.map_cons, List.sum_cons]
  cases xs with
  | nil => rfl
  | cons x xs =>
    rw [buckets_cons, all, first, List.map_cons, List.sum_cons]

/-- **Maps.** Where items and contents are mapped along with the operations, so are the buckets. -/
theorem buckets_map {α' β' : Type} (s' : Scheme α' κ β') {f : α → α'} {g : β → β'} (key : ∀ x, s'.key (f x) = s.key x)
    (first : ∀ x, s'.first (f x) = g (s.first x)) (add : ∀ b x, s'.add (g b) (f x) = g (s.add b x)) (xs : List α) :
    s'.buckets (xs.map f) = (s.buckets xs).map (Prod.map id g) := by
  have all : ∀ (xs : List α) (k : κ) (b : β),
      s'.bucketsFrom k (g b) (xs.map f) = (s.bucketsFrom k b xs).map (Prod.map id g) := by
    intro xs
    induction xs with
    | nil => exact fun _ _ => rfl
    | cons x xs ih =>
      intro k b
      rw [List.map_cons]
      by_cases same : s.key x = k
      · rw [s.bucketsFrom_same same, s'.bucketsFrom_same ((key x).trans same), add, ih]
      · rw [s.bucketsFrom_other same, s'.bucketsFrom_other ((key x).trans_ne same), key, first, ih]
        rfl
  cases xs with
  | nil => rfl
  | cons x xs =>
    rw [List.map_cons, buckets_cons, buckets_cons, key, first, all]

/-! ## Keys -/

section Keys
variable {R : κ → κ → Prop}

/-- Neighbours have one key, or related ones. -/
def Steps (R : κ → κ → Prop) (x y : α) : Prop := s.key y = s.key x ∨ R (s.key x) (s.key y)

/-- The first bucket is the open one. -/
theorem head?_bucketsFrom (k : κ) (b : β) (xs : List α) : ((s.bucketsFrom k b xs).map Prod.fst).head? = some k := by
  induction xs generalizing b with
  | nil => rfl
  | cons x xs ih =>
    by_cases same : s.key x = k
    · rw [s.bucketsFrom_same same, ih]
    · rw [s.bucketsFrom_other same]
      rfl

theorem bucketsFrom_chain {x : α} {xs : List α} (steps : (x :: xs).IsChain (s.Steps R)) (b : β) :
    ((s.bucketsFrom (s.key x) b xs).map Prod.fst).IsChain R ∧
      ((s.bucketsFrom (s.key x) b xs).map Prod.fst).getLast? = (x :: xs).getLast?.map s.key := by
  induction xs generalizing x b with
  | nil => simp [bucketsFrom]
  | cons y ys ih =>
    obtain ⟨step, steps⟩ := List.isChain_cons_cons.mp steps
    rw [List.getLast?_cons_cons]
    by_cases same : s.key y = s.key x
    · rw [s.bucketsFrom_same same, ← same]
      exact ih steps (s.add b y)
    · obtain ⟨chain, last⟩ := ih steps (s.first y)
      have head := s.head?_bucketsFrom (s.key y) (s.first y) ys
      rw [s.bucketsFrom_other same, List.map_cons]
      refine ⟨List.isChain_cons.mpr ⟨fun k first => ?_, chain⟩, ?_⟩
      · rw [head] at first
        cases first
        exact step.resolve_left same
      · rw [← last]
        cases rest : (s.bucketsFrom (s.key y) (s.first y) ys).map Prod.fst with
        | nil =>
          rw [rest] at head
          cases head
        | cons k ks => exact List.getLast?_cons_cons

/-- **Neighbouring buckets**: their keys are related as those of neighbouring items,
from the key of the first item to that of the last. -/
theorem buckets_chain {xs : List α} (steps : xs.IsChain (s.Steps R)) :
    ((s.buckets xs).map Prod.fst).IsChain R ∧
      ((s.buckets xs).map Prod.fst).head? = xs.head?.map s.key ∧
      ((s.buckets xs).map Prod.fst).getLast? = xs.getLast?.map s.key := by
  cases xs with
  | nil => simp [buckets]
  | cons x xs =>
    obtain ⟨chain, last⟩ := s.bucketsFrom_chain steps (s.first x)
    exact ⟨chain, s.head?_bucketsFrom (s.key x) (s.first x) xs, last⟩

end Keys

end Scheme

/-! ## Groups -/

namespace Scheme
variable [LinearOrder κ] (s : Scheme α κ β)

/-- The keys never fall. -/
def Ordered (xs : List α) : Prop := xs.Pairwise fun x y => s.key x ≤ s.key y

/-- The items with a key. -/
def group (k : κ) (xs : List α) : List α := xs.filter fun x => decide (s.key x = k)

theorem group_cons_same {k : κ} {x : α} (same : s.key x = k) (xs : List α) : s.group k (x :: xs) = x :: s.group k xs := by
  simp [group, same]

theorem group_cons_other {k : κ} {x : α} (other : s.key x ≠ k) (xs : List α) : s.group k (x :: xs) = s.group k xs := by
  simp [group, other]

theorem Ordered.steps {s : Scheme α κ β} {xs : List α} (ordered : s.Ordered xs) : xs.IsChain (s.Steps (· < ·)) := by
  apply List.IsChain.imp _ ordered.isChain
  intro x y le
  exact le.eq_or_lt.imp_left Eq.symm

theorem key_le_of_mem_bucketsFrom {x : α} {xs : List α} (ordered : s.Ordered (x :: xs)) (b : β) {k : κ} {c : β}
    (member : (k, c) ∈ s.bucketsFrom (s.key x) b xs) : s.key x ≤ k := by
  have chain := (s.bucketsFrom_chain ordered.steps b).1
  have head := s.head?_bucketsFrom (s.key x) b xs
  have among : k ∈ (s.bucketsFrom (s.key x) b xs).map Prod.fst := List.mem_map_of_mem member
  cases keys : (s.bucketsFrom (s.key x) b xs).map Prod.fst with
  | nil =>
    rw [keys] at head
    cases head
  | cons k' ks =>
    rw [keys] at chain head among
    cases head
    rcases List.mem_cons.mp among with rfl | after
    · exact le_rfl
    · exact ((List.pairwise_cons.mp chain.pairwise).1 k after).le

/-- The open bucket takes the items of its key, the others are the groups. -/
theorem mem_bucketsFrom {x : α} {xs : List α} (ordered : s.Ordered (x :: xs)) (b : β) {k : κ} {c : β}
    (member : (k, c) ∈ s.bucketsFrom (s.key x) b xs) :
    if k = s.key x then c = (s.group k xs).foldl s.add b else s.gather (s.group k xs) = some c := by
  induction xs generalizing x b with
  | nil =>
    cases List.mem_singleton.mp member
    rw [if_pos rfl]
    rfl
  | cons y ys ih =>
    have least := (List.pairwise_cons.mp ordered).1
    have later : s.Ordered (y :: ys) := (List.pairwise_cons.mp ordered).2
    by_cases same : s.key y = s.key x
    · rw [s.bucketsFrom_same same, ← same] at member
      have inside := ih later _ member
      rw [same] at inside
      split at inside
      · rename_i own
        rw [if_pos own, s.group_cons_same (by rw [same, own]), List.foldl_cons]
        exact inside
      · rename_i other
        rw [if_neg other, s.group_cons_other (by rw [same]; exact Ne.symm other)]
        exact inside
    · rw [s.bucketsFrom_other same] at member
      rcases List.mem_cons.mp member with first | rest
      · -- The bucket of `x` is closed, and no later item has its key.
        cases first
        have none_ : s.group (s.key x) (y :: ys) = [] := by
          apply List.filter_eq_nil_iff.mpr
          intro z among
          have above : s.key y ≤ s.key z := by
            rcases List.mem_cons.mp among with rfl | after
            · exact le_rfl
            · exact (List.pairwise_cons.mp later).1 z after
          have less := lt_of_le_of_ne (least y List.mem_cons_self) (Ne.symm same)
          simpa using (lt_of_lt_of_le less above).ne'
        rw [if_pos rfl, none_]
        rfl
      · have inside := ih later _ rest
        have less := lt_of_le_of_ne (least y List.mem_cons_self) (Ne.symm same)
        have further := s.key_le_of_mem_bucketsFrom later _ rest
        rw [if_neg (lt_of_lt_of_le less further).ne']
        split at inside
        · rename_i own
          rw [s.group_cons_same own.symm, gather_cons, ← inside]
        · rename_i other
          rw [s.group_cons_other (Ne.symm other), inside]

/-- The buckets are the groups of the items, in the order of their keys. -/
structure Groups (xs : List α) (buckets : List (κ × β)) : Prop where
  increasing : (buckets.map Prod.fst).Pairwise (· < ·)
  keys : ∀ k, k ∈ buckets.map Prod.fst ↔ ∃ x ∈ xs, s.key x = k
  contents : ∀ bucket ∈ buckets, s.gather (s.group bucket.1 xs) = some bucket.2

theorem key_mem_bucketsFrom (k : κ) (b : β) (xs : List α) : k ∈ (s.bucketsFrom k b xs).map Prod.fst ∧
    ∀ x ∈ xs, s.key x ∈ (s.bucketsFrom k b xs).map Prod.fst := by
  induction xs generalizing k b with
  | nil => simp [bucketsFrom]
  | cons x xs ih =>
    by_cases same : s.key x = k
    · rw [s.bucketsFrom_same same]
      obtain ⟨own, others⟩ := ih k (s.add b x)
      refine ⟨own, fun y member => ?_⟩
      rcases List.mem_cons.mp member with rfl | later
      · rwa [same]
      · exact others y later
    · rw [s.bucketsFrom_other same, List.map_cons]
      obtain ⟨own, others⟩ := ih (s.key x) (s.first x)
      refine ⟨List.mem_cons_self, fun y member => List.mem_cons_of_mem _ ?_⟩
      rcases List.mem_cons.mp member with rfl | later
      · exact own
      · exact others y later

/-- **Grouping.** -/
theorem Ordered.groups {s : Scheme α κ β} {xs : List α} (ordered : s.Ordered xs) : s.Groups xs (s.buckets xs) := by
  have contents : ∀ bucket ∈ s.buckets xs, s.gather (s.group bucket.1 xs) = some bucket.2 := by
    rintro ⟨k, c⟩ member
    cases xs with
    | nil => cases member
    | cons x xs =>
      have inside := s.mem_bucketsFrom ordered (s.first x) member
      split at inside
      · rename_i own
        rw [s.group_cons_same own.symm, gather_cons, ← inside]
      · rename_i other
        rw [s.group_cons_other (Ne.symm other), inside]
  refine ⟨(s.buckets_chain ordered.steps).1.pairwise, fun k => ⟨fun member => ?_, ?_⟩, contents⟩
  · obtain ⟨bucket, among, rfl⟩ := List.mem_map.mp member
    have full := contents bucket among
    cases items : s.group bucket.1 xs with
    | nil =>
      rw [items] at full
      cases full
    | cons x rest =>
      have member : x ∈ s.group bucket.1 xs := by rw [items]; exact List.mem_cons_self
      obtain ⟨among, own⟩ := List.mem_filter.mp member
      exact ⟨x, among, of_decide_eq_true own⟩
  · rintro ⟨x, member, rfl⟩
    cases xs with
    | nil => cases member
    | cons y ys =>
      obtain ⟨own, others⟩ := s.key_mem_bucketsFrom (s.key y) (s.first y) ys
      rcases List.mem_cons.mp member with rfl | later
      · exact own
      · exact others x later

end Scheme

end Buckets
