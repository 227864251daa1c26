import Mathlib.Data.List.Perm.Basic

/-!
# Masked trees

Nested values of leaves, lists, tuples and mappings, and the copy in which the
entries of secret keys are masked. The copies of two values are equal exactly
when the values differ under secret keys alone, so nothing below such a key can be
read off a copy. The items of a mapping have no order: values that differ in it are
equal.
-/

namespace Masking
set_option autoImplicit false

/-- A nested value: the keys of its mappings are of `κ`, its leaves of `α`. -/
inductive Tree (κ α : Type)
  | leaf (a : α)
  | list (items : List (Tree κ α))
  | tuple (items : List (Tree κ α))
  | mapping (items : List (κ × Tree κ α))

variable {κ α : Type}

section Masked
variable (secret : κ → Bool) (mask : α)

mutual
/-- The copy with the entries of secret keys masked. -/
def Tree.masked : Tree κ α → Tree κ α
  | .leaf a => .leaf a
  | .list items => .list (maskedList items)
  | .tuple items => .tuple (maskedList items)
  | .mapping items => .mapping (maskedItems items)

def maskedList : List (Tree κ α) → List (Tree κ α)
  | [] => []
  | v :: rest => v.masked :: maskedList rest

def maskedItems : List (κ × Tree κ α) → List (κ × Tree κ α)
  | [] => []
  | (k, v) :: rest => (k, if secret k then .leaf mask else v.masked) :: maskedItems rest
end

end Masked

section Agree
variable (secret : κ → Bool)

mutual
/-- The two values are the same but for what is below secret keys and for the order of
the items of their mappings. -/
inductive Agree : Tree κ α → Tree κ α → Prop
  | leaf (a : α) : Agree (.leaf a) (.leaf a)
  | list {vs ws : List (Tree κ α)} (items : AgreeList vs ws) : Agree (.list vs) (.list ws)
  | tuple {vs ws : List (Tree κ α)} (items : AgreeList vs ws) : Agree (.tuple vs) (.tuple ws)
  | mapping {vs us ws : List (κ × Tree κ α)} (order : vs.Perm us) (items : AgreeItems us ws) :
      Agree (.mapping vs) (.mapping ws)

inductive AgreeList : List (Tree κ α) → List (Tree κ α) → Prop
  | nil : AgreeList [] []
  | cons {v w : Tree κ α} {vs ws : List (Tree κ α)} (first : Agree v w) (rest : AgreeList vs ws) :
      AgreeList (v :: vs) (w :: ws)

inductive AgreeItems : List (κ × Tree κ α) → List (κ × Tree κ α) → Prop
  | nil : AgreeItems [] []
  | hidden {k : κ} {v w : Tree κ α} {vs ws : List (κ × Tree κ α)} (hidden : secret k = true)
      (rest : AgreeItems vs ws) : AgreeItems ((k, v) :: vs) ((k, w) :: ws)
  | shown {k : κ} {v w : Tree κ α} {vs ws : List (κ × Tree κ α)} (first : Agree v w)
      (rest : AgreeItems vs ws) : AgreeItems ((k, v) :: vs) ((k, w) :: ws)
end

mutual
/-- No key of the value is secret, at any depth. -/
def Tree.Open : Tree κ α → Prop
  | .leaf _ => True
  | .list items => OpenList items
  | .tuple items => OpenList items
  | .mapping items => OpenItems items

def OpenList : List (Tree κ α) → Prop
  | [] => True
  | v :: rest => v.Open ∧ OpenList rest

def OpenItems : List (κ × Tree κ α) → Prop
  | [] => True
  | (k, v) :: rest => secret k = false ∧ v.Open ∧ OpenItems rest
end

end Agree

/-- The two values are equal, whatever the order of the items of their mappings. -/
abbrev Same (v w : Tree κ α) : Prop := Agree (fun _ => false) v w

mutual
/-- No mapping of the value has a key twice. -/
def Tree.Keyed : Tree κ α → Prop
  | .leaf _ => True
  | .list items => KeyedList items
  | .tuple items => KeyedList items
  | .mapping items => (items.map Prod.fst).Nodup ∧ KeyedItems items

def KeyedList : List (Tree κ α) → Prop
  | [] => True
  | v :: rest => v.Keyed ∧ KeyedList rest

def KeyedItems : List (κ × Tree κ α) → Prop
  | [] => True
  | (_, v) :: rest => v.Keyed ∧ KeyedItems rest
end

theorem keyedItems_iff {items : List (κ × Tree κ α)} : KeyedItems items ↔ ∀ p ∈ items, p.2.Keyed := by
  induction items with
  | nil => simp [KeyedItems]
  | cons p rest ih =>
    obtain ⟨k, v⟩ := p
    rw [KeyedItems, ih, List.forall_mem_cons]

variable {secret : κ → Bool} {mask : α}

theorem maskedItems_eq_map (items : List (κ × Tree κ α)) : maskedItems secret mask items =
    items.map fun p => (p.1, if secret p.1 then .leaf mask else p.2.masked secret mask) := by
  induction items with
  | nil => rfl
  | cons p rest ih =>
    obtain ⟨k, v⟩ := p
    rw [maskedItems, ih, List.map_cons]

theorem keys_maskedItems (items : List (κ × Tree κ α)) :
    (maskedItems secret mask items).map Prod.fst = items.map Prod.fst := by
  rw [maskedItems_eq_map, List.map_map]
  rfl

mutual
/-- The copy has the keys of the value. -/
theorem Tree.Keyed.masked : ∀ {v : Tree κ α}, v.Keyed → (v.masked secret mask).Keyed
  | .leaf _, _ => trivial
  | .list _, items => by
    rw [Tree.masked, Tree.Keyed]
    exact keyedList_masked items
  | .tuple _, items => by
    rw [Tree.masked, Tree.Keyed]
    exact keyedList_masked items
  | .mapping _, ⟨distinct, items⟩ => by
    rw [Tree.masked, Tree.Keyed, keys_maskedItems]
    exact ⟨distinct, keyedItems_masked items⟩

theorem keyedList_masked : ∀ {vs : List (Tree κ α)}, KeyedList vs → KeyedList (maskedList secret mask vs)
  | [], _ => trivial
  | _ :: _, ⟨first, rest⟩ => by
    rw [maskedList, KeyedList]
    exact ⟨first.masked, keyedList_masked rest⟩

theorem keyedItems_masked : ∀ {vs : List (κ × Tree κ α)}, KeyedItems vs → KeyedItems (maskedItems secret mask vs)
  | [], _ => trivial
  | (k, _) :: _, ⟨first, rest⟩ => by
    rw [maskedItems, KeyedItems]
    refine ⟨?_, keyedItems_masked rest⟩
    cases secret k with
    | true => exact trivial
    | false => exact first.masked
end

mutual
/-- **Nothing below a secret key is read**: values that agree outside secret keys
have equal masked copies. -/
theorem Agree.masked {v w : Tree κ α} : Agree secret v w → Same (v.masked secret mask) (w.masked secret mask)
  | .leaf a => by
    rw [Tree.masked]
    exact .leaf a
  | .list items => by
    rw [Tree.masked, Tree.masked]
    exact .list items.masked
  | .tuple items => by
    rw [Tree.masked, Tree.masked]
    exact .tuple items.masked
  | .mapping order items => by
    have reordered := order.map fun p => (p.1, if secret p.1 then Tree.leaf mask else p.2.masked secret mask)
    rw [← maskedItems_eq_map, ← maskedItems_eq_map] at reordered
    rw [Tree.masked, Tree.masked]
    exact .mapping reordered items.masked

theorem AgreeList.masked {vs ws : List (Tree κ α)} : AgreeList secret vs ws →
    AgreeList (fun _ => false) (maskedList secret mask vs) (maskedList secret mask ws)
  | .nil => .nil
  | .cons first rest => by
    rw [maskedList, maskedList]
    exact .cons first.masked rest.masked

theorem AgreeItems.masked {vs ws : List (κ × Tree κ α)} : AgreeItems secret vs ws →
    AgreeItems (fun _ => false) (maskedItems secret mask vs) (maskedItems secret mask ws)
  | .nil => .nil
  | .hidden hidden rest => by
    rw [maskedItems, maskedItems, if_pos hidden, if_pos hidden]
    exact .shown (.leaf mask) rest.masked
  | .shown (k := k) first rest => by
    rw [maskedItems, maskedItems]
    refine .shown ?_ rest.masked
    cases secret k with
    | true => exact .leaf mask
    | false => exact first.masked
end

theorem agreeList_of_masked : ∀ {vs ws : List (Tree κ α)}
    (_ : ∀ v ∈ vs, ∀ w : Tree κ α, Same (v.masked secret mask) (w.masked secret mask) → Agree secret v w),
    AgreeList (fun _ => false) (maskedList secret mask vs) (maskedList secret mask ws) → AgreeList secret vs ws
  | [], [], _, _ => .nil
  | v :: _, w :: _, read, .cons first rest => .cons (read v List.mem_cons_self w first)
    (agreeList_of_masked (fun u among => read u (List.mem_cons_of_mem v among)) rest)

theorem agreeItems_of_masked : ∀ {vs ws : List (κ × Tree κ α)}
    (_ : ∀ p ∈ vs, ∀ w : Tree κ α, Same (p.2.masked secret mask) (w.masked secret mask) → Agree secret p.2 w),
    AgreeItems (fun _ => false) (maskedItems secret mask vs) (maskedItems secret mask ws) → AgreeItems secret vs ws
  | [], [], _, _ => .nil
  | (k, v) :: vs, (l, w) :: ws, read, same => by
    rw [maskedItems, maskedItems] at same
    generalize first : (if secret k then Tree.leaf mask else v.masked secret mask) = x at same
    generalize second : (if secret l then Tree.leaf mask else w.masked secret mask) = y at same
    cases same with
    | hidden never => cases never
    | shown value rest =>
      have others := agreeItems_of_masked (fun p among => read p (List.mem_cons_of_mem _ among)) rest
      by_cases hidden : secret k = true
      · exact .hidden hidden others
      · rw [if_neg hidden] at first second
        subst first second
        exact .shown (read (k, v) List.mem_cons_self w value) others

/-- **Everything else is read**: values with equal masked copies agree. -/
theorem agree_of_masked (v w : Tree κ α) (same : Same (v.masked secret mask) (w.masked secret mask)) : Agree secret v w := by
  match v, w with
  | .leaf a, .leaf b =>
    rw [Tree.masked, Tree.masked] at same
    cases same
    exact .leaf a
  | .list vs, .list ws =>
    rw [Tree.masked, Tree.masked] at same
    cases same with
    | list items => exact .list (agreeList_of_masked (fun u among => agree_of_masked u) items)
  | .tuple vs, .tuple ws =>
    rw [Tree.masked, Tree.masked] at same
    cases same with
    | tuple items => exact .tuple (agreeList_of_masked (fun u among => agree_of_masked u) items)
  | .mapping vs, .mapping ws =>
    rw [Tree.masked, Tree.masked] at same
    cases same with
    | mapping order items =>
      rw [maskedItems_eq_map] at order
      -- a reordering of images is the images of a reordering
      obtain ⟨us, rfl, back⟩ := (congrFun (congrFun (List.eq_map_comp_perm _) _) vs).mpr order.symm
      have order' := back.symm
      rw [← maskedItems_eq_map] at items
      exact .mapping order' (agreeItems_of_masked (fun p among => agree_of_masked p.2) items)
  | .leaf _, .list _ | .leaf _, .tuple _ | .leaf _, .mapping _ | .list _, .leaf _ | .list _, .tuple _ | .list _, .mapping _
  | .tuple _, .leaf _ | .tuple _, .list _ | .tuple _, .mapping _ | .mapping _, .leaf _ | .mapping _, .list _
  | .mapping _, .tuple _ =>
    rw [Tree.masked, Tree.masked] at same
    cases same
termination_by v
decreasing_by
  · have smaller := List.sizeOf_lt_of_mem among
    rw [Tree.list.sizeOf_spec]
    omega
  · have smaller := List.sizeOf_lt_of_mem among
    rw [Tree.tuple.sizeOf_spec]
    omega
  · obtain ⟨k, u⟩ := p
    have smaller := List.sizeOf_lt_of_mem (order'.mem_iff.mpr among)
    rw [Prod.mk.sizeOf_spec] at smaller
    rw [Tree.mapping.sizeOf_spec]
    show sizeOf u < _
    omega

theorem masked_same_iff {v w : Tree κ α} : Same (v.masked secret mask) (w.masked secret mask) ↔ Agree secret v w :=
  ⟨agree_of_masked v w, Agree.masked⟩

mutual
/-- A value without secret keys is its own copy. -/
theorem Tree.Open.masked_eq : ∀ {v : Tree κ α}, v.Open secret → v.masked secret mask = v
  | .leaf _, _ => rfl
  | .list _, items => by rw [Tree.masked, maskedList_of_open items]
  | .tuple _, items => by rw [Tree.masked, maskedList_of_open items]
  | .mapping _, items => by rw [Tree.masked, maskedItems_of_open items]

theorem maskedList_of_open : ∀ {vs : List (Tree κ α)}, OpenList secret vs → maskedList secret mask vs = vs
  | [], _ => rfl
  | _ :: _, ⟨first, rest⟩ => by rw [maskedList, first.masked_eq, maskedList_of_open rest]

theorem maskedItems_of_open : ∀ {vs : List (κ × Tree κ α)}, OpenItems secret vs → maskedItems secret mask vs = vs
  | [], _ => rfl
  | (_, _) :: _, ⟨shown, first, rest⟩ => by
    rw [maskedItems, shown, first.masked_eq, maskedItems_of_open rest]
    rfl
end

mutual
/-- Masking a copy changes nothing. -/
theorem masked_masked : ∀ v : Tree κ α, (v.masked secret mask).masked secret mask = v.masked secret mask
  | .leaf _ => rfl
  | .list vs => by rw [Tree.masked, Tree.masked, maskedList_maskedList vs]
  | .tuple vs => by rw [Tree.masked, Tree.masked, maskedList_maskedList vs]
  | .mapping vs => by rw [Tree.masked, Tree.masked, maskedItems_maskedItems vs]

theorem maskedList_maskedList : ∀ vs : List (Tree κ α),
    maskedList secret mask (maskedList secret mask vs) = maskedList secret mask vs
  | [] => rfl
  | v :: vs => by rw [maskedList, maskedList, masked_masked v, maskedList_maskedList vs]

theorem maskedItems_maskedItems : ∀ vs : List (κ × Tree κ α),
    maskedItems secret mask (maskedItems secret mask vs) = maskedItems secret mask vs
  | [] => rfl
  | (k, v) :: vs => by
    rw [maskedItems, maskedItems, maskedItems_maskedItems vs]
    by_cases hidden : secret k = true
    · rw [if_pos hidden, if_pos hidden]
    · rw [if_neg hidden, if_neg hidden, masked_masked v]
end

end Masking
