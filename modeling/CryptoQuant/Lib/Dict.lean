import Mathlib.Data.List.Induction
import Mathlib.Data.List.Nodup
import Mathlib.Algebra.BigOperators.Group.List.Basic

/-!
# Insertion-ordered dictionaries

A `Dict` is a finite map that remembers the order in which its keys were first
written, as Python's `dict` does: writing a present key replaces its value in
place, writing an absent one appends it. That no key occurs twice is a field,
so every dictionary that can be built has it.
-/

namespace Py
set_option autoImplicit false

/-- A finite map as its items in insertion order, no key twice. -/
structure Dict (κ ν : Type) where
  items : List (κ × ν)
  nodup : (items.map Prod.fst).Nodup

namespace Dict
variable {κ ν ν' : Type}

/-- The dictionary without items. -/
def empty : Dict κ ν := ⟨[], List.nodup_nil⟩

def keys (d : Dict κ ν) : List κ := d.items.map Prod.fst

def values (d : Dict κ ν) : List ν := d.items.map Prod.snd

theorem nodup_keys (d : Dict κ ν) : d.keys.Nodup := d.nodup

/-- `{k: f(k, v) for k, v in d.items()}`. -/
def mapValues (f : κ → ν → ν') (d : Dict κ ν) : Dict κ ν' where
  items := d.items.map fun p => (p.1, f p.1 p.2)
  nodup := by
    rw [List.map_map]
    exact d.nodup

@[simp] theorem keys_mapValues (f : κ → ν → ν') (d : Dict κ ν) : (d.mapValues f).keys = d.keys :=
  List.map_map

variable [DecidableEq κ]

/-- Write `v` at `k` in an item list: in place when present, else at the end. -/
def setItem (k : κ) (v : ν) : List (κ × ν) → List (κ × ν)
  | [] => [(k, v)]
  | (a, b) :: rest => if a = k then (a, v) :: rest else (a, b) :: setItem k v rest

theorem map_fst_setItem (k : κ) (v : ν) (l : List (κ × ν)) :
    (setItem k v l).map Prod.fst =
      if k ∈ l.map Prod.fst then l.map Prod.fst else l.map Prod.fst ++ [k] := by
  induction l with
  | nil => simp [setItem]
  | cons p rest ih =>
    obtain ⟨a, b⟩ := p
    by_cases h : a = k
    · simp [setItem, h]
    · have h' : k ≠ a := fun e => h e.symm
      rw [setItem, if_neg h, List.map_cons, ih, List.map_cons]
      by_cases hk : k ∈ rest.map Prod.fst
      · rw [if_pos hk, if_pos (List.mem_cons_of_mem _ hk)]
      · rw [if_neg hk, if_neg (by simp only [List.mem_cons, h', hk, or_self, not_false_iff])]
        rfl

/-- `d[k] = v`. -/
def set (d : Dict κ ν) (k : κ) (v : ν) : Dict κ ν where
  items := setItem k v d.items
  nodup := by
    rw [map_fst_setItem]
    split
    · exact d.nodup
    · rename_i absent
      exact List.Nodup.append d.nodup (List.nodup_singleton k)
        (fun a ha hk => absent (List.mem_singleton.mp hk ▸ ha))

/-- `d.get(k)`. -/
def get? (d : Dict κ ν) (k : κ) : Option ν := d.items.lookup k

/-- `d.get(k, default)`. -/
def getD (d : Dict κ ν) (k : κ) (default : ν) : ν := (d.get? k).getD default

/-- `d.pop(k, None)`. -/
def erase (d : Dict κ ν) (k : κ) : Dict κ ν where
  items := d.items.filter fun p => p.1 ≠ k
  nodup := d.nodup.sublist (List.filter_sublist.map Prod.fst)

/-- `{k: f(k) for k in ks}`. -/
def ofKeys (ks : List κ) (f : κ → ν) : Dict κ ν :=
  ks.foldl (fun d k => d.set k (f k)) empty

theorem keys_set (d : Dict κ ν) (k : κ) (v : ν) :
    (d.set k v).keys = if k ∈ d.keys then d.keys else d.keys ++ [k] :=
  map_fst_setItem k v d.items

/-- Writing a present key keeps the keys and their order. -/
theorem keys_set_of_mem {d : Dict κ ν} {k : κ} (h : k ∈ d.keys) (v : ν) :
    (d.set k v).keys = d.keys := by
  rw [keys_set, if_pos h]

theorem mem_keys_set {d : Dict κ ν} {k a : κ} {v : ν} :
    a ∈ (d.set k v).keys ↔ a = k ∨ a ∈ d.keys := by
  rw [keys_set]
  split
  · rename_i h
    exact ⟨Or.inr, fun o => o.elim (fun e => e ▸ h) id⟩
  · rw [List.mem_append, List.mem_singleton, or_comm]

theorem lookup_cons_if (a b : κ) (w : ν) (l : List (κ × ν)) :
    ((b, w) :: l).lookup a = if a = b then some w else l.lookup a := by
  rw [List.lookup_cons]
  by_cases h : a = b
  · rw [if_pos h, beq_iff_eq.mpr h]
  · rw [if_neg h, beq_eq_false_iff_ne.mpr h]

theorem lookup_setItem (k a : κ) (v : ν) (l : List (κ × ν)) :
    (setItem k v l).lookup a = if a = k then some v else l.lookup a := by
  induction l with
  | nil => rw [setItem, lookup_cons_if]
  | cons p rest ih =>
    obtain ⟨b, w⟩ := p
    by_cases hb : b = k
    · subst hb
      rw [setItem, if_pos rfl, lookup_cons_if, lookup_cons_if]
      by_cases h : a = b <;> simp only [h, if_true, if_false]
    · rw [setItem, if_neg hb, lookup_cons_if, lookup_cons_if, ih]
      by_cases hab : a = b
      · subst hab
        rw [if_pos rfl, if_neg hb, if_pos rfl]
      · rw [if_neg hab, if_neg hab]

theorem get?_mapValues (f : κ → ν → ν') (d : Dict κ ν) (k : κ) : (d.mapValues f).get? k = (d.get? k).map (f k) := by
  obtain ⟨l, nodup⟩ := d
  show (l.map _).lookup k = (l.lookup k).map _
  clear nodup
  induction l with
  | nil => rfl
  | cons p rest ih =>
    rw [List.map_cons, lookup_cons_if, lookup_cons_if, ih]
    split
    · rename_i here
      rw [here]
      rfl
    · rfl

theorem get?_set (d : Dict κ ν) (k a : κ) (v : ν) :
    (d.set k v).get? a = if a = k then some v else d.get? a :=
  lookup_setItem k a v d.items

@[simp] theorem get?_set_self (d : Dict κ ν) (k : κ) (v : ν) : (d.set k v).get? k = some v := by
  rw [get?_set, if_pos rfl]

theorem get?_set_ne (d : Dict κ ν) {k a : κ} (v : ν) (h : a ≠ k) :
    (d.set k v).get? a = d.get? a := by
  rw [get?_set, if_neg h]

theorem getD_set (d : Dict κ ν) (k a : κ) (v z : ν) :
    (d.set k v).getD a z = if a = k then v else d.getD a z := by
  unfold getD
  rw [get?_set]
  split <;> rfl

@[simp] theorem getD_set_self (d : Dict κ ν) (k : κ) (v z : ν) : (d.set k v).getD k z = v := by
  rw [getD_set, if_pos rfl]

theorem mem_keys_iff {d : Dict κ ν} {k : κ} : k ∈ d.keys ↔ ∃ v, d.get? k = some v := by
  rw [← Option.isSome_iff_exists, get?, List.lookup_isSome_iff]
  simp only [keys, List.mem_map, beq_iff_eq]
  exact ⟨fun ⟨p, hp, e⟩ => ⟨p, hp, e.symm⟩, fun ⟨p, hp, e⟩ => ⟨p, hp, e.symm⟩⟩

theorem get?_eq_none_iff {d : Dict κ ν} {k : κ} : d.get? k = none ↔ k ∉ d.keys := by
  rw [mem_keys_iff, not_exists, Option.eq_none_iff_forall_ne_some]

/-- An item is found at its key. -/
theorem get?_of_mem {d : Dict κ ν} {k : κ} {v : ν} (h : (k, v) ∈ d.items) : d.get? k = some v := by
  obtain ⟨l, nodup⟩ := d
  simp only [get?]
  induction l with
  | nil => cases h
  | cons p rest ih =>
    obtain ⟨a, b⟩ := p
    rw [List.map_cons, List.nodup_cons] at nodup
    rcases List.mem_cons.mp h with here | later
    · cases here
      rw [List.lookup_cons_self]
    · have different : k ≠ a := by
        rintro rfl
        exact nodup.1 (List.mem_map.mpr ⟨_, later, rfl⟩)
      rw [lookup_cons_if, if_neg different]
      exact ih nodup.2 later

/-- A dictionary that is not empty has a key, and the other way round. -/
theorem items_ne_nil_iff (d : Dict κ ν) : d.items ≠ [] ↔ ∃ k, d.get? k ≠ none := by
  constructor
  · intro filled
    obtain ⟨⟨k, v⟩, rest, items⟩ := List.exists_cons_of_ne_nil filled
    have found : d.get? k = some v := get?_of_mem (items ▸ List.mem_cons_self)
    exact ⟨k, by rw [found]; exact Option.some_ne_none v⟩
  · rintro ⟨k, found⟩ empty
    apply found
    rw [get?, empty, List.lookup_nil]

theorem mem_of_get? {d : Dict κ ν} {k : κ} {v : ν} (h : d.get? k = some v) : (k, v) ∈ d.items := by
  obtain ⟨before, after, split, -⟩ := List.lookup_eq_some_iff.mp h
  rw [split]
  exact List.mem_append_right _ List.mem_cons_self

/-- Dictionaries with the same keys in the same order and the same values are the same. -/
theorem ext_get? {d e : Dict κ ν} (keys : d.keys = e.keys) (values : ∀ k, d.get? k = e.get? k) : d = e := by
  obtain ⟨l, nodup⟩ := d
  obtain ⟨m, nodup'⟩ := e
  congr 1
  simp only [Dict.keys, get?] at keys values
  induction l generalizing m with
  | nil => exact (List.map_eq_nil_iff.mp keys.symm).symm
  | cons p l ih =>
    cases m with
    | nil => cases keys
    | cons q m =>
      rw [List.map_cons, List.map_cons, List.cons.injEq] at keys
      rw [List.map_cons, List.nodup_cons] at nodup nodup'
      obtain ⟨k, v⟩ := p
      obtain ⟨k', w⟩ := q
      obtain ⟨rfl, rest⟩ : k = k' ∧ _ := keys
      have here := values k
      rw [List.lookup_cons_self, List.lookup_cons_self, Option.some_inj] at here
      rw [here, ih nodup.2 m nodup'.2 rest fun a => ?_]
      have there := values a
      rw [lookup_cons_if, lookup_cons_if] at there
      by_cases same : a = k
      · subst same
        have absent : ∀ {l : List (κ × ν)}, a ∉ l.map Prod.fst → l.lookup a = none := fun {l} missing =>
          List.lookup_eq_none_iff.mpr fun p member => by
            rw [bne_iff_ne]
            exact fun equal => missing (List.mem_map.mpr ⟨p, member, equal.symm⟩)
        rw [absent nodup.1, absent nodup'.1]
      · rwa [if_neg same, if_neg same] at there

/-- Writing an absent key appends the item. -/
theorem items_set_of_not_mem {d : Dict κ ν} {k : κ} (h : k ∉ d.keys) (v : ν) :
    (d.set k v).items = d.items ++ [(k, v)] := by
  obtain ⟨l, nodup⟩ := d
  simp only [keys] at h
  show setItem k v l = l ++ [(k, v)]
  clear nodup
  induction l with
  | nil => rfl
  | cons p rest ih =>
    obtain ⟨a, b⟩ := p
    simp only [List.map_cons, List.mem_cons, not_or] at h
    rw [setItem, if_neg (Ne.symm h.1), ih h.2, List.cons_append]

/-- What a dictionary holds after a write was written or was there. -/
theorem mem_items_set {d : Dict κ ν} {k : κ} {v : ν} {p : κ × ν} (member : p ∈ (d.set k v).items) :
    p = (k, v) ∨ p ∈ d.items := by
  have found := get?_of_mem member
  rw [get?_set] at found
  split at found
  · rename_i here
    exact .inl (Prod.ext here (Option.some.inj found).symm)
  · exact .inr (mem_of_get? found)

/-- Writing the items of a dictionary, in their order, makes the same dictionary. -/
theorem foldl_set_items (d : Dict κ ν) : d.items.foldl (fun e p => e.set p.1 p.2) empty = d := by
  obtain ⟨l, nodup⟩ := d
  induction l using List.reverseRecOn with
  | nil => rfl
  | append_singleton l p ih =>
    obtain ⟨before, -, apart⟩ := List.nodup_append'.mp (List.map_append ▸ nodup)
    show (l ++ [p]).foldl (fun e p => e.set p.1 p.2) empty = _
    rw [List.foldl_append, List.foldl_cons, List.foldl_nil, ih before]
    have fresh : p.1 ∉ (Dict.mk l before).keys := fun member => apart member List.mem_cons_self
    have items := items_set_of_not_mem fresh p.2
    cases written : (Dict.mk l before).set p.1 p.2
    rw [written] at items
    subst items
    rfl

/-- A sum over the items is a sum over the keys. -/
theorem sum_items {K : Type} [AddMonoid K] (d : Dict κ ν) (g : κ → ν → K) (z : ν) :
    (d.items.map fun p => g p.1 p.2).sum = (d.keys.map fun k => g k (d.getD k z)).sum := by
  rw [keys, List.map_map]
  congr 1
  apply List.map_congr_left
  intro p hp
  have found : d.get? p.1 = some p.2 := get?_of_mem hp
  simp only [Function.comp_apply, getD, found, Option.getD_some]

/-- A sum over the keys when one of them is written and only its term changes. -/
theorem sum_keys_set {K : Type} [AddCommGroup K] (d : Dict κ ν) {k : κ} (v : ν) {g g' : κ → K}
    (frame : ∀ a, a ≠ k → g' a = g a) (fresh : k ∉ d.keys → g k = 0) :
    ((d.set k v).keys.map g').sum = (d.keys.map g).sum + (g' k - g k) := by
  by_cases member : k ∈ d.keys
  · have terms : d.keys.map g' = d.keys.map fun a => if a = k then g' a else g a :=
      List.map_congr_left fun a _ => by by_cases here : a = k <;> simp [here, frame]
    rw [keys_set_of_mem member, terms, List.sum_map_ite_eq, List.count_eq_one_of_mem d.nodup_keys member, one_nsmul,
      add_comm]
  · rw [keys_set, if_neg member, List.map_append, List.sum_append, fresh member, sub_zero]
    congr 1
    · refine congrArg List.sum (List.map_congr_left fun a among => frame a ?_)
      rintro rfl
      exact member among
    · simp

/-- Writing a list of items: a key written at least once holds the value of one
of its items, the others keep what they had. -/
theorem get?_foldl_items {α : Type} (l : List α) (key : α → κ) (val : α → ν) (d : Dict κ ν) (k : κ) :
    (∃ q ∈ l, key q = k ∧ (l.foldl (fun d q => d.set (key q) (val q)) d).get? k = some (val q)) ∨
      ((∀ q ∈ l, key q ≠ k) ∧ (l.foldl (fun d q => d.set (key q) (val q)) d).get? k = d.get? k) := by
  induction l generalizing d with
  | nil => exact .inr ⟨fun _ h => absurd h List.not_mem_nil, rfl⟩
  | cons a l ih =>
    rw [List.foldl_cons]
    rcases ih (d.set (key a) (val a)) with ⟨q, member, same, found⟩ | ⟨absent, kept⟩
    · exact .inl ⟨q, List.mem_cons_of_mem _ member, same, found⟩
    · by_cases here : key a = k
      · refine .inl ⟨a, List.mem_cons_self, here, ?_⟩
        rw [kept, ← here, get?_set_self]
      · refine .inr ⟨fun q member => ?_, ?_⟩
        · rcases List.mem_cons.mp member with rfl | later
          · exact here
          · exact absent q later
        · rw [kept, get?_set_ne d _ (Ne.symm here)]

/-- Collecting a list of items by key: a key holds what its own items make of the default, in their order. -/
theorem get?_foldl_collect {α : Type} (l : List α) (key : α → κ) (step : ν → α → ν) (z : ν) (d : Dict κ ν) (k : κ) :
    (l.foldl (fun d x => d.set (key x) (step (d.getD (key x) z) x)) d).get? k =
      if ∃ x ∈ l, key x = k then some ((l.filter fun x => key x = k).foldl step (d.getD k z)) else d.get? k := by
  induction l generalizing d with
  | nil => rw [if_neg (by simp)]; rfl
  | cons a l ih =>
    rw [List.foldl_cons, ih]
    by_cases here : key a = k
    · subst here
      have own : ∃ x ∈ a :: l, key x = key a := ⟨a, List.mem_cons_self, rfl⟩
      rw [if_pos own, List.filter_cons_of_pos (by simp), List.foldl_cons, getD_set_self]
      split
      · rfl
      · rename_i later
        have rest : (l.filter fun x => key x = key a) = [] :=
          List.filter_eq_nil_iff.mpr fun x member own => later ⟨x, member, of_decide_eq_true own⟩
        rw [rest, get?_set_self]
        rfl
    · have same : (∃ x ∈ a :: l, key x = k) ↔ ∃ x ∈ l, key x = k := by
        simp only [List.mem_cons, exists_eq_or_imp, here, false_or]
      rw [List.filter_cons_of_neg (by simpa using here), getD_set, if_neg (Ne.symm here), get?_set_ne d _ (Ne.symm here)]
      simp only [same]

/-- Rewriting the values that pass a test, each at its own key. -/
theorem get?_rewrite (d : Dict κ ν) (P : κ × ν → Prop) [DecidablePred P] (f : κ × ν → ν) (k : κ) :
    (d.items.foldl (fun d p => if P p then d.set p.1 (f p) else d) d).get? k =
      (d.get? k).map fun v => if P (k, v) then f (k, v) else v := by
  have filtered : d.items.foldl (fun d p => if P p then d.set p.1 (f p) else d) d =
      (d.items.filter fun p => decide (P p)).foldl (fun d p => d.set p.1 (f p)) d := by
    simp only [List.foldl_filter, decide_eq_true_eq]
  rw [filtered]
  rcases get?_foldl_items (d.items.filter fun p => decide (P p)) Prod.fst f d k with ⟨p, among, rfl, written⟩ | ⟨absent, kept⟩
  · obtain ⟨member, passes⟩ := List.mem_filter.mp among
    rw [written, get?_of_mem member, Option.map_some, if_pos (of_decide_eq_true passes)]
  · rw [kept]
    cases found : d.get? k with
    | none => rfl
    | some v =>
      have fails : ¬ P (k, v) := fun passes =>
        absent (k, v) (List.mem_filter.mpr ⟨mem_of_get? found, decide_eq_true passes⟩) rfl
      rw [Option.map_some, if_neg fails]

theorem get?_erase (d : Dict κ ν) (k a : κ) : (d.erase k).get? a = if a = k then none else d.get? a := by
  obtain ⟨l, nodup⟩ := d
  show (l.filter fun p => p.1 ≠ k).lookup a = if a = k then none else l.lookup a
  clear nodup
  induction l with
  | nil => simp
  | cons p rest ih =>
    rw [lookup_cons_if]
    by_cases removed : p.1 = k
    · rw [List.filter_cons_of_neg (by simp [removed]), ih]
      by_cases here : a = k
      · rw [if_pos here, if_pos here]
      · rw [if_neg here, if_neg here, if_neg (by rw [removed]; exact here)]
    · rw [List.filter_cons_of_pos (by simp [removed]), lookup_cons_if, ih]
      by_cases here : a = p.1
      · rw [if_pos here, if_pos here, if_neg (by rw [here]; exact removed)]
      · rw [if_neg here, if_neg here]

theorem get?_foldl_set (ks : List κ) (f : κ → ν) (d : Dict κ ν) (a : κ) :
    (ks.foldl (fun d k => d.set k (f k)) d).get? a = if a ∈ ks then some (f a) else d.get? a := by
  induction ks generalizing d with
  | nil => simp
  | cons k ks ih =>
    rw [List.foldl_cons, ih, get?_set]
    by_cases later : a ∈ ks
    · simp [later]
    · by_cases here : a = k
      · subst here; simp
      · simp [later, here]

theorem get?_ofKeys (ks : List κ) (f : κ → ν) (a : κ) :
    (ofKeys ks f).get? a = if a ∈ ks then some (f a) else none :=
  get?_foldl_set ks f empty a

theorem getD_ofKeys {ks : List κ} {a : κ} (h : a ∈ ks) (f : κ → ν) (z : ν) :
    (ofKeys ks f).getD a z = f a := by
  rw [getD, get?_ofKeys, if_pos h, Option.getD_some]

/-- Writing items with distinct keys lists the keys in the order of the items. -/
theorem keys_foldl_items {α : Type} {l : List α} (key : α → κ) (val : α → ν) (distinct : (l.map key).Nodup) :
    (l.foldl (fun d q => d.set (key q) (val q)) empty).keys = l.map key := by
  suffices general : ∀ (l : List α) (d : Dict κ ν), (d.keys ++ l.map key).Nodup →
      (l.foldl (fun d q => d.set (key q) (val q)) d).keys = d.keys ++ l.map key by
    exact general l empty distinct
  intro l
  induction l with
  | nil => intro d _; simp
  | cons q l ih =>
    intro d nodup
    have fresh : key q ∉ d.keys := fun member =>
      List.disjoint_of_nodup_append nodup member List.mem_cons_self
    have grown : (d.set (key q) (val q)).keys = d.keys ++ [key q] := by rw [keys_set, if_neg fresh]
    rw [List.foldl_cons, ih _ (by rw [grown, List.append_assoc]; exact nodup), grown,
      List.append_assoc]
    rfl

/-- A comprehension over distinct keys lists them in their order. -/
theorem keys_ofKeys {ks : List κ} (h : ks.Nodup) (f : κ → ν) : (ofKeys ks f).keys = ks :=
  (keys_foldl_items id f (by rwa [List.map_id])).trans (List.map_id ks)

/-- Its values are those of the keys, in their order. -/
theorem values_ofKeys {ks : List κ} (h : ks.Nodup) (f : κ → ν) : (ofKeys ks f).values = ks.map f := by
  have each : ∀ item ∈ (ofKeys ks f).items, item.2 = f item.1 := by
    intro item member
    have found := get?_of_mem member
    rw [get?_ofKeys] at found
    split at found
    · exact (Option.some.inj found).symm
    · cases found
  rw [values, List.map_congr_left each]
  exact (List.map_map.symm.trans (congrArg (List.map f) (keys_ofKeys h f)))

end Dict

end Py
