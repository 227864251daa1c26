import CryptoQuant.Compliance.Chain
import CryptoQuant.Lib.Masking
import Mathlib.Data.String.Basic

/-!
# Secrets do not reach the log

`redact_secrets` in full: any keys, any leaves, a set of secret names of the
caller's, put in lower case again at every level. Lowering twice changes nothing,
so every level masks the same keys, and the result is the masked tree.
-/

namespace CryptoQuant
set_option autoImplicit false

open Masking

section Redact
variable {κ α : Type} (lower : String → String) (str : κ → String) (mask : α)

/-- `{k.lower() for k in (secret_keys or DEFAULT_SECRET_KEYS)}`. -/
def secretNames (secretKeys : Option (List String)) : List String :=
  let given := secretKeys.getD []
  (if given = [] then defaultSecretKeys else given).map lower

mutual
/-- `redact_secrets(value, mask=mask, secret_keys=secret_keys)`; `str` is `str` of a key. -/
def redact (secretKeys : Option (List String)) : Tree κ α → Tree κ α
  | .mapping items => .mapping (redactEntries (secretNames lower secretKeys) items)
  | .tuple items => .tuple (redactElements (secretNames lower secretKeys) items)
  | .list items => .list (redactElements (secretNames lower secretKeys) items)
  | .leaf a => .leaf a

def redactElements (keys : List String) : List (Tree κ α) → List (Tree κ α)
  | [] => []
  | v :: rest => redact (some keys) v :: redactElements keys rest

def redactEntries (keys : List String) : List (κ × Tree κ α) → List (κ × Tree κ α)
  | [] => []
  | (k, v) :: rest =>
    (k, if lower (str k) ∈ keys then .leaf mask else redact (some keys) v) :: redactEntries keys rest
end

/-- The key matches a secret name, whatever their cases are. -/
def isSecret (secretKeys : Option (List String)) (key : κ) : Bool :=
  decide (lower (str key) ∈ secretNames lower secretKeys)

theorem secretNames_ne_nil (secretKeys : Option (List String)) : secretNames lower secretKeys ≠ [] := by
  unfold secretNames
  simp only
  split
  · simp [defaultSecretKeys]
  · simpa using ‹_›

end Redact

section Masked
variable {κ α : Type} {lower : String → String} {str : κ → String} {mask : α}

/-- The names handed down to the next level are lowered once more, to the same names. -/
theorem secretNames_some (idempotent : ∀ s, lower (lower s) = lower s) (secretKeys : Option (List String)) :
    secretNames lower (some (secretNames lower secretKeys)) = secretNames lower secretKeys := by
  have given : secretNames lower (some (secretNames lower secretKeys)) = (secretNames lower secretKeys).map lower := by
    rw [secretNames, Option.getD_some]
    exact congrArg (List.map lower) (if_neg (secretNames_ne_nil lower secretKeys))
  rw [given]
  unfold secretNames
  rw [List.map_map]
  exact List.map_congr_left fun name _ => idempotent name

mutual
/-- **Redaction is masking**: every level masks the keys that the first one does. -/
theorem redact_eq_masked (idempotent : ∀ s, lower (lower s) = lower s) (secretKeys : Option (List String)) :
    ∀ v : Tree κ α, redact lower str mask secretKeys v = v.masked (isSecret lower str secretKeys) mask
  | .leaf _ => by rw [redact, Tree.masked]
  | .list vs => by rw [redact, Tree.masked, redactElements_eq_masked idempotent secretKeys vs]
  | .tuple vs => by rw [redact, Tree.masked, redactElements_eq_masked idempotent secretKeys vs]
  | .mapping vs => by rw [redact, Tree.masked, redactEntries_eq_masked idempotent secretKeys vs]

theorem redactElements_eq_masked (idempotent : ∀ s, lower (lower s) = lower s) (secretKeys : Option (List String)) :
    ∀ vs : List (Tree κ α), redactElements lower str mask (secretNames lower secretKeys) vs =
      maskedList (isSecret lower str secretKeys) mask vs
  | [] => by rw [redactElements, maskedList]
  | v :: vs => by
    have first := redact_eq_masked idempotent (some (secretNames lower secretKeys)) v
    unfold isSecret at first
    rw [secretNames_some idempotent] at first
    rw [redactElements, maskedList, first, redactElements_eq_masked idempotent secretKeys vs]
    rfl

theorem redactEntries_eq_masked (idempotent : ∀ s, lower (lower s) = lower s) (secretKeys : Option (List String)) :
    ∀ vs : List (κ × Tree κ α), redactEntries lower str mask (secretNames lower secretKeys) vs =
      maskedItems (isSecret lower str secretKeys) mask vs
  | [] => by rw [redactEntries, maskedItems]
  | (k, v) :: vs => by
    have first := redact_eq_masked idempotent (some (secretNames lower secretKeys)) v
    unfold isSecret at first
    rw [secretNames_some idempotent] at first
    rw [redactEntries, maskedItems, first, redactEntries_eq_masked idempotent secretKeys vs]
    simp only [isSecret, decide_eq_true_eq]
    rfl
end

end Masked

/-! ## The payloads of the audit trail -/

/-- A lowered character is left by lowering. -/
theorem lowerChars_toLower {c : Char} (kelvin : c.val ≠ 0x212A) (dotted : c.val ≠ 0x130) :
    lowerChars c.toLower = [c.toLower] := by
  by_cases upper : c.val ≥ 'A'.val ∧ c.val ≤ 'Z'.val
  · have shifted : c.toLower.val = c.val + 32 := by
      unfold Char.toLower
      rw [dif_pos upper]
      rfl
    have low : 97 ≤ c.toLower.val ∧ c.toLower.val ≤ 122 := by
      rw [shifted]
      have least : 65 ≤ c.val := upper.1
      have most : c.val ≤ 90 := upper.2
      constructor <;> grind
    have stays : c.toLower.toLower = c.toLower := by
      have notUpper : ¬ (c.toLower.val ≥ 'A'.val ∧ c.toLower.val ≤ 'Z'.val) := by
        intro both
        have most : c.toLower.val ≤ 90 := both.2
        grind
      generalize c.toLower = d at notUpper
      unfold Char.toLower
      exact dif_neg notUpper
    unfold lowerChars
    rw [if_neg (by grind), if_neg (by grind), stays]
  · have same : c.toLower = c := by
      unfold Char.toLower
      exact dif_neg upper
    rw [same]
    unfold lowerChars
    rw [if_neg kelvin, if_neg dotted, same]

/-- `str.lower()` twice is `str.lower()`. -/
theorem strLower_strLower (s : String) : strLower (strLower s) = strLower s := by
  have lowered : ∀ c : Char, (lowerChars c).flatMap lowerChars = lowerChars c := by
    intro c
    by_cases kelvin : c.val = 0x212A
    · rw [show lowerChars c = ['k'] from if_pos kelvin]
      decide
    by_cases dotted : c.val = 0x130
    · rw [show lowerChars c = ['i', Char.ofNat 0x307] from (if_neg kelvin).trans (if_pos dotted)]
      decide
    · rw [show lowerChars c = [c.toLower] from (if_neg kelvin).trans (if_neg dotted), List.flatMap_singleton,
        lowerChars_toLower kelvin dotted]
  unfold strLower
  rw [String.toList_ofList, List.flatMap_assoc]
  exact congrArg String.ofList (congrArg (List.flatMap · s.toList) (funext lowered))

/-- The leaves of a payload. -/
inductive Primitive
  | none
  | bool (b : Bool)
  | int (i : ℤ)
  | float (x : WrittenFloat)
  | text (s : String)

mutual
/-- A payload as a tree. -/
def Value.tree : Value → Tree String Primitive
  | .mapping items => .mapping (treeItems items)
  | .tuple items => .tuple (treeList items)
  | .list items => .list (treeList items)
  | .none => .leaf .none
  | .bool b => .leaf (.bool b)
  | .int i => .leaf (.int i)
  | .float x => .leaf (.float x)
  | .text s => .leaf (.text s)

def treeList : List Value → List (Tree String Primitive)
  | [] => []
  | v :: rest => v.tree :: treeList rest

def treeItems : List (String × Value) → List (String × Tree String Primitive)
  | [] => []
  | (k, v) :: rest => (k, v.tree) :: treeItems rest
end

/-- The key is one of the default secret names. -/
abbrev isDefaultSecret (key : String) : Bool := isSecret strLower id none key

mutual
/-- The redaction of a payload is that of its tree, under the default names. -/
theorem tree_redactWith : ∀ v : Value,
    (redactWith "***" (defaultSecretKeys.map strLower) v).tree = v.tree.masked isDefaultSecret (.text "***")
  | .none => by rw [redactWith, Value.tree, Tree.masked]
  | .bool _ => by rw [redactWith, Value.tree, Tree.masked]
  | .int _ => by rw [redactWith, Value.tree, Tree.masked]
  | .float _ => by rw [redactWith, Value.tree, Tree.masked]
  | .text _ => by rw [redactWith, Value.tree, Tree.masked]
  | .list vs => by rw [redactWith, Value.tree, Value.tree, Tree.masked, treeList_redactList vs]
  | .tuple vs => by rw [redactWith, Value.tree, Value.tree, Tree.masked, treeList_redactList vs]
  | .mapping vs => by rw [redactWith, Value.tree, Value.tree, Tree.masked, treeItems_redactItems vs]

theorem treeList_redactList : ∀ vs : List Value,
    treeList (redactList "***" (defaultSecretKeys.map strLower) vs) =
      maskedList isDefaultSecret (.text "***") (treeList vs)
  | [] => by rw [redactList, treeList, maskedList]
  | v :: vs => by rw [redactList, treeList, treeList, maskedList, tree_redactWith v, treeList_redactList vs]

theorem treeItems_redactItems : ∀ vs : List (String × Value),
    treeItems (redactItems "***" (defaultSecretKeys.map strLower) vs) =
      maskedItems isDefaultSecret (.text "***") (treeItems vs)
  | [] => by rw [redactItems, treeItems, maskedItems]
  | (k, v) :: vs => by
    have names : isDefaultSecret k = decide (strLower k ∈ defaultSecretKeys.map strLower) := rfl
    rw [redactItems, treeItems, treeItems, maskedItems, treeItems_redactItems vs, names]
    by_cases secret : strLower k ∈ defaultSecretKeys.map strLower
    · rw [if_pos secret, if_pos (decide_eq_true secret), Value.tree]
    · rw [if_neg secret, if_neg (by simpa using secret), tree_redactWith v]
end

/-- Payloads that agree outside secret keys are redacted to equal payloads. -/
theorem redactSecrets_same {v w : Value} (agree : Agree isDefaultSecret v.tree w.tree) :
    Same (redactSecrets v).tree (redactSecrets w).tree := by
  unfold redactSecrets
  rw [tree_redactWith, tree_redactWith]
  exact agree.masked

/-! ## What is hashed of a payload -/

/-- The JSON value of a leaf. -/
def Primitive.json : Primitive → Json
  | .none => .null
  | .bool b => .bool b
  | .int i => .int i
  | .float x => .float x
  | .text s => .string s

mutual
/-- What `json.dumps(value, sort_keys=True)` writes of a tree. -/
def treeJson : Tree String Primitive → Json
  | .leaf p => p.json
  | .list items => .array (elementsJson items)
  | .tuple items => .array (elementsJson items)
  | .mapping items => .object (sortKeys (entriesJson items))

def elementsJson : List (Tree String Primitive) → List Json
  | [] => []
  | v :: rest => treeJson v :: elementsJson rest

def entriesJson : List (String × Tree String Primitive) → List (String × Json)
  | [] => []
  | (k, v) :: rest => (k, treeJson v) :: entriesJson rest
end

mutual
theorem treeJson_tree : ∀ v : Value, treeJson v.tree = v.json
  | .none => by rw [Value.tree, treeJson, Value.json]; rfl
  | .bool _ => by rw [Value.tree, treeJson, Value.json]; rfl
  | .int _ => by rw [Value.tree, treeJson, Value.json]; rfl
  | .float _ => by rw [Value.tree, treeJson, Value.json]; rfl
  | .text _ => by rw [Value.tree, treeJson, Value.json]; rfl
  | .list vs => by rw [Value.tree, treeJson, Value.json, elementsJson_treeList vs]
  | .tuple vs => by rw [Value.tree, treeJson, Value.json, elementsJson_treeList vs]
  | .mapping vs => by rw [Value.tree, treeJson, Value.json, entriesJson_treeItems vs]

theorem elementsJson_treeList : ∀ vs : List Value, elementsJson (treeList vs) = jsonList vs
  | [] => by rw [treeList, elementsJson, jsonList]
  | v :: vs => by rw [treeList, elementsJson, jsonList, treeJson_tree v, elementsJson_treeList vs]

theorem entriesJson_treeItems : ∀ vs : List (String × Value), entriesJson (treeItems vs) = jsonItems vs
  | [] => by rw [treeItems, entriesJson, jsonItems]
  | (k, v) :: vs => by rw [treeItems, entriesJson, jsonItems, treeJson_tree v, entriesJson_treeItems vs]
end

theorem entriesJson_eq_map (items : List (String × Tree String Primitive)) :
    entriesJson items = items.map fun p => (p.1, treeJson p.2) := by
  induction items with
  | nil => rfl
  | cons p rest ih =>
    obtain ⟨k, v⟩ := p
    rw [entriesJson, ih, List.map_cons]

/-- Members with names of their own are sorted to one list, however they come. -/
theorem sortKeys_perm {a b : List (String × Json)} (order : a.Perm b) (distinct : (a.map Prod.fst).Nodup) :
    sortKeys a = sortKeys b := by
  let before (x y : String × Json) : Prop := x.1 ≤ y.1
  have : Std.Total before := ⟨fun x y => le_total x.1 y.1⟩
  have : IsTrans (String × Json) before := ⟨fun _ _ _ => le_trans⟩
  have sorted (l : List (String × Json)) : (sortKeys l).Pairwise before := List.pairwise_insertionSort before l
  have perm (l : List (String × Json)) : (sortKeys l).Perm l := List.perm_insertionSort _ l
  refine List.Perm.eq_of_pairwise ?_ (sorted a) (sorted b) ((perm a).trans (order.trans (perm b).symm))
  intro x y left right xy yx
  have inA : x ∈ a := (perm a).mem_iff.mp left
  have inB : y ∈ a := order.mem_iff.mpr ((perm b).mem_iff.mp right)
  exact List.inj_on_of_nodup_map distinct inA inB (le_antisymm xy yx)

mutual
/-- **Equal payloads are written alike**, as long as no mapping has a key twice. -/
theorem treeJson_of_same {v w : Tree String Primitive} : Same v w → v.Keyed → treeJson v = treeJson w
  | .leaf _, _ => rfl
  | .list items, keyed => by
    rw [Tree.Keyed] at keyed
    rw [treeJson, treeJson, elementsJson_of_same items keyed]
  | .tuple items, keyed => by
    rw [Tree.Keyed] at keyed
    rw [treeJson, treeJson, elementsJson_of_same items keyed]
  | @Agree.mapping _ _ _ vs us ws order items, keyed => by
    rw [Tree.Keyed, keyedItems_iff] at keyed
    obtain ⟨distinct, values⟩ := keyed
    have reordered := order.map fun p => (p.1, treeJson p.2)
    rw [← entriesJson_eq_map, ← entriesJson_eq_map] at reordered
    have names : ((entriesJson vs).map Prod.fst).Nodup := by
      rw [entriesJson_eq_map, List.map_map]
      exact distinct
    rw [treeJson, treeJson, sortKeys_perm reordered names, entriesJson_of_same items
      (keyedItems_iff.mpr fun p among => values p (order.mem_iff.mpr among))]

theorem elementsJson_of_same {vs ws : List (Tree String Primitive)} :
    AgreeList (fun _ => false) vs ws → KeyedList vs → elementsJson vs = elementsJson ws
  | .nil, _ => rfl
  | .cons first rest, ⟨keyed, others⟩ => by
    rw [elementsJson, elementsJson, treeJson_of_same first keyed, elementsJson_of_same rest others]

theorem entriesJson_of_same {vs ws : List (String × Tree String Primitive)} :
    AgreeItems (fun _ => false) vs ws → KeyedItems vs → entriesJson vs = entriesJson ws
  | .nil, _ => rfl
  | .shown first rest, ⟨keyed, others⟩ => by
    rw [entriesJson, entriesJson, treeJson_of_same first keyed, entriesJson_of_same rest others]
end

/-- The two events are the same, but for the order of the items in their payloads. -/
structure SameLogged (e e' : AuditEvent) : Prop where
  rest : e' = { e with payload := e'.payload }
  payload : Same e.payload.tree e'.payload.tree

/-- Payloads that agree outside secret keys are logged as the same event. -/
theorem nextEvent_same {trail : AuditTrail} {dumps : Json → String} {sha256 : String → String}
    (hashed : trail.computeHash = computeHash dumps sha256) (eventType actor : String) {v w : Value}
    (keyed : v.tree.Keyed) (agree : Agree isDefaultSecret v.tree w.tree) :
    SameLogged (trail.nextEvent eventType actor v) (trail.nextEvent eventType actor w) := by
  have same := redactSecrets_same agree
  have shown : (redactSecrets v).tree.Keyed := by
    unfold redactSecrets
    rw [tree_redactWith]
    exact keyed.masked
  have written : (redactSecrets v).json = (redactSecrets w).json := by
    rw [← treeJson_tree, ← treeJson_tree]
    exact treeJson_of_same same shown
  refine ⟨?_, same⟩
  unfold AuditTrail.nextEvent
  simp only [hashed, computeHash, json_canonical, written]

/-- Two values are redacted to equal ones exactly when they agree outside secret keys. -/
theorem redact_same_iff {κ α : Type} {lower : String → String} (idempotent : ∀ s, lower (lower s) = lower s)
    (str : κ → String) (mask : α) (secretKeys : Option (List String)) (v w : Tree κ α) :
    Same (redact lower str mask secretKeys v) (redact lower str mask secretKeys w) ↔
      Agree (isSecret lower str secretKeys) v w := by
  rw [redact_eq_masked idempotent, redact_eq_masked idempotent]
  exact masked_same_iff

/-- **Secrets do not influence the log.** Values that agree outside the keys that
match a secret name, in whatever order their mappings are, are redacted to equal values,
a value without such keys to itself, and a redacted value to itself. So the audit trail
appends the same event, with the same hash, for payloads that agree. -/
theorem redact_noninterference {κ α : Type} {lower : String → String} (idempotent : ∀ s, lower (lower s) = lower s)
    (str : κ → String) (mask : α) (secretKeys : Option (List String)) :
    (∀ v w : Tree κ α, Agree (isSecret lower str secretKeys) v w →
      Same (redact lower str mask secretKeys v) (redact lower str mask secretKeys w)) ∧
    (∀ v : Tree κ α, v.Open (isSecret lower str secretKeys) → redact lower str mask secretKeys v = v) ∧
    (∀ v : Tree κ α, redact lower str mask secretKeys (redact lower str mask secretKeys v) =
      redact lower str mask secretKeys v) ∧
    (∀ (trail : AuditTrail) (dumps : Json → String) (sha256 : String → String) (eventType actor : String) (v w : Value),
      trail.computeHash = computeHash dumps sha256 → v.tree.Keyed → Agree isDefaultSecret v.tree w.tree →
        ∃ e e', trail.append eventType actor v = (e, { trail with events := trail.events ++ [e] }) ∧
          trail.append eventType actor w = (e', { trail with events := trail.events ++ [e'] }) ∧
          SameLogged e e' ∧ e.eventHash = e'.eventHash) := by
  have masks := @redact_eq_masked κ α lower str mask idempotent secretKeys
  refine ⟨?_, ?_, ?_, ?_⟩
  · intro v w agree
    exact (redact_same_iff idempotent str mask secretKeys v w).mpr agree
  · intro v shown
    rw [masks, shown.masked_eq]
  · intro v
    rw [masks, masks, masked_masked]
  · intro trail dumps sha256 eventType actor v w hashed keyed agree
    have same := nextEvent_same hashed eventType actor keyed agree
    exact ⟨_, _, rfl, rfl, same, (congrArg AuditEvent.eventHash same.rest).symm⟩

/-- The names of the source under any cases, with numbers as keys beside texts. -/
theorem redact_noninterference_default :
    let str : String ⊕ ℕ → String := fun key => key.elim id toString
    let mask : String := "***"
    (∀ v w : Tree (String ⊕ ℕ) String, Agree (isSecret strLower str none) v w →
      Same (redact strLower str mask none v) (redact strLower str mask none w)) ∧
    (∀ v : Tree (String ⊕ ℕ) String, v.Open (isSecret strLower str none) → redact strLower str mask none v = v) ∧
    (∀ v : Tree (String ⊕ ℕ) String, redact strLower str mask none (redact strLower str mask none v) =
      redact strLower str mask none v) ∧
    (∀ (trail : AuditTrail) (dumps : Json → String) (sha256 : String → String) (eventType actor : String) (v w : Value),
      trail.computeHash = computeHash dumps sha256 → v.tree.Keyed → Agree isDefaultSecret v.tree w.tree →
        ∃ e e', trail.append eventType actor v = (e, { trail with events := trail.events ++ [e] }) ∧
          trail.append eventType actor w = (e', { trail with events := trail.events ++ [e'] }) ∧
          SameLogged e e' ∧ e.eventHash = e'.eventHash) :=
  redact_noninterference strLower_strLower _ _ _

end CryptoQuant
