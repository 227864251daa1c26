import CryptoQuant.Basic
import CryptoQuant.Lib.Run
import CryptoQuant.Lib.Text
import Mathlib.Data.List.Dedup
import Mathlib.Data.List.Sort
import Mathlib.Data.String.Basic
import Mathlib.Order.RelClasses

/-!
# The registry of indicators

`IndicatorRegistry` of `indicators/core.py`. Plugins and what their classes and the
factories make of keyword arguments are left to whoever registers them.
-/

namespace CryptoQuant.Indicators
set_option autoImplicit false

/-- The methods of `str` and the conversions of a text that the registry uses.
A conversion without a result raises `ValueError`. -/
structure Builtins (F : Type) where
  lower : String → String
  isSpace : Char → Bool
  int : String → Option ℤ
  float : String → Option F

/-- `text.strip()`. -/
def Builtins.strip {F : Type} (py : Builtins F) (text : String) : String := String.ofList (Text.strip py.isSpace text.toList)

/-- What a parameter is turned into. -/
inductive ParamValue (F : Type)
  | bool (b : Bool)
  | int (n : ℤ)
  | float (x : F)
  | str (text : String)
deriving DecidableEq

/-- `type(value).__name__`. -/
def ParamValue.typeName {F : Type} : ParamValue F → String
  | .bool _ => "bool"
  | .int _ => "int"
  | .float _ => "float"
  | .str _ => "str"

/-- Keyword arguments. -/
abbrev Kwargs (F : Type) := Py.Dict String (ParamValue F)

/-- `KeyError`, with its text. -/
def keyError (message : String) : PyError := .external message

/-- `TypeError`, with its text. -/
def typeError (message : String) : PyError := .external message

/-- A plugin by its name, and by its class that makes others. -/
structure PluginType (P F : Type) where
  name : P → Except PyError String
  new : P → Kwargs F → Except PyError P

/-- `IndicatorRegistry`. -/
structure IndicatorRegistry (P F : Type) where
  plugins : Py.Dict String P
  factories : Py.Dict String (Kwargs F → Except PyError P)

variable {P F : Type}

/-- `_coerce`. -/
def coerce (py : Builtins F) (value : String) : ParamValue F :=
  let lowered := py.lower (py.strip value)
  if lowered = "true" ∨ lowered = "false" then .bool (lowered = "true")
  else
    match py.int value with
    | some n => .int n
    | none =>
      match py.float value with
      | some x => .float x
      | none => .str value

namespace IndicatorRegistry

/-- The registry without indicators. -/
def empty : IndicatorRegistry P F := ⟨.empty, .empty⟩

/-- `name.strip().lower()`. -/
def key (py : Builtins F) (name : String) : String := py.lower (py.strip name)

/-- `register`. -/
def register (py : Builtins F) (type : PluginType P F) (registry : IndicatorRegistry P F) (plugin : P) :
    Except PyError Unit × IndicatorRegistry P F :=
  match type.name plugin with
  | .error e => (.error e, registry)
  | .ok name =>
    if key py name = "" then (.error (.valueError "indicator name cannot be empty"), registry)
    else (.ok (), { registry with plugins := registry.plugins.set (key py name) plugin })

/-- `register_factory`. -/
def registerFactory (py : Builtins F) (registry : IndicatorRegistry P F) (name : String)
    (factory : Kwargs F → Except PyError P) : Except PyError Unit × IndicatorRegistry P F :=
  if key py name = "" then (.error (.valueError "indicator name cannot be empty"), registry)
  else (.ok (), { registry with factories := registry.factories.set (key py name) factory })

/-- `get`. -/
def get (py : Builtins F) (registry : IndicatorRegistry P F) (name : String) : Except PyError P :=
  match registry.plugins.get? (key py name) with
  | none => .error (keyError s!"indicator not found: {name}")
  | some plugin => .ok plugin

/-- `create`. -/
def create (py : Builtins F) (type : PluginType P F) (registry : IndicatorRegistry P F) (name : String)
    (params : Py.Dict String String) : Except PyError P :=
  let values : Kwargs F := params.mapValues fun _ value => coerce py value
  match registry.factories.get? (key py name) with
  | some factory => factory values
  | none => do
    let plugin ← registry.get py name
    if values.items = [] then return plugin
    type.new plugin values

/-- `list_names`. -/
def listNames (registry : IndicatorRegistry P F) : List String :=
  (registry.plugins.keys ++ registry.factories.keys).dedup.insertionSort fun a b => a ≤ b

/-- A call that registers something. -/
inductive Registration (P F : Type)
  | plugin (registered : P)
  | factory (name : String) (registered : Kwargs F → Except PyError P)

/-- The registry, registration by registration. -/
def machine (py : Builtins F) (type : PluginType P F) :
    Run.Machine (IndicatorRegistry P F) (Registration P F) (Except PyError Unit) where
  call registry
    | .plugin plugin => registry.register py type plugin
    | .factory name factory => registry.registerFactory py name factory

/-! ## What a registry holds -/

/-- A value written at a key, as seen at the key `k`. No key is empty. -/
def written {ν : Type} (key k : String) (value : ν) : Option ν := if key = k ∧ k ≠ "" then some value else none

theorem get?_written {ν : Type} {key : String} (named : key ≠ "") (k : String) (value : ν) (d : Py.Dict String ν) :
    (d.set key value).get? k = (written key k value).or (d.get? k) := by
  rw [Py.Dict.get?_set, written]
  by_cases here : key = k
  · subst here
    rw [if_pos rfl, if_pos ⟨rfl, named⟩, Option.some_or]
  · rw [if_neg (Ne.symm here), if_neg fun both => here both.1, Option.none_or]

/-- The plugin of a registration, if it is one under the key. -/
def Registration.pluginAt (py : Builtins F) (type : PluginType P F) (k : String) : Registration P F → Option P
  | .plugin registered =>
    match type.name registered with
    | .ok name => written (key py name) k registered
    | .error _ => none
  | .factory .. => none

/-- The factory of a registration, if it is one under the key. -/
def Registration.factoryAt (py : Builtins F) (k : String) : Registration P F → Option (Kwargs F → Except PyError P)
  | .plugin .. => none
  | .factory name registered => written (key py name) k registered

variable (py : Builtins F) (type : PluginType P F)

/-- **Step lemma**: a registration writes at its own key. -/
theorem plugins_next (registry : IndicatorRegistry P F) (call : Registration P F) (k : String) :
    ((machine py type).next registry call).plugins.get? k = (call.pluginAt py type k).or (registry.plugins.get? k) := by
  cases call with
  | plugin plugin =>
    show (registry.register py type plugin).2.plugins.get? k = _
    simp only [register, Registration.pluginAt]
    cases type.name plugin with
    | error e => simp
    | ok name =>
      by_cases nameless : key py name = ""
      · simp [nameless, written]
      · simp [nameless, get?_written]
  | factory name factory =>
    show (registry.registerFactory py name factory).2.plugins.get? k = registry.plugins.get? k
    unfold registerFactory
    split <;> rfl

theorem factories_next (registry : IndicatorRegistry P F) (call : Registration P F) (k : String) :
    ((machine py type).next registry call).factories.get? k = (call.factoryAt py k).or (registry.factories.get? k) := by
  cases call with
  | plugin plugin =>
    show (registry.register py type plugin).2.factories.get? k = registry.factories.get? k
    simp only [register]
    cases type.name plugin with
    | error e => rfl
    | ok name => by_cases nameless : key py name = "" <;> simp [nameless]
  | factory name factory =>
    show (registry.registerFactory py name factory).2.factories.get? k = _
    by_cases nameless : key py name = ""
    · simp [registerFactory, Registration.factoryAt, nameless, written]
    · simp [registerFactory, Registration.factoryAt, nameless, get?_written]

/-- The plugin registered last under the key. -/
def lastPlugin (calls : List (Registration P F)) (k : String) : Option P :=
  calls.reverse.findSome? (Registration.pluginAt py type k)

/-- The factory registered last under the key. -/
def lastFactory (calls : List (Registration P F)) (k : String) : Option (Kwargs F → Except PyError P) :=
  calls.reverse.findSome? (Registration.factoryAt py k)

/-- **Run lemma**: a registry holds what was registered last. -/
theorem holds_last (calls : List (Registration P F)) (k : String) :
    ((machine py type).after empty calls).plugins.get? k = lastPlugin py type calls k ∧
      ((machine py type).after empty calls).factories.get? k = lastFactory py calls k := by
  induction calls using List.reverseRecOn with
  | nil => exact ⟨rfl, rfl⟩
  | append_singleton calls call ih =>
    rw [Run.Machine.after_snoc, plugins_next, factories_next, ih.1, ih.2]
    unfold lastPlugin lastFactory
    rw [List.reverse_append, List.reverse_singleton, List.singleton_append, List.findSome?_cons, List.findSome?_cons]
    constructor
    · cases call.pluginAt py type k <;> rfl
    · cases call.factoryAt py k <;> rfl

/-- The names listed are in order, once each, and are the keys of what is registered. -/
theorem listNames_exact (registry : IndicatorRegistry P F) :
    registry.listNames.Pairwise (· < ·) ∧
      ∀ k, k ∈ registry.listNames ↔ registry.plugins.get? k ≠ none ∨ registry.factories.get? k ≠ none := by
  constructor
  · have once : registry.listNames.Nodup :=
      (List.perm_insertionSort _ _).nodup_iff.mpr (List.nodup_dedup _)
    have ordered : registry.listNames.Pairwise (· ≤ ·) := List.pairwise_insertionSort _ _
    exact ordered.imp₂ (fun a b le ne => lt_of_le_of_ne le ne) once
  · intro k
    rw [listNames, List.mem_insertionSort, List.mem_dedup, List.mem_append, Ne, Ne, Py.Dict.get?_eq_none_iff,
      Py.Dict.get?_eq_none_iff, not_not, not_not]

end IndicatorRegistry

end CryptoQuant.Indicators
