import CryptoQuant.Indicators.Registry

/-!
# Indicators on the command line

`parse_indicator` and `_create_indicator_plugin` of `cli.py`. A text such as
`sma:window=20` names an indicator and its parameters. Written out and read back they are
the same, and the indicator made is the one registered last under the name.
-/

namespace CryptoQuant.Cli
set_option autoImplicit false

open Indicators (Builtins IndicatorRegistry ParamValue PluginType Kwargs typeError)
open Indicators.IndicatorRegistry (Registration key lastPlugin lastFactory)

variable {P F : Type}

/-- One round of the loop of `parse_indicator`, for a part of the text. -/
def addParam (py : Builtins F) (params : Py.Dict String String) (kv : List Char) : Py.Dict String String :=
  if kv = [] then params
  else
    let (k, v) := Text.partition '=' kv
    params.set (py.strip (String.ofList k)) (py.strip (String.ofList v))

/-- The loop of `parse_indicator`, where the text has parameters. -/
def parseParams (py : Builtins F) (paramsRaw : List Char) : Py.Dict String String :=
  if paramsRaw = [] then .empty else (paramsRaw.splitOn ',').foldl (addParam py) .empty

/-- `parse_indicator`. -/
def parseIndicator (py : Builtins F) (raw : String) : String × Py.Dict String String :=
  let (name, paramsRaw) := Text.partition ':' raw.toList
  (String.ofList name, parseParams py paramsRaw)

/-- A parameter that `registry.create(name, **params)` has given already. -/
def isGiven (param : String) : Bool := param = "self" ∨ param = "name"

/-- `_create_indicator_plugin`. The registry has `create`. -/
def createIndicatorPlugin (py : Builtins F) (type : PluginType P F) (registry : IndicatorRegistry P F) (name : String)
    (params : Py.Dict String String) : Except PyError P :=
  match params.keys.find? isGiven with
  | some param => .error (typeError s!"IndicatorRegistry.create() got multiple values for argument '{param}'")
  | none => registry.create py type name params

/-- The plugin that `cmd_backtest` runs, by the text of its `--indicator` option. -/
def indicatorOption (py : Builtins F) (type : PluginType P F) (registry : IndicatorRegistry P F) (raw : String) :
    Except PyError P :=
  let (name, params) := parseIndicator py raw
  createIndicatorPlugin py type registry name params

/-! ## The format -/

/-- A parameter as it is written. -/
def paramText (param : String × String) : String := param.1 ++ "=" ++ param.2

/-- An indicator as it is written: `sma:window=20`. -/
def indicatorText (indicator : String × Py.Dict String String) : String :=
  indicator.1 ++ ":" ++ ",".intercalate (indicator.2.items.map paramText)

/-- A parameter that can be written: no blanks at the ends of its texts, and no separators in them. -/
structure ParamWritable (py : Builtins F) (param : String × String) : Prop where
  key_strip : py.strip param.1 = param.1
  value_strip : py.strip param.2 = param.2
  key_eq : '=' ∉ param.1.toList
  key_comma : ',' ∉ param.1.toList
  value_comma : ',' ∉ param.2.toList

/-- An indicator that can be written. -/
structure Writable (py : Builtins F) (indicator : String × Py.Dict String String) : Prop where
  name_colon : ':' ∉ indicator.1.toList
  params : ∀ param ∈ indicator.2.items, ParamWritable py param

variable (py : Builtins F)

theorem strip_strip (text : String) : py.strip (py.strip text) = py.strip text := by
  simp [Builtins.strip]

theorem not_mem_strip {c : Char} {text : String} (free : c ∉ text.toList) : c ∉ (py.strip text).toList := by
  intro member
  rw [Builtins.strip, String.toList_ofList] at member
  exact free (Text.mem_of_mem_strip member)

/-- **Step lemma**: what is read from a part of the text can be written. -/
theorem addParam_writable {params : Py.Dict String String} {kv : List Char} (free : ',' ∉ kv)
    (before : ∀ param ∈ params.items, ParamWritable py param) : ∀ param ∈ (addParam py params kv).items, ParamWritable py param := by
  intro param member
  unfold addParam at member
  split at member
  · exact before param member
  rcases Py.Dict.mem_items_set member with rfl | old
  · refine ⟨strip_strip py _, strip_strip py _, not_mem_strip py ?_, not_mem_strip py ?_, not_mem_strip py ?_⟩
    · rw [String.toList_ofList]
      exact Text.not_mem_fst_partition '=' kv
    · rw [String.toList_ofList]
      exact fun member => free (Text.mem_of_mem_fst_partition member)
    · rw [String.toList_ofList]
      exact fun member => free (Text.mem_of_mem_snd_partition member)
  · exact before param old

/-- No parameters are an empty part of the text, which is skipped. -/
theorem parseParams_eq (paramsRaw : List Char) :
    parseParams py paramsRaw = (paramsRaw.splitOn ',').foldl (addParam py) .empty := by
  unfold parseParams
  split
  · rename_i none_
    rw [none_]
    rfl
  · rfl

/-- Whatever the text, what is read can be written. -/
theorem parseIndicator_writable (raw : String) : Writable py (parseIndicator py raw) := by
  constructor
  · show ':' ∉ (String.ofList (Text.partition ':' raw.toList).1).toList
    rw [String.toList_ofList]
    exact Text.not_mem_fst_partition ':' raw.toList
  · show ∀ param ∈ (parseParams py (Text.partition ':' raw.toList).2).items, ParamWritable py param
    rw [parseParams_eq]
    refine Run.foldl_invariant (P := fun params : Py.Dict String String => ∀ param ∈ params.items, ParamWritable py param)
      ?_ ?_
    · intro params kv part before
      exact addParam_writable py (Text.not_mem_of_mem_splitOn part) before
    · exact fun _ member => absurd member List.not_mem_nil

/-- A parameter that was written is read. -/
theorem addParam_paramText {param : String × String} (writable : ParamWritable py param) (params : Py.Dict String String) :
    addParam py params (paramText param).toList = params.set param.1 param.2 := by
  have text : (paramText param).toList = param.1.toList ++ '=' :: param.2.toList := by
    simp [paramText]
  rw [addParam, text, if_neg (by simp), Text.partition_append writable.key_eq]
  simp only [String.ofList_toList, writable.key_strip, writable.value_strip]

/-- An indicator that was written is read back. -/
theorem parseIndicator_indicatorText {indicator : String × Py.Dict String String} (writable : Writable py indicator) :
    parseIndicator py (indicatorText indicator) = indicator := by
  obtain ⟨name, params⟩ := indicator
  have text : (indicatorText (name, params)).toList =
      name.toList ++ ':' :: [','].intercalate (params.items.map fun param => (paramText param).toList) := by
    simp [indicatorText, String.toList_intercalate, Function.comp_def]
  rw [parseIndicator, text, Text.partition_append writable.name_colon]
  dsimp only
  rw [String.ofList_toList]
  congr 1
  rw [parseParams_eq]
  by_cases none_ : params.items = []
  · obtain ⟨items, nodup⟩ := params
    subst none_
    rfl
  · have commas : ∀ part ∈ params.items.map fun param => (paramText param).toList, ',' ∉ part := by
      rintro _ member
      obtain ⟨param, among, rfl⟩ := List.mem_map.mp member
      have free := writable.params param among
      simp [paramText, free.key_comma, free.value_comma]
    rw [List.splitOn_intercalate ',' commas (by simpa using none_), List.foldl_map]
    refine Eq.trans ?_ params.foldl_set_items
    exact List.foldl_ext _ _ _ fun read param among => addParam_paramText py (writable.params param among) read

/-- **What can be written.** Every text is read as an indicator that can be written, and these,
written out, are exactly those that are read back. -/
theorem indicatorText_exact (indicator : String × Py.Dict String String) :
    (parseIndicator py (indicatorText indicator) = indicator ↔ Writable py indicator) ∧
      ∀ raw, parseIndicator py (indicatorText (parseIndicator py raw)) = parseIndicator py raw := by
  refine ⟨⟨fun same => ?_, parseIndicator_indicatorText py⟩, fun raw => ?_⟩
  · rw [← same]
    exact parseIndicator_writable py _
  · exact parseIndicator_indicatorText py (parseIndicator_writable py raw)

/-- **What the option makes.** After any registrations, a text makes what the factory registered last
under its name makes of its parameters, their texts coerced; without one, the plugin
registered last, or another of its class if there are parameters; and without that either
a `KeyError`. A parameter that is called `name` or `self` is refused. The names listed are
the keys of what was registered. -/
theorem indicatorOption_last (type : PluginType P F) (calls : List (Registration P F)) (raw : String) :
    let registry := (IndicatorRegistry.machine py type).after .empty calls
    let indicator := parseIndicator py raw
    let k := key py indicator.1
    let values : Kwargs F := indicator.2.mapValues fun _ value => Indicators.coerce py value
    let made := indicatorOption py type registry raw
    (∀ param, indicator.2.keys.find? isGiven = some param →
      made = .error (typeError s!"IndicatorRegistry.create() got multiple values for argument '{param}'")) ∧
    (indicator.2.keys.find? isGiven = none →
      (∀ factory, lastFactory py calls k = some factory → made = factory values) ∧
      (lastFactory py calls k = none → ∀ plugin, lastPlugin py type calls k = some plugin →
        made = if indicator.2.items = [] then .ok plugin else type.new plugin values) ∧
      (lastFactory py calls k = none → lastPlugin py type calls k = none →
        made = .error (Indicators.keyError s!"indicator not found: {indicator.1}"))) ∧
    registry.listNames.Pairwise (· < ·) ∧
    ∀ name, name ∈ registry.listNames ↔ lastFactory py calls name ≠ none ∨ lastPlugin py type calls name ≠ none := by
  intro registry indicator k values made
  obtain ⟨plugin_, factory_⟩ := IndicatorRegistry.holds_last py type calls k
  obtain ⟨ordered, listed⟩ := registry.listNames_exact
  have made_ : made = createIndicatorPlugin py type registry indicator.1 indicator.2 := rfl
  rw [made_]
  unfold createIndicatorPlugin IndicatorRegistry.create IndicatorRegistry.get
  rw [show registry.factories.get? (key py indicator.1) = _ from factory_,
    show registry.plugins.get? (key py indicator.1) = _ from plugin_]
  refine ⟨fun param given => ?_, fun free => ⟨fun factory found => ?_, fun none_ plugin found => ?_, fun none_ nothing => ?_⟩,
    ordered, fun name => ?_⟩
  · rw [given]
  · rw [free, found]
  · rw [free, none_, found]
    show (if values.items = [] then Except.ok plugin else type.new plugin values) = _
    have bare : values.items = [] ↔ indicator.2.items = [] := List.map_eq_nil_iff
    simp only [bare]
  · rw [free, none_, nothing]
    rfl
  · obtain ⟨plugins, factories⟩ := IndicatorRegistry.holds_last py type calls name
    rw [listed, plugins, factories, or_comm]

/-! ## The indicators of the command line -/

/-- The classes `SMAIndicator` and `EMAIndicator`. -/
inductive BuiltinClass
  | sma
  | ema
deriving DecidableEq

/-- An object of theirs. Its fields are what it was made with. -/
structure BuiltinIndicator (F : Type) where
  type : BuiltinClass
  window : ParamValue F
  name : ParamValue F
deriving DecidableEq

def BuiltinClass.className : BuiltinClass → String
  | .sma => "SMAIndicator"
  | .ema => "EMAIndicator"

/-- The default of the field `name`. -/
def BuiltinClass.defaultName : BuiltinClass → String
  | .sma => "sma"
  | .ema => "ema"

/-- `SMAIndicator(**kwargs)` and `EMAIndicator(**kwargs)`. -/
def BuiltinClass.make (type : BuiltinClass) (kwargs : Kwargs F) : Except PyError (BuiltinIndicator F) :=
  match kwargs.keys.find? fun k => k ≠ "window" && k ≠ "name" with
  | some k => .error (typeError s!"{type.className}.__init__() got an unexpected keyword argument '{k}'")
  | none => .ok ⟨type, kwargs.getD "window" (.int 14), kwargs.getD "name" (.str type.defaultName)⟩

/-- `AttributeError`, with its text. -/
def attributeError (message : String) : PyError := .external message

/-- Their objects as plugins. -/
def builtinType : PluginType (BuiltinIndicator F) F where
  name plugin :=
    match plugin.name with
    | .str name => .ok name
    | other => .error (attributeError s!"'{other.typeName}' object has no attribute 'strip'")
  new plugin := plugin.type.make

/-- The calls of `build_registry`. -/
def registrations : List (Registration (BuiltinIndicator F) F) :=
  [.plugin ⟨.sma, .int 14, .str "sma"⟩, .plugin ⟨.ema, .int 14, .str "ema"⟩,
    .factory "sma" BuiltinClass.sma.make, .factory "ema" BuiltinClass.ema.make]

/-- `build_registry`. -/
def buildRegistry (py : Builtins F) : IndicatorRegistry (BuiltinIndicator F) F :=
  (IndicatorRegistry.machine py builtinType).after .empty registrations

/-- The methods of `str` on ASCII texts, with `int` on texts of digits. No text is a float here. -/
def asciiBuiltins : Builtins ℚ where
  lower := strLower
  isSpace := asciiSpace
  int text :=
    if text ≠ "" && text.toList.all Char.isDigit then some (text.toList.foldl (fun n c => 10 * n + (c.toNat - 48 : ℤ)) 0)
    else none
  float _ := none

/-- `sma:window=20`. -/
theorem indicatorOption_last_sma :
    indicatorOption asciiBuiltins builtinType (buildRegistry asciiBuiltins) "sma:window=20" =
      .ok ⟨.sma, .int 20, .str "sma"⟩ := by
  have writable : Writable asciiBuiltins ("sma", Py.Dict.empty.set "window" "20") := by
    refine ⟨by decide, fun param member => ?_⟩
    rw [List.mem_singleton.mp (show param ∈ [("window", "20")] from member)]
    exact ⟨by decide +kernel, by decide +kernel, by decide, by decide, by decide⟩
  have read : parseIndicator asciiBuiltins "sma:window=20" = ("sma", Py.Dict.empty.set "window" "20") :=
    parseIndicator_indicatorText asciiBuiltins writable
  obtain ⟨-, free, -⟩ := indicatorOption_last asciiBuiltins builtinType registrations "sma:window=20"
  rw [read] at free
  have coerced : Indicators.coerce asciiBuiltins "20" = .int 20 := by decide +kernel
  refine ((free (by decide)).1 BuiltinClass.sma.make rfl).trans ?_
  show BuiltinClass.sma.make (Py.Dict.empty.set "window" (Indicators.coerce asciiBuiltins "20")) = _
  rw [coerced]
  rfl

end CryptoQuant.Cli
