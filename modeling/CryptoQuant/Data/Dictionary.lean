import CryptoQuant.Data.Rows

/-!
# The data dictionary

`DataDictionary` of `data/dictionary.py`: the columns of a row are renamed to the fields they
stand for, and each field is read as the type it has. A field can have several columns; the
last one in the row is read.
-/

namespace CryptoQuant.Data
set_option autoImplicit false

/-- `python_type` of a field. -/
inductive PythonType
  | str | float | datetime | other
deriving DecidableEq, Repr

/-- `FieldSpec`. -/
structure FieldSpec where
  name : String
  pythonType : PythonType
  required : Bool := true
  aliases : List String := []
  default : Cell := .none

/-- `DataDictionary`. -/
structure DataDictionary where
  fields : List FieldSpec := []

/-- `value.replace("Z", "+00:00")`. -/
def replaceZ (value : String) : String :=
  String.ofList (value.toList.flatMap fun c => if c = 'Z' then "+00:00".toList else [c])

/-- `_parse_datetime`. -/
def parseDatetime (py : Builtins) (raw : Cell) : Except PyError Timestamp :=
  let value := py.strip (py.str raw)
  if py.isDigit value then do
    let number ← py.int value
    if 13 ≤ value.length then py.fromTimestamp (number / (1000 : ℚ)) else py.fromTimestamp number
  else do
    let ts ← py.fromIsoFormat (replaceZ value)
    pure (if ts.aware then ts else { ts with aware := true })

/-- `_coerce_value`. -/
def coerceValue (py : Builtins) (expectedType : PythonType) (raw : Cell) (fieldName : String) : Except PyError Cell :=
  match expectedType with
  | .str => .ok (.text (py.str raw))
  | .float => do
    let value ← py.float raw
    raiseIf (¬ value.IsFinite) (.valueError s!"{fieldName} must be finite")
    pure (.float value)
  | .datetime => do
    let ts ← parseDatetime py raw
    pure (.datetime ts)
  | .other => .ok raw

/-- One field of the loop of `normalize`. -/
def FieldSpec.read (py : Builtins) (spec : FieldSpec) (raw : Cell) : Except PyError Cell :=
  if raw = .none ∨ raw = .text "" then
    if spec.required = true ∧ spec.default = .none then .error (.valueError s!"missing required field: {spec.name}")
    else .ok spec.default
  else coerceValue py spec.pythonType raw spec.name

namespace DataDictionary

/-- `alias_map`. -/
def aliasMap (dictionary : DataDictionary) : Py.Dict String String :=
  dictionary.fields.foldl
    (fun mapping spec => spec.aliases.foldl (fun mapping «alias» => mapping.set «alias» spec.name) (mapping.set spec.name spec.name))
    .empty

/-- One column of the loop of `_remap_aliases`. -/
def remapColumn (mapping : Py.Dict String String) (out : Row) (column : String × Cell) : Row :=
  match mapping.get? column.1 with
  | none => out
  | some canonical => out.set canonical column.2

/-- `_remap_aliases`. -/
def remapAliases (dictionary : DataDictionary) (row : Row) : Row :=
  row.items.foldl (remapColumn dictionary.aliasMap) .empty

/-- `normalize`. -/
def normalize (py : Builtins) (dictionary : DataDictionary) (row : Row) : Except PyError Row :=
  let remapped := dictionary.remapAliases row
  dictionary.fields.foldlM
    (fun out spec => do
      let value ← spec.read py (remapped.getD spec.name .none)
      pure (out.set spec.name value))
    .empty

end DataDictionary

/-- `BAR_V1_DICTIONARY`. -/
def barV1Dictionary : DataDictionary where
  fields := [
    { name := "symbol", pythonType := .str, aliases := ["asset", "pair"] },
    { name := "timeframe", pythonType := .str, aliases := ["tf", "interval"] },
    { name := "ts", pythonType := .datetime, aliases := ["timestamp", "open_time", "time"] },
    { name := "open", pythonType := .float, aliases := ["o"] },
    { name := "high", pythonType := .float, aliases := ["h"] },
    { name := "low", pythonType := .float, aliases := ["l"] },
    { name := "close", pythonType := .float, aliases := ["c", "last_price"] },
    { name := "volume", pythonType := .float, required := false, aliases := ["v"], default := .float (.finite 0) }]

end CryptoQuant.Data
