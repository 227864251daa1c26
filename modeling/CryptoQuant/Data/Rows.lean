import CryptoQuant.Basic
import Mathlib.Order.WithBot

/-!
# Rows of a table

What `data/checklist.py`, `data/dictionary.py` and `data/sources.py` read from a file before
it is a bar: columns of any values by name. Numbers are exact or infinite, or `nan`, which
compares with nothing. What `str`, `float` and the parsers of dates do is the interpreter's.
-/

namespace CryptoQuant.Data
set_option autoImplicit false

/-- The value of an `int`, of a `bool` or of a `float`. -/
inductive Number
  | real (x : WithBot (WithTop ℚ))
  | nan
deriving DecidableEq

/-- `x <= y`, never so with `nan`. -/
def Number.Le : Number → Number → Prop
  | .real x, .real y => x ≤ y
  | _, _ => False

/-- `x < y`, never so with `nan`. -/
def Number.Lt : Number → Number → Prop
  | .real x, .real y => x < y
  | _, _ => False

instance : LE Number := ⟨Number.Le⟩

instance : LT Number := ⟨Number.Lt⟩

instance : (x y : Number) → Decidable (x ≤ y)
  | .real x, .real y => inferInstanceAs (Decidable (x ≤ y))
  | .real _, .nan => isFalse id
  | .nan, .real _ => isFalse id
  | .nan, .nan => isFalse id

instance : (x y : Number) → Decidable (x < y)
  | .real x, .real y => inferInstanceAs (Decidable (x < y))
  | .real _, .nan => isFalse id
  | .nan, .real _ => isFalse id
  | .nan, .nan => isFalse id

/-- A finite number. -/
def Number.finite (x : ℚ) : Number := .real ((x : WithTop ℚ) : WithBot (WithTop ℚ))

/-- `isfinite(x)`. -/
def Number.IsFinite (x : Number) : Prop := ∃ q, x = .finite q

instance : (x : Number) → Decidable x.IsFinite
  | .nan => isFalse fun ⟨_, same⟩ => Number.noConfusion same
  | .real none => isFalse fun ⟨_, same⟩ => by cases same
  | .real (some none) => isFalse fun ⟨_, same⟩ => by cases same
  | .real (some (some q)) => isTrue ⟨q, rfl⟩

/-- A `datetime`: the microseconds since the epoch, in UTC if it is aware, else on its own wall clock. -/
@[ext] structure Timestamp where
  aware : Bool
  time : DateTime
deriving DecidableEq, Repr

/-- `a < b`, which raises between a naive and an aware one. -/
def Timestamp.before (a b : Timestamp) : Except PyError Bool :=
  if a.aware = b.aware then .ok (decide (a.time < b.time))
  else .error (.external "can't compare offset-naive and offset-aware datetimes")

/-- The value of a column. -/
inductive Cell
  | none
  | text (s : String)
  | int (i : ℤ)
  | bool (b : Bool)
  | float (x : Number)
  | datetime (ts : Timestamp)
  | other (repr : String)
deriving DecidableEq

/-- The value of an `int` or a `float`; a `bool` is an `int`. -/
def Cell.number? : Cell → Option Number
  | .int i => some (.finite i)
  | .bool b => some (.finite (if b then 1 else 0))
  | .float x => some x
  | _ => Option.none

@[simp] theorem Cell.number?_float (x : Number) : (Cell.float x).number? = some x := rfl

/-- A row, by column. -/
abbrev Row := Py.Dict String Cell

/-- The functions of the interpreter that rows are read with. -/
structure Builtins where
  str : Cell → String
  float : Cell → Except PyError Number
  strip : String → String
  isDigit : String → Bool
  int : String → Except PyError ℤ
  fromTimestamp : ℚ → Except PyError Timestamp
  fromIsoFormat : String → Except PyError Timestamp

/-- What they do with ASCII texts and with seconds: no text is a float or a date here. -/
def Builtins.ascii : Builtins where
  str
    | .text s => s
    | .none => "None"
    | .int i => toString i
    | .bool b => if b then "True" else "False"
    | .float _ => "nan"
    | .datetime _ => "1970-01-01 00:00:00+00:00"
    | .other repr => repr
  float value :=
    match value.number? with
    | some x => .ok x
    | none => .error (.valueError "could not convert string to float")
  strip text := String.ofList ((text.toList.dropWhile asciiSpace).reverse.dropWhile asciiSpace).reverse
  isDigit text := text ≠ "" && text.toList.all Char.isDigit
  int text := .ok (text.toList.foldl (fun n c => 10 * n + (c.toNat - 48 : ℤ)) 0)
  fromTimestamp seconds := .ok { aware := true, time := (seconds * microsPerSecond).floor }
  fromIsoFormat _ := .error (.valueError "Invalid isoformat string")

end CryptoQuant.Data
