import CryptoQuant.Compliance.Audit

/-!
# Messages of an exchange stream

What both stream clients do with the JSON values they receive: members of an
object, truth, and the functions of the interpreter that make a text or a number
of a value.
-/

namespace CryptoQuant
set_option autoImplicit false

/-- `x.get` of a value that is not an object. -/
def noGet : PyError := .external "object has no attribute 'get'"

namespace Json

/-- `x.get(key)`: of two members with one name `json.loads` keeps the last. -/
def get (key : String) : Json → Except PyError (Option Json)
  | .object members => .ok (members.reverse.lookup key)
  | _ => .error noGet

/-- `bool(x)`. -/
def truthy : Json → Bool
  | .null => false
  | .bool b => b
  | .int i => i ≠ 0
  | .float (.finite x) => x ≠ 0
  | .float .negZero => false
  | .float _ => true
  | .string s => s ≠ ""
  | .array items => !items.isEmpty
  | .object members => !members.isEmpty

/-- `payload.get("data", payload)`. -/
def dataOf (payload : Json) : Except PyError Json := do
  let data ← payload.get "data"
  pure (data.getD payload)

/-- `bool(x.get(...))`, of what `get` answers. -/
def truthyOpt (x : Option Json) : Bool := x.any truthy

/-- `x.get(...) == text`. -/
def isText (text : String) : Option Json → Bool
  | some (.string s) => s = text
  | _ => false

end Json

/-- `str`, `float` and `int` of the interpreter, on JSON values. -/
structure JsonBuiltins where
  str : Json → String
  float : Json → Except PyError ℚ
  int : Json → Except PyError ℤ

/-- What they do with texts and finite numbers that need no reading. -/
def JsonBuiltins.plain : JsonBuiltins where
  str
    | .string s => s
    | _ => "None"
  float
    | .int i => .ok i
    | .float (.finite x) => .ok x
    | .float .negZero => .ok 0
    | _ => .error (.valueError "could not convert string to float")
  int
    | .int i => .ok i
    | .float (.finite x) => .ok (if 0 ≤ x then x.floor else x.ceil)
    | .float .negZero => .ok 0
    | _ => .error (.valueError "invalid literal for int()")

/-- What `recv()` returned, by what `json.loads` makes of it. -/
abbrev Message := Except PyError Json

end CryptoQuant
