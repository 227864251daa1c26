import CryptoQuant.Lib.Dict
import Mathlib.Algebra.Order.Ring.Rat
import Mathlib.Algebra.Field.Rat
import Mathlib.Tactic.Linarith

/-!
# Exceptions, time stamps and subscripts

What every component uses: the exceptions the code raises, `datetime` values,
and a dictionary subscript that raises. Prices, quantities and amounts are exact
rationals.
-/

namespace CryptoQuant
set_option autoImplicit false

/-- The exceptions raised by the modelled code, with their texts. `external`
stands for whatever a transport or another caller-supplied object raises. -/
inductive PyError
  | valueError (message : String)
  | runtimeError (message : String)
  | keyError
  | indexError (message : String)
  | external (message : String)
deriving DecidableEq, Repr

/-- A `datetime`, as microseconds since the epoch on its own wall clock. -/
abbrev DateTime := ℤ

/-- Microseconds in a second. -/
def microsPerSecond : ℤ := 1000000

/-- `ts.date()`, as a day number. -/
def DateTime.date (ts : DateTime) : ℤ := ts / (86400 * microsPerSecond)

/-- `round(x)`: to the nearest integer, a tie to the even one. -/
def roundHalfEven (x : ℚ) : ℤ :=
  let below := x.floor
  let rest := x - below
  if rest < 1 / 2 ∨ (rest = 1 / 2 ∧ below % 2 = 0) then below else below + 1

/-- `f"{x:.{digits}f}"`. -/
def formatFixed (digits : ℕ) (x : ℚ) : String :=
  let scaled := (roundHalfEven (|x| * 10 ^ digits)).toNat
  let fraction := toString (scaled % 10 ^ digits)
  let padding := String.ofList (List.replicate (digits - fraction.length) '0')
  (if x < 0 then "-" else "") ++ toString (scaled / 10 ^ digits) ++
    (if digits = 0 then "" else "." ++ padding ++ fraction)

/-- `f"{x:.{digits}%}"`. -/
def formatPercent (digits : ℕ) (x : ℚ) : String := formatFixed digits (x * 100) ++ "%"

example : formatPercent 2 (-1 / 800) = "-0.12%" := by decide +kernel

/-- `f"{n:0{width}d}"`, for a natural number. -/
def zeroPad (width : ℕ) (n : ℕ) : String :=
  String.ofList (List.replicate (width - (toString n).length) '0') ++ toString n

/-- Year, month and day of a day number. The year is counted from March, so that
the leap day is its last day. -/
def DateTime.civil (days : ℤ) : ℤ × ℤ × ℤ :=
  let z := days + 719468
  let era := z / 146097
  let doe := z - era * 146097
  let yoe := (doe - doe / 1460 + doe / 36524 - doe / 146096) / 365
  let doy := doe - (365 * yoe + yoe / 4 - yoe / 100)
  let mp := (5 * doy + 2) / 153
  let month := if mp < 10 then mp + 3 else mp - 9
  (yoe + era * 400 + (if month ≤ 2 then 1 else 0), month, doy - (153 * mp + 2) / 5 + 1)

/-- `ts.isoformat()`, of a UTC time stamp. -/
def DateTime.isoformat (ts : DateTime) : String :=
  let (year, month, day) := DateTime.civil (DateTime.date ts)
  let ofDay := (ts % (86400 * microsPerSecond)).toNat
  let seconds := ofDay / 1000000
  let micros := ofDay % 1000000
  zeroPad 4 year.toNat ++ "-" ++ zeroPad 2 month.toNat ++ "-" ++ zeroPad 2 day.toNat ++ "T" ++
    zeroPad 2 (seconds / 3600) ++ ":" ++ zeroPad 2 (seconds / 60 % 60) ++ ":" ++ zeroPad 2 (seconds % 60) ++
    (if micros = 0 then "" else "." ++ zeroPad 6 micros) ++ "+00:00"

example : DateTime.isoformat 1709210096500000 = "2024-02-29T12:34:56.500000+00:00" := by decide +kernel

/-- The characters a character turns into under `str.upper()`, where they can be
ASCII; every other character stays outside ASCII. -/
def upperChars : Char → List Char
  | 'ß' => ['S', 'S']
  | 'ı' => ['I']
  | 'ſ' => ['S']
  | 'ﬀ' => ['F', 'F']
  | 'ﬁ' => ['F', 'I']
  | 'ﬂ' => ['F', 'L']
  | 'ﬃ' => ['F', 'F', 'I']
  | 'ﬄ' => ['F', 'F', 'L']
  | 'ﬅ' => ['S', 'T']
  | 'ﬆ' => ['S', 'T']
  | c => [c.toUpper]

/-- `s.upper()`. -/
def strUpper (s : String) : String := String.ofList (s.toList.flatMap upperChars)

/-- The characters a character turns into under `str.lower()`, likewise: besides
the ASCII letters the Kelvin sign and the dotted capital I. -/
def lowerChars (c : Char) : List Char :=
  if c.val = 0x212A then ['k']
  else if c.val = 0x130 then ['i', Char.ofNat 0x307]
  else [c.toLower]

/-- `s.lower()`. -/
def strLower (s : String) : String := String.ofList (s.toList.flatMap lowerChars)

/-- `c.isspace()`, of an ASCII character: the blanks that `str.strip` and `str.split` drop. -/
def asciiSpace (c : Char) : Bool := (9 ≤ c.toNat && c.toNat ≤ 13) || (28 ≤ c.toNat && c.toNat ≤ 32)

/-- `d[k]`. -/
def getItem {κ ν : Type} [DecidableEq κ] (d : Py.Dict κ ν) (k : κ) : Except PyError ν :=
  match d.get? k with
  | some v => .ok v
  | none => .error .keyError

/-- `xs[0]`. -/
def firstItem {α : Type} (xs : List α) : Except PyError α :=
  match xs.head? with
  | some x => .ok x
  | none => .error (.indexError "list index out of range")

/-- `xs[-1]`. -/
def lastItem {α : Type} (xs : List α) : Except PyError α :=
  match xs.getLast? with
  | some x => .ok x
  | none => .error (.indexError "list index out of range")

/-- `if condition: raise error`. -/
def raiseIf (condition : Prop) [Decidable condition] (error : PyError) : Except PyError Unit :=
  if condition then .error error else .ok ()

theorem raiseIf_ok {condition : Prop} [Decidable condition] {error : PyError} {u : Unit} :
    raiseIf condition error = .ok u ↔ ¬ condition := by
  unfold raiseIf
  split <;> simp [*]

section
variable {κ ν : Type} [DecidableEq κ] {d : Py.Dict κ ν} {k : κ} {v : ν}

theorem getItem_of_get? (h : d.get? k = some v) : getItem d k = .ok v := by
  rw [getItem, h]

theorem getItem_ok : getItem d k = .ok v ↔ d.get? k = some v := by
  unfold getItem
  split
  · rename_i w found
    rw [found, Option.some.injEq, Except.ok.injEq]
  · rename_i missing
    rw [missing]
    constructor <;> intro same <;> cases same

end

end CryptoQuant
