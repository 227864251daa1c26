import CryptoQuant.Basic

/-!
# Redaction of secrets

`security/redaction.py`: a copy of a nested value whose secret entries are
masked.
-/

namespace CryptoQuant
set_option autoImplicit false

/-- A float, as `repr` tells it: the two zeros are equal numbers that are written differently. -/
inductive WrittenFloat
  | finite (x : ℚ)
  | negZero
  | inf
  | negInf
  | nan
deriving DecidableEq

/-- A nested value of a log payload. -/
inductive Value
  | none
  | bool (b : Bool)
  | int (i : ℤ)
  | float (x : WrittenFloat)
  | text (s : String)
  | list (items : List Value)
  | tuple (items : List Value)
  | mapping (items : List (String × Value))

/-- `DEFAULT_SECRET_KEYS`. -/
def defaultSecretKeys : List String :=
  ["api_key", "apikey", "secret", "api_secret", "token", "access_token", "refresh_token", "password",
    "passphrase", "private_key"]

mutual
/-- `redact_secrets`, with its set of lower-case secret keys. -/
def redactWith (mask : String) (keys : List String) : Value → Value
  | .mapping items => .mapping (redactItems mask keys items)
  | .tuple items => .tuple (redactList mask keys items)
  | .list items => .list (redactList mask keys items)
  | .none => .none
  | .bool b => .bool b
  | .int i => .int i
  | .float x => .float x
  | .text s => .text s

def redactList (mask : String) (keys : List String) : List Value → List Value
  | [] => []
  | v :: rest => redactWith mask keys v :: redactList mask keys rest

def redactItems (mask : String) (keys : List String) : List (String × Value) → List (String × Value)
  | [] => []
  | (k, v) :: rest =>
    (k, if strLower k ∈ keys then .text mask else redactWith mask keys v) :: redactItems mask keys rest
end

/-- `redact_secrets(value)`. -/
def redactSecrets (value : Value) : Value := redactWith "***" (defaultSecretKeys.map strLower) value

end CryptoQuant
