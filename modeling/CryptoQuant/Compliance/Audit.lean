import CryptoQuant.Security.Redaction
import Mathlib.Data.List.Sort

/-!
# The audit trail

`compliance/audit.py`: an append-only list of events, each hashed together with
the hash of the one before. The hash of a record is a parameter of the trail;
`computeHash` is the one the code uses, over a writer of JSON and a hash of text.
-/

namespace CryptoQuant
set_option autoImplicit false

/-- What `_compute_hash` is given. -/
structure AuditRecord where
  seq : ℕ
  tsMs : ℤ
  eventType : String
  actor : String
  payload : Value
  prevHash : String

/-- `AuditEvent`. -/
structure AuditEvent extends AuditRecord where
  eventHash : String

/-- `AuditTrail`. `nowMsFn` gives the readings of the clock in order. -/
structure AuditTrail where
  nowMsFn : ℕ → ℤ
  genesisHash : String := "GENESIS"
  computeHash : AuditRecord → String
  events : List AuditEvent := []

/-- The event that `append` adds. -/
def AuditTrail.nextEvent (trail : AuditTrail) (eventType actor : String) (payload : Value) : AuditEvent :=
  let record : AuditRecord :=
    { seq := trail.events.length + 1
      tsMs := trail.nowMsFn trail.events.length
      eventType
      actor
      payload := redactSecrets payload
      prevHash := (trail.events.getLast?.map AuditEvent.eventHash).getD trail.genesisHash }
  { record with eventHash := trail.computeHash record }

/-- `append`. -/
def AuditTrail.append (trail : AuditTrail) (eventType actor : String) (payload : Value) :
    AuditEvent × AuditTrail :=
  let event := trail.nextEvent eventType actor payload
  (event, { trail with events := trail.events ++ [event] })

/-- The loop of `verify_chain`, from an index and the hash before it on. -/
def verifyFrom (computeHash : AuditRecord → String) : ℕ → String → List AuditEvent → Bool
  | _, _, [] => true
  | idx, prevHash, event :: rest =>
    if event.seq ≠ idx then false
    else if event.prevHash ≠ prevHash then false
    else if computeHash event.toAuditRecord ≠ event.eventHash then false
    else verifyFrom computeHash (idx + 1) event.eventHash rest

/-- `verify_chain`. -/
def AuditTrail.verifyChain (trail : AuditTrail) : Bool :=
  verifyFrom trail.computeHash 1 trail.genesisHash trail.events

/-- A JSON value, with the members of an object in the order they are written. -/
inductive Json
  | null
  | bool (b : Bool)
  | int (i : ℤ)
  | float (x : WrittenFloat)
  | string (s : String)
  | array (items : List Json)
  | object (members : List (String × Json))

/-- The order of `sort_keys=True`. -/
def sortKeys (members : List (String × Json)) : List (String × Json) :=
  members.insertionSort fun a b => a.1 ≤ b.1

mutual
/-- What `json.dumps(value, sort_keys=True)` writes: a tuple is an array, and
the members of an object are in the order of their keys. -/
def Value.json : Value → Json
  | .mapping items => .object (sortKeys (jsonItems items))
  | .tuple items => .array (jsonList items)
  | .list items => .array (jsonList items)
  | .none => .null
  | .bool b => .bool b
  | .int i => .int i
  | .float x => .float x
  | .text s => .string s

def jsonList : List Value → List Json
  | [] => []
  | v :: rest => v.json :: jsonList rest

def jsonItems : List (String × Value) → List (String × Json)
  | [] => []
  | (k, v) :: rest => (k, v.json) :: jsonItems rest
end

/-- The record that `_compute_hash` writes. -/
def AuditRecord.canonical (record : AuditRecord) : Value :=
  .mapping
    [("seq", .int record.seq), ("ts_ms", .int record.tsMs), ("event_type", .text record.eventType),
      ("actor", .text record.actor), ("payload", record.payload), ("prev_hash", .text record.prevHash)]

/-- `_compute_hash`: `dumps` writes a JSON value with the separators of the
call, `sha256` is the hexadecimal digest of a text in UTF-8. -/
def computeHash (dumps : Json → String) (sha256 : String → String) (record : AuditRecord) : String :=
  sha256 (dumps record.canonical.json)

end CryptoQuant
