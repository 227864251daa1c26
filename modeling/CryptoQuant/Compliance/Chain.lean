import CryptoQuant.Lib.HashChain
import CryptoQuant.Lib.Run
import CryptoQuant.Compliance.Audit

/-!
# What the last hash of an audit trail says

A trail built by `append` verifies, and a list of events that verifies is
determined by its last hash, as long as the writer of JSON and the hash of text
tell its records apart.
-/

namespace CryptoQuant
set_option autoImplicit false

/-- What the chain reads of an event. -/
def chainOf (computeHash : AuditRecord → String) : HashChain.Scheme AuditEvent String where
  number event := event.seq
  prev event := event.prevHash
  digest event := computeHash event.toAuditRecord
  stored event := event.eventHash

section Verified
variable {computeHash : AuditRecord → String} {idx : ℕ} {prevHash : String} {events : List AuditEvent}

theorem verifyFrom_iff :
    verifyFrom computeHash idx prevHash events = true ↔ HashChain.Linked (chainOf computeHash) idx prevHash events := by
  induction events generalizing idx prevHash with
  | nil => exact ⟨fun _ => trivial, fun _ => rfl⟩
  | cons event rest ih =>
    rw [verifyFrom, HashChain.Linked, ← ih]
    show _ ↔ event.seq = idx ∧ event.prevHash = prevHash ∧ computeHash event.toAuditRecord = event.eventHash ∧ _
    by_cases number : event.seq = idx
    · by_cases prev : event.prevHash = prevHash
      · by_cases digest : computeHash event.toAuditRecord = event.eventHash
        · simp [number, prev, digest, chainOf]
        · simp [number, prev, digest]
      · simp [number, prev]
    · simp [number]

theorem verifyChain_iff {trail : AuditTrail} :
    trail.verifyChain = true ↔ HashChain.Linked (chainOf trail.computeHash) 1 trail.genesisHash trail.events :=
  verifyFrom_iff

/-- The added event continues the chain. -/
theorem verifyChain_append {trail : AuditTrail} (verified : trail.verifyChain = true) (eventType actor : String)
    (payload : Value) : (trail.append eventType actor payload).2.verifyChain = true := by
  rw [verifyChain_iff] at verified ⊢
  refine (HashChain.linked_snoc _).mpr ⟨verified, ?_, rfl, rfl⟩
  show trail.events.length + 1 = 1 + trail.events.length
  omega

end Verified

/-- The trail after a list of `append` calls. -/
def AuditTrail.appendAll (trail : AuditTrail) (calls : List (String × String × Value)) : AuditTrail :=
  calls.foldl (fun trail (eventType, actor, payload) => (trail.append eventType actor payload).2) trail

theorem verifyChain_appendAll {trail : AuditTrail} (verified : trail.verifyChain = true)
    (calls : List (String × String × Value)) : (trail.appendAll calls).verifyChain = true := by
  apply Run.foldl_invariant (P := fun trail : AuditTrail => trail.verifyChain = true) _ verified
  intro trail ⟨eventType, actor, payload⟩ _ before
  exact verifyChain_append before eventType actor payload

/-- The two records are the same, their payloads as JSON values. -/
structure SameRecord (r r' : AuditRecord) : Prop where
  seq : r.seq = r'.seq
  tsMs : r.tsMs = r'.tsMs
  eventType : r.eventType = r'.eventType
  actor : r.actor = r'.actor
  payload : r.payload.json = r'.payload.json
  prevHash : r.prevHash = r'.prevHash

/-- The two events are the same. -/
structure SameEvent (a b : AuditEvent) : Prop extends SameRecord a.toAuditRecord b.toAuditRecord where
  eventHash : a.eventHash = b.eventHash

/-- The members of the canonical record in the order they are written. -/
theorem json_canonical (record : AuditRecord) : record.canonical.json =
    .object
      [("actor", .string record.actor), ("event_type", .string record.eventType), ("payload", record.payload.json),
        ("prev_hash", .string record.prevHash), ("seq", .int record.seq), ("ts_ms", .int record.tsMs)] := by
  simp [AuditRecord.canonical, Value.json, jsonItems, sortKeys]

/-- No field of a record is missing from what is hashed. -/
theorem sameRecord_iff {r r' : AuditRecord} : SameRecord r r' ↔ r.canonical.json = r'.canonical.json := by
  rw [json_canonical, json_canonical]
  constructor
  · rintro ⟨seq, tsMs, eventType, actor, payload, prevHash⟩
    rw [seq, tsMs, eventType, actor, payload, prevHash]
  · intro written
    simp only [Json.object.injEq, List.cons.injEq, Prod.mk.injEq, Json.string.injEq, Json.int.injEq, true_and,
      and_true, Nat.cast_inj] at written
    obtain ⟨actor, eventType, payload, prevHash, seq, tsMs⟩ := written
    exact ⟨seq, tsMs, eventType, actor, payload, prevHash⟩

/-- The canonical records of the events, as they are written. -/
def canonicals (events : List AuditEvent) : Set Json := { written | ∃ event ∈ events, event.canonical.json = written }

/-- The trail with the events, hashed as the code does it. -/
def hashedTrail (dumps : Json → String) (sha256 : String → String) (nowMsFn : ℕ → ℤ) (genesisHash : String)
    (events : List AuditEvent) : AuditTrail :=
  { nowMsFn, genesisHash, computeHash := computeHash dumps sha256, events }

/-- The writer and the hash tell the events apart. -/
theorem sameRecord_of_digest {dumps : Json → String} {sha256 : String → String} {events : List AuditEvent}
    {a b : AuditEvent} (injective : Set.InjOn dumps (canonicals events))
    (noCollision : Set.InjOn sha256 (dumps '' canonicals events)) (left : a ∈ events) (right : b ∈ events)
    (digest : computeHash dumps sha256 a.toAuditRecord = computeHash dumps sha256 b.toAuditRecord) :
    SameRecord a.toAuditRecord b.toAuditRecord := by
  have written : a.canonical.json ∈ canonicals events := ⟨a, left, rfl⟩
  have written' : b.canonical.json ∈ canonicals events := ⟨b, right, rfl⟩
  have text : dumps a.canonical.json = dumps b.canonical.json :=
    noCollision (Set.mem_image_of_mem dumps written) (Set.mem_image_of_mem dumps written') digest
  exact sameRecord_iff.mpr (injective written written' text)

/-- **The last hash commits to the whole trail.** Every trail built by `append`
verifies. Beside a list of events that verifies, another one with the same last
hash verifies exactly when it is the same event by event: an edited, inserted,
deleted, repeated or moved event is detected. -/
theorem last_hash_commits (dumps : Json → String) (sha256 : String → String) (nowMsFn : ℕ → ℤ) (genesisHash : String) :
    (∀ calls, ((hashedTrail dumps sha256 nowMsFn genesisHash []).appendAll calls).verifyChain = true) ∧
      ∀ left right : List AuditEvent, left ≠ [] → right ≠ [] →
        Set.InjOn dumps (canonicals (left ++ right)) → Set.InjOn sha256 (dumps '' canonicals (left ++ right)) →
        (hashedTrail dumps sha256 nowMsFn genesisHash left).verifyChain = true →
        left.getLast?.map AuditEvent.eventHash = right.getLast?.map AuditEvent.eventHash →
        ((hashedTrail dumps sha256 nowMsFn genesisHash right).verifyChain = true ↔
          List.Forall₂ SameEvent left right) := by
  refine ⟨fun calls => verifyChain_appendAll rfl calls, ?_⟩
  intro left right left_ne _ injective noCollision verified lasts
  rw [verifyChain_iff] at verified ⊢
  constructor
  · intro verified'
    have last : left.getLast?.map AuditEvent.eventHash = some (left.getLast left_ne).eventHash := by
      rw [List.getLast?_eq_some_getLast left_ne]
      rfl
    have same := HashChain.committed (chainOf (computeHash dumps sha256))
      (fun a b => SameRecord a.toAuditRecord b.toAuditRecord) (fun a b same => same.seq) (fun a b same => same.prevHash)
      (fun a among b among' digest => sameRecord_of_digest injective noCollision (List.mem_append_left _ among)
        (List.mem_append_right _ among') digest)
      verified verified' last (lasts ▸ last)
    exact same.imp fun a b ⟨record, stored⟩ => ⟨record, stored⟩
  · intro same
    refine HashChain.Linked.congr _ (same.imp fun a b same => ?_) verified
    have digest : computeHash dumps sha256 a.toAuditRecord = computeHash dumps sha256 b.toAuditRecord := by
      unfold computeHash
      rw [sameRecord_iff.mp same.toSameRecord]
    exact ⟨same.seq, same.prevHash, digest, same.eventHash⟩

/-- The text of a first record. -/
def firstText : String :=
  "\x7b\"actor\":\"a\",\"event_type\":\"x\",\"payload\":\x7b\"b\":null,\"k\":\"v\"\x7d," ++
    "\"prev_hash\":\"GENESIS\",\"seq\":1,\"ts_ms\":1000\x7d"

/-- The text of a second one. -/
def secondText : String :=
  "\x7b\"actor\":\"a\",\"event_type\":\"y\",\"payload\":\x7b\"k\":\"w\"\x7d," ++
    "\"prev_hash\":\"72ab9ecc070b7c1c0624919296f5f943259fa0c4ca7eb6c7f464e4f1549b0425\",\"seq\":2,\"ts_ms\":2000\x7d"

/-- What the code writes for the two samples below. -/
def sampleDumps : Json → String
  | .object [_, _, _, _, (_, .int seq), _] => if seq = 1 then firstText else secondText
  | _ => ""

/-- The digests of the two texts. -/
def sampleSha256 (text : String) : String :=
  if text = firstText then "72ab9ecc070b7c1c0624919296f5f943259fa0c4ca7eb6c7f464e4f1549b0425"
  else "9892415d4a15e531c471750b0c84b1a345aaf1e3e67a6dc8c54440cb1de03442"

/-- The first event of a trail, with the items of its payload. -/
def firstSample (payload : List (String × Value)) : AuditEvent :=
  { seq := 1, tsMs := 1000, eventType := "x", actor := "a", payload := .mapping payload, prevHash := "GENESIS",
    eventHash := "72ab9ecc070b7c1c0624919296f5f943259fa0c4ca7eb6c7f464e4f1549b0425" }

/-- The second event of the trail. -/
def secondSample : AuditEvent :=
  { seq := 2, tsMs := 2000, eventType := "y", actor := "a", payload := .mapping [("k", .text "w")],
    prevHash := "72ab9ecc070b7c1c0624919296f5f943259fa0c4ca7eb6c7f464e4f1549b0425",
    eventHash := "9892415d4a15e531c471750b0c84b1a345aaf1e3e67a6dc8c54440cb1de03442" }

/-- The payload of the first event in two orders. -/
theorem last_hash_commits_two_orders :
    List.Forall₂ SameEvent [firstSample [("k", .text "v"), ("b", .none)], secondSample]
      [firstSample [("b", .none), ("k", .text "v")], secondSample] := by
  obtain ⟨first, second, firstDumps, secondDumps, pair⟩ : ∃ first second, sampleDumps first = firstText ∧
      sampleDumps second = secondText ∧
        canonicals ([firstSample [("k", .text "v"), ("b", .none)], secondSample] ++
          [firstSample [("b", .none), ("k", .text "v")], secondSample]) = {first, second} := by
    refine ⟨(firstSample [("b", .none), ("k", .text "v")]).canonical.json, secondSample.canonical.json, ?_, ?_,
      Set.ext fun written => ?_⟩
    · simp [firstSample, json_canonical, sampleDumps]
    · simp [secondSample, json_canonical, sampleDumps]
    · simp [canonicals, firstSample, secondSample, json_canonical, Value.json, jsonItems, sortKeys]
      grind
  refine ((last_hash_commits sampleDumps sampleSha256 (fun _ => 0) "GENESIS").2
    [firstSample [("k", .text "v"), ("b", .none)], secondSample]
    [firstSample [("b", .none), ("k", .text "v")], secondSample]
    (List.cons_ne_nil _ _) (List.cons_ne_nil _ _) ?_ ?_ (by decide +kernel) rfl).mp (by decide +kernel)
  · rw [pair, Set.injOn_pair, firstDumps, secondDumps]
    intro same
    exact absurd same (by decide)
  · rw [pair, Set.image_pair, firstDumps, secondDumps, Set.injOn_pair]
    intro same
    exact absurd same (by decide +kernel)

end CryptoQuant
