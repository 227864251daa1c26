import CryptoQuant.Basic
import CryptoQuant.Lib.Run

/-!
# The listen key provider

`BinanceFuturesListenKeyProvider` of `execution/listen_key.py`: a cached key, fetched by
a POST and kept alive by a PUT. The reply to the POST is checked for an empty key, the
reply to the PUT is not.
-/

namespace CryptoQuant.ListenKey
set_option autoImplicit false

/-- What a request of the transport does: it raises, or answers with a payload, of which
only the field `listenKey` is read. Where it is present, it is a string. -/
inductive Reply
  | raises (error : PyError)
  | payload (listenKey : Option String)
deriving DecidableEq, Repr

/-- `BinanceFuturesListenKeyProvider`. -/
structure BinanceFuturesListenKeyProvider where
  listenKey : Option String := none
deriving DecidableEq, Repr

namespace BinanceFuturesListenKeyProvider

/-- `get_listen_key`, with the reply to its request. -/
def getListenKey (provider : BinanceFuturesListenKeyProvider) (post : Reply) :
    Except PyError String × BinanceFuturesListenKeyProvider :=
  match provider.listenKey with
  | some listenKey => (.ok listenKey, provider)
  | none =>
    match post with
    | .raises error => (.error error, provider)
    | .payload listenKey =>
      let key := listenKey.getD ""
      if key = "" then (.error (.valueError "missing listenKey in create response"), provider)
      else (.ok key, { provider with listenKey := some key })

/-- `keepalive`, with the replies to its requests. -/
def keepalive (provider : BinanceFuturesListenKeyProvider) (post put : Reply) :
    Except PyError String × BinanceFuturesListenKeyProvider :=
  match provider.getListenKey post with
  | (.error error, provider) => (.error error, provider)
  | (.ok key, provider) =>
    match put with
    | .raises error => (.error error, provider)
    | .payload listenKey =>
      let returned := listenKey.getD key
      (.ok returned, { provider with listenKey := some returned })

/-- `clear_cached_listen_key`. -/
def clearCachedListenKey (provider : BinanceFuturesListenKeyProvider) : BinanceFuturesListenKeyProvider :=
  { provider with listenKey := none }

end BinanceFuturesListenKeyProvider

/-- A call of the provider, with the replies to the requests that it may make. -/
inductive Call
  | getListenKey (post : Reply)
  | keepalive (post put : Reply)
  | clearCachedListenKey
deriving DecidableEq, Repr

/-- One call: the key it returns, if any, or its exception. -/
def call (provider : BinanceFuturesListenKeyProvider) : Call → Except PyError (Option String) × BinanceFuturesListenKeyProvider
  | .getListenKey post =>
    let (result, provider) := provider.getListenKey post
    (result.map some, provider)
  | .keepalive post put =>
    let (result, provider) := provider.keepalive post put
    (result.map some, provider)
  | .clearCachedListenKey => (.ok none, provider.clearCachedListenKey)

/-- The provider as a component. -/
def machine : Run.Machine BinanceFuturesListenKeyProvider Call (Except PyError (Option String)) := ⟨call⟩

/-! ## What the exchange returns -/

section Received
variable (provider : BinanceFuturesListenKeyProvider)

/-- The key in a reply. -/
def Reply.key : Reply → Option String
  | .raises _ => none
  | .payload listenKey => listenKey

/-- The reply to a POST that is sent without a cached key has a key that passes the check. -/
def Obtains (post : Reply) : Prop := provider.listenKey ≠ none ∨ (post.key ≠ none ∧ post.key ≠ some "")

instance (post : Reply) : Decidable (Obtains provider post) := inferInstanceAs (Decidable (_ ∨ _))

/-- The keys in the replies to the requests that a call makes. -/
def Call.received : Call → List String
  | .getListenKey post => if provider.listenKey = none then post.key.toList else []
  | .keepalive post put =>
    (if provider.listenKey = none then post.key.toList else []) ++ if Obtains provider post then put.key.toList else []
  | .clearCachedListenKey => []

/-- The call sends a PUT, and the reply to it has an empty key. -/
def Call.Empties : Call → Prop
  | .keepalive post put => Obtains provider post ∧ put.key = some ""
  | _ => False

instance (c : Call) : Decidable (c.Empties provider) := by
  cases c <;> unfold Call.Empties <;> infer_instance

/-- The keys that the exchange has returned along a run. -/
def receivedAlong : BinanceFuturesListenKeyProvider → List Call → List String
  | _, [] => []
  | provider, c :: calls => c.received provider ++ receivedAlong (machine.next provider c) calls

theorem receivedAlong_snoc (calls : List Call) (c : Call) : receivedAlong provider (calls ++ [c]) =
    receivedAlong provider calls ++ c.received (machine.after provider calls) := by
  induction calls generalizing provider with
  | nil => simp [receivedAlong, Run.Machine.after]
  | cons d calls ih => simp [receivedAlong, ih]

end Received

/-! ## The cached key -/

section Cache
variable {provider : BinanceFuturesListenKeyProvider}

/-- **`get_listen_key`** answers with the cached key or with one that passes its check, and has it
cached; or it raises and changes nothing. -/
theorem getListenKey_cases (provider : BinanceFuturesListenKeyProvider) (post : Reply) :
    (Obtains provider post ∧ ∃ key, provider.getListenKey post = (.ok key, ⟨some key⟩) ∧
      (provider.listenKey = some key ∨ (provider.listenKey = none ∧ post.key = some key ∧ key ≠ ""))) ∨
    (¬ Obtains provider post ∧ ∃ error, provider.getListenKey post = (.error error, provider)) := by
  obtain ⟨listenKey⟩ := provider
  cases listenKey with
  | some key => exact .inl ⟨by simp [Obtains], key, rfl, .inl rfl⟩
  | none =>
    cases post with
    | raises error => exact .inr ⟨by simp [Obtains, Reply.key], error, rfl⟩
    | payload listenKey =>
      cases listenKey with
      | none => exact .inr ⟨by simp [Obtains, Reply.key], _, rfl⟩
      | some key =>
        by_cases empty : key = ""
        · subst key
          exact .inr ⟨by simp [Obtains, Reply.key], _, rfl⟩
        · exact .inl ⟨by simp [Obtains, Reply.key, empty], key, if_neg empty, .inr ⟨rfl, rfl, empty⟩⟩

/-- A key that may be cached or returned: not empty, and returned by the exchange. -/
def Usable (received : List String) (key : String) : Prop := key ≠ "" ∧ key ∈ received

/-- What holds after some calls. -/
structure AlwaysUsable (calls : List Call) : Prop where
  cached : ∀ key, (machine.after {} calls).listenKey = some key → Usable (receivedAlong {} calls) key
  returned : ∀ key, .ok (some key) ∈ machine.answers {} calls → key ≠ ""

/-- What a call other than an emptying one leaves: a key that was cached, or one that it has
received and that is not empty. -/
structure Kept (provider : BinanceFuturesListenKeyProvider) (c : Call) : Prop where
  cached : ∀ key, (machine.next provider c).listenKey = some key → provider.listenKey = some key ∨ Usable (c.received provider) key
  returned : ∀ key, machine.answer provider c = .ok (some key) → provider.listenKey = some key ∨ key ≠ ""

theorem kept_raised {c : Call} {error : PyError} (raises : machine.call provider c = (.error error, provider)) : Kept provider c := by
  constructor
  · intro key stored
    rw [Run.Machine.next, raises] at stored
    exact .inl stored
  · intro key returned
    rw [Run.Machine.answer, raises] at returned
    cases returned

/-- A call that leaves one key behind, and returns no other. -/
theorem kept_stored {c : Call} {key : String} {answer : Except PyError (Option String)}
    (answers : machine.call provider c = (answer, ⟨some key⟩)) (same : ∀ key', answer = .ok (some key') → key' = key)
    (fine : provider.listenKey = some key ∨ Usable (c.received provider) key) : Kept provider c := by
  constructor
  · intro key' stored
    rw [Run.Machine.next, answers] at stored
    cases stored
    exact fine
  · intro key' returned
    rw [Run.Machine.answer, answers] at returned
    rw [same key' returned]
    exact fine.imp_right And.left

/-- `get_listen_key` does not empty the cache. -/
theorem kept_getListenKey (provider : BinanceFuturesListenKeyProvider) (post : Reply) : Kept provider (.getListenKey post) := by
  have called : machine.call provider (.getListenKey post) =
      ((provider.getListenKey post).1.map some, (provider.getListenKey post).2) := rfl
  rcases getListenKey_cases provider post with ⟨-, key, gets, source⟩ | ⟨-, error, raises⟩
  · rw [gets] at called
    refine kept_stored called (fun key' same => by cases same; rfl) (source.imp_right ?_)
    rintro ⟨missing, replied, nonempty⟩
    exact ⟨nonempty, by simp [Call.received, missing, replied]⟩
  · rw [raises] at called
    exact kept_raised called

/-- `keepalive` takes the key of its PUT unchecked: a missing one leaves the key as it was, an
empty one empties the cache. -/
theorem keepalive_cases (provider : BinanceFuturesListenKeyProvider) (post put : Reply) :
    ((Call.keepalive post put).Empties provider ∧ machine.call provider (.keepalive post put) = (.ok (some ""), ⟨some ""⟩)) ∨
      (¬ (Call.keepalive post put).Empties provider ∧ Kept provider (.keepalive post put)) := by
  have called : machine.call provider (.keepalive post put) =
      ((provider.keepalive post put).1.map some, (provider.keepalive post put).2) := rfl
  unfold BinanceFuturesListenKeyProvider.keepalive at called
  rcases getListenKey_cases provider post with ⟨obtains, key, gets, source⟩ | ⟨fails, error, raises⟩
  · rw [gets] at called
    have fine : provider.listenKey = some key ∨ Usable (Call.received provider (.keepalive post put)) key := by
      refine source.imp_right ?_
      rintro ⟨missing, replied, nonempty⟩
      exact ⟨nonempty, by simp [Call.received, missing, replied]⟩
    cases put with
    | raises error =>
      right
      exact ⟨by simp [Call.Empties, Reply.key], kept_stored called (fun key' same => nomatch same) fine⟩
    | payload listenKey =>
      cases listenKey with
      | none =>
        right
        exact ⟨by simp [Call.Empties, Reply.key], kept_stored called (fun key' same => by cases same; rfl) fine⟩
      | some renewed =>
        by_cases empty : renewed = ""
        · subst renewed
          exact .inl ⟨⟨obtains, rfl⟩, called⟩
        · right
          refine ⟨by simp [Call.Empties, Reply.key, empty], kept_stored called (fun key' same => by cases same; rfl) (.inr ⟨empty, ?_⟩)⟩
          simp [Call.received, obtains, Reply.key]
  · rw [raises] at called
    exact .inr ⟨fun empties => fails empties.1, kept_raised called⟩

/-- **One call** stores and returns a key that it had or that passes the check, or its PUT is
answered with an empty key; then it stores and returns the empty key. -/
theorem call_cases (provider : BinanceFuturesListenKeyProvider) (c : Call) :
    (c.Empties provider ∧ machine.call provider c = (.ok (some ""), ⟨some ""⟩)) ∨ (¬ c.Empties provider ∧ Kept provider c) := by
  cases c with
  | getListenKey post => exact .inr ⟨id, kept_getListenKey provider post⟩
  | keepalive post put => exact keepalive_cases provider post put
  | clearCachedListenKey =>
    right
    refine ⟨id, ?_, ?_⟩
    · intro key stored
      cases stored
    · intro key returned
      cases returned

/-- **One more call** keeps the keys usable exactly when it is no emptying one. -/
theorem AlwaysUsable.snoc {calls : List Call} (usable : AlwaysUsable calls) (c : Call) :
    AlwaysUsable (calls ++ [c]) ↔ ¬ c.Empties (machine.after {} calls) := by
  constructor
  · intro later empties
    rcases call_cases (machine.after {} calls) c with ⟨-, answers⟩ | ⟨fine, -⟩
    · have stored : (machine.after {} (calls ++ [c])).listenKey = some "" := by
        rw [Run.Machine.after_snoc, Run.Machine.next, answers]
      exact (later.cached "" stored).1 rfl
    · exact fine empties
  · intro fine
    obtain ⟨-, kept⟩ := (call_cases (machine.after {} calls) c).resolve_left fun emptied => fine emptied.1
    constructor
    · intro key stored
      rw [Run.Machine.after_snoc] at stored
      rw [receivedAlong_snoc]
      rcases kept.cached key stored with had | ⟨nonempty, received⟩
      · obtain ⟨nonempty, received⟩ := usable.cached key had
        exact ⟨nonempty, List.mem_append_left _ received⟩
      · exact ⟨nonempty, List.mem_append_right _ received⟩
    · intro key returned
      rw [Run.Machine.answers_snoc] at returned
      rcases List.mem_append.mp returned with old | new
      · exact usable.returned key old
      · rcases kept.returned key (List.mem_singleton.mp new).symm with had | nonempty
        · exact (usable.cached key had).1
        · exact nonempty

/-- **The cached key** is usable, and no call returns an empty one, in every state of a run exactly
when no PUT of the run is answered with an empty key. -/
theorem listen_key_usable_iff (calls : List Call) :
    (∀ done rest, calls = done ++ rest → AlwaysUsable done) ↔
      ∀ done c rest, calls = done ++ c :: rest → ¬ c.Empties (machine.after {} done) := by
  have start : AlwaysUsable [] := by
    constructor
    · intro key stored
      cases stored
    · intro key returned
      cases returned
  have each : (∀ done c rest, calls = done ++ c :: rest → AlwaysUsable (done ++ [c])) ↔
      ∀ done c rest, calls = done ++ c :: rest → ¬ c.Empties (machine.after {} done) :=
    Run.each_iff (P := AlwaysUsable) start (fun done c rest _ usable => usable.snoc c)
      fun done c rest _ usable fine => (usable.snoc c).mpr fine
  rw [← each]
  constructor
  · intro usable done c rest split
    exact usable (done ++ [c]) rest (by rw [split, List.append_assoc]; rfl)
  · intro later done rest split
    rcases List.eq_nil_or_concat done with rfl | ⟨init, c, rfl⟩
    · exact start
    · rw [List.concat_eq_append] at split ⊢
      exact later init c rest (by rw [split, List.append_assoc]; rfl)

/-- A key is fetched and kept alive, and the reply to the PUT has an empty key. -/
def emptied : List Call := [.getListenKey (.payload (some "lk-1")), .keepalive (.payload none) (.payload (some ""))]

/-- The empty key is returned and cached, and the next call returns it without a request. -/
theorem listen_key_emptied : (machine.after {} emptied).listenKey = some "" ∧
    machine.answers {} (emptied ++ [.getListenKey (.payload (some "lk-2"))]) = [.ok (some "lk-1"), .ok (some ""), .ok (some "")] := by
  decide +kernel

end Cache

end CryptoQuant.ListenKey
