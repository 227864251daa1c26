import CryptoQuant.Compliance.Chain
import CryptoQuant.Execution.MultiAccount.Sends

/-!
# What the executor writes to its audit trail

One call of `execute_market` writes nothing, an idempotent return, a block, or a
submission right before its gateway call and an acknowledgement right after it.
So over a run the submissions are the gateway calls, and the acknowledgements
are the cached acks.
-/

namespace CryptoQuant.MultiAccount
set_option autoImplicit false

open MultiAccountLiveExecutor

/-- What is handed to `append`: the type of the event, its actor and its payload. -/
abbrev Note := String × String × Value

/-- A note of the executor. -/
def note (eventType : String) (payload : List (String × Value)) : Note :=
  (eventType, "multi_account_live_executor", .mapping payload)

def submittedNote (req : MultiAccountOrderRequest) : Note := note "execution.order_submitted" (orderFields req)

def repeatedNote (req : MultiAccountOrderRequest) : Note := note "execution.idempotent_return" (orderFields req)

def blockedNote (req : MultiAccountOrderRequest) (reasons : List String) : Note :=
  note "compliance.order_blocked" (orderFields req ++ [("reasons", .list (reasons.map Value.text))])

def acknowledgedNote (key : String × String) (ack : LiveOrderAck) : Note :=
  note "execution.order_acknowledged"
    [("account_id", .text key.1), ("client_order_id", .text key.2), ("exchange_order_id", .text ack.exchangeOrderId),
      ("accepted_at", .text ack.acceptedAt.isoformat)]

/-- What an event was written with. -/
def noteOf (event : AuditEvent) : Note := (event.eventType, event.actor, event.payload)

/-- The request that a gateway call was made for. -/
def GatewayCall.request (call : GatewayCall) : MultiAccountOrderRequest :=
  ⟨call.accountId, call.clientOrderId, call.symbol, call.qty⟩

/-- The account and the client id that a payload names. -/
def orderKey : Value → Option (String × String)
  | .mapping items =>
    match items.lookup "account_id", items.lookup "client_order_id" with
    | some (.text accountId), some (.text clientOrderId) => some (accountId, clientOrderId)
    | _, _ => none
  | _ => none

/-- The note acknowledges an order of the key. -/
def acknowledges (key : String × String) (n : Note) : Bool :=
  decide (n.1 = "execution.order_acknowledged") && decide (orderKey n.2.2 = some key)

/-- The request gets to the compliance check and is denied there. -/
structure Denied (ex : MultiAccountLiveExecutor) (req : MultiAccountOrderRequest) : Prop where
  qty : req.qty ≠ 0
  allowed : ex.assertAllowsExecution req.accountId = .ok ()
  unacked : ex.acks.get? req.cacheKey = none
  denied : (ex.checkOrder req).allowed = false

/-- The notes were added to the trail, and nothing was cached or sent. -/
structure Wrote (ex ex' : MultiAccountLiveExecutor) (notes : List Note) : Prop where
  trail : ex'.auditTrail = ex.auditTrail.map fun trail => trail.appendAll notes
  acks : ex'.acks = ex.acks
  calls : ex'.calls = ex.calls

theorem Wrote.nothing {ex ex' : MultiAccountLiveExecutor} (trail : ex'.auditTrail = ex.auditTrail)
    (acks : ex'.acks = ex.acks) (calls : ex'.calls = ex.calls) : Wrote ex ex' [] := by
  refine ⟨?_, acks, calls⟩
  rw [trail]
  cases ex.auditTrail with
  | none => rfl
  | some trail => rfl

theorem wrote_audit (ex : MultiAccountLiveExecutor) (eventType : String) (payload : List (String × Value)) :
    Wrote ex (ex.audit eventType payload) [note eventType payload] :=
  ⟨rfl, rfl, rfl⟩

/-- What one `execute_market` call writes and sends. -/
inductive Audited (ex : MultiAccountLiveExecutor) (req : MultiAccountOrderRequest) (exchange : Exchange) :
    MultiAccountLiveExecutor → Prop
  | quiet (ex' : MultiAccountLiveExecutor) (undenied : ¬ Denied ex req) (wrote : Wrote ex ex' []) :
      Audited ex req exchange ex'
  | repeated (ex' : MultiAccountLiveExecutor) (undenied : ¬ Denied ex req) (wrote : Wrote ex ex' [repeatedNote req]) :
      Audited ex req exchange ex'
  | blocked (ex' : MultiAccountLiveExecutor) (denied : Denied ex req)
      (wrote : Wrote ex ex' [blockedNote req (ex.checkOrder req).reasons]) : Audited ex req exchange ex'
  | sent (mid : MultiAccountLiveExecutor) (undenied : ¬ Denied ex req) (unacked : ex.acks.get? req.cacheKey = none)
      (wrote : Wrote ex mid [submittedNote req]) : Audited ex req exchange (mid.send req exchange).2

section Step
variable {ex : MultiAccountLiveExecutor} {req : MultiAccountOrderRequest} {exchange : Exchange}

/-- What the exits of `execute_market` make of the audit trail. -/
theorem executeMarket_audited : Audited ex req exchange (ex.executeMarket req exchange).2 := by
  have exit := @executeMarket_exit ex req exchange
  generalize ex.executeMarket req exchange = result at exit
  have allowed : (ex.checkOrder req).allowed = true → ¬ Denied ex req := by
    intro allowed denied
    rw [denied.denied] at allowed
    cases allowed
  have acked : ∀ {ack}, ex.acks.get? req.cacheKey = some ack → ¬ Denied ex req := by
    intro ack found denied
    rw [denied.unacked] at found
    cases found
  cases exit with
  | zero e zero => exact .quiet ex (fun denied => denied.qty zero) (.nothing rfl rfl rfl)
  | halted e halted =>
    refine .quiet ex (fun denied => ?_) (.nothing rfl rfl rfl)
    rw [denied.allowed] at halted
    cases halted
  | conflicting e ack found payload => exact .quiet ex (acked found) (.nothing rfl rfl rfl)
  | repeated ack found payload => exact .repeated _ (acked found) (wrote_audit ex _ _)
  | denied e qty allowed unacked denied => exact .blocked _ ⟨qty, allowed, unacked, denied⟩ (wrote_audit ex _ _)
  | unknown e compliant missing => exact .quiet ex (allowed compliant) (.nothing rfl rfl rfl)
  | closed ref e order passes found moved => exact .quiet ex (allowed passes.compliant) (.nothing rfl rfl rfl)
  | sent ref passes new => exact .sent _ (allowed passes.compliant) passes.unacked ⟨rfl, rfl, rfl⟩

/-- The gateway call of `send`, and the acknowledgement of an accepted order. -/
theorem send_cases :
    (∃ e, (ex.send req exchange).2.calls = ex.calls ++ [callOf req (.error e)] ∧
      (ex.send req exchange).2.acks = ex.acks ∧ (ex.send req exchange).2.auditTrail = ex.auditTrail) ∨
    (∃ ack, (ex.send req exchange).2.calls = ex.calls ++ [callOf req (.ok ack)] ∧
      (ex.send req exchange).2.acks = ex.acks.set req.cacheKey ack ∧
      (ex.send req exchange).2.auditTrail =
        ex.auditTrail.map fun trail => trail.appendAll [acknowledgedNote req.cacheKey ack]) := by
  unfold send
  generalize ex.gateway.placeMarketOrder exchange req.accountId req.symbol req.qty req.clientOrderId = outcome
  cases outcome with
  | error e => exact .inl ⟨e, rfl, rfl, rfl⟩
  | ok ack => exact .inr ⟨ack, rfl, rfl, rfl⟩

end Step

/-! ## The trail over a run -/

/-- The trail, the cache and the log of gateway calls agree: the notes added to
the trail hold a submission for each gateway call, in their order, and an
acknowledgement for each cached ack. -/
structure Logged (trail : AuditTrail) (notes : List Note) (ex : MultiAccountLiveExecutor) : Prop where
  attached : ex.auditTrail = some (trail.appendAll notes)
  plain : ∀ n ∈ notes, redactSecrets n.2.2 = n.2.2
  submitted : notes.filter (fun n => n.1 = "execution.order_submitted") =
    ex.calls.map fun call => submittedNote call.request
  acknowledged : ∀ key, notes.filter (acknowledges key) = ((ex.acks.get? key).map (acknowledgedNote key)).toList

section Redaction
variable {mask : String} {keys : List String}

theorem redactList_text (texts : List String) : redactList mask keys (texts.map Value.text) = texts.map Value.text := by
  induction texts with
  | nil => rfl
  | cons s rest ih => rw [List.map_cons, redactList, redactWith, ih]

/-- Items without a secret name are kept as they are. -/
theorem redactItems_plain {items : List (String × Value)}
    (plain : ∀ p ∈ items, strLower p.1 ∉ keys ∧ redactWith mask keys p.2 = p.2) :
    redactItems mask keys items = items := by
  induction items with
  | nil => rfl
  | cons p rest ih =>
    obtain ⟨open_, kept⟩ := plain p List.mem_cons_self
    rw [redactItems, if_neg open_, kept, ih fun q member => plain q (List.mem_cons_of_mem _ member)]

end Redaction

/-- The item of a payload is written to the trail as it is. -/
def Shown (item : String × Value) : Prop :=
  strLower item.1 ∉ defaultSecretKeys.map strLower ∧ redactWith "***" (defaultSecretKeys.map strLower) item.2 = item.2

/-- The names in the payloads of the executor. -/
theorem not_secret : ∀ name ∈ ["account_id", "client_order_id", "symbol", "qty", "reasons", "exchange_order_id",
    "accepted_at"], strLower name ∉ defaultSecretKeys.map strLower := by
  decide +kernel

section Log
variable {trail : AuditTrail} {notes : List Note} {ex ex' : MultiAccountLiveExecutor} {req : MultiAccountOrderRequest}

theorem redact_note {payload : List (String × Value)} (shown : ∀ item ∈ payload, Shown item) (eventType : String) :
    redactSecrets (note eventType payload).2.2 = (note eventType payload).2.2 :=
  congrArg Value.mapping (redactItems_plain shown)

theorem shown_orderFields : ∀ item ∈ orderFields req, Shown item := by
  intro item member
  simp only [orderFields, List.mem_cons, List.not_mem_nil, or_false] at member
  rcases member with rfl | rfl | rfl | rfl <;> exact ⟨not_secret _ (by simp), rfl⟩

theorem redact_blocked (reasons : List String) :
    redactSecrets (blockedNote req reasons).2.2 = (blockedNote req reasons).2.2 := by
  refine redact_note (fun item member => ?_) _
  rcases List.mem_append.mp member with order | last
  · exact shown_orderFields item order
  · rw [List.mem_singleton.mp last]
    exact ⟨not_secret _ (by simp), congrArg Value.list (redactList_text reasons)⟩

theorem redact_acknowledged (key : String × String) (ack : LiveOrderAck) :
    redactSecrets (acknowledgedNote key ack).2.2 = (acknowledgedNote key ack).2.2 := by
  refine redact_note (fun item member => ?_) _
  simp only [List.mem_cons, List.not_mem_nil, or_false] at member
  rcases member with rfl | rfl | rfl | rfl <;> exact ⟨not_secret _ (by simp), rfl⟩

theorem appendAll_append (more : List Note) : (trail.appendAll notes).appendAll more = trail.appendAll (notes ++ more) :=
  List.foldl_append.symm

theorem Wrote.attached {more : List Note} (wrote : Wrote ex ex' more) (attached : ex.auditTrail = some (trail.appendAll notes)) :
    ex'.auditTrail = some (trail.appendAll (notes ++ more)) := by
  rw [wrote.trail, attached, Option.map_some, appendAll_append]

theorem acknowledges_self (key : String × String) (ack : LiveOrderAck) :
    acknowledges key (acknowledgedNote key ack) = true := by
  have named : orderKey (acknowledgedNote key ack).2.2 = some key := rfl
  have kind : (acknowledgedNote key ack).1 = "execution.order_acknowledged" := rfl
  simp [acknowledges, named, kind]

theorem acknowledges_other {key key' : String × String} (other : key' ≠ key) (ack : LiveOrderAck) :
    acknowledges key' (acknowledgedNote key ack) = false := by
  have named : orderKey (acknowledgedNote key ack).2.2 = some key := rfl
  simp [acknowledges, named, Ne.symm other]

theorem acknowledges_of_kind {n : Note} (kind : n.1 ≠ "execution.order_acknowledged") (key : String × String) :
    acknowledges key n = false := by
  simp [acknowledges, kind]

/-- More notes, with the gateway calls and the acks they stand for. -/
theorem Logged.more (h : Logged trail notes ex) {more : List Note}
    (attached : ex'.auditTrail = some (trail.appendAll (notes ++ more))) (plain : ∀ n ∈ more, redactSecrets n.2.2 = n.2.2)
    (calls : (ex'.calls.map fun call => submittedNote call.request) =
      (ex.calls.map fun call => submittedNote call.request) ++ more.filter fun n => n.1 = "execution.order_submitted")
    (acks : ∀ key, ((ex'.acks.get? key).map (acknowledgedNote key)).toList =
      ((ex.acks.get? key).map (acknowledgedNote key)).toList ++ more.filter (acknowledges key)) :
    Logged trail (notes ++ more) ex' where
  attached := attached
  plain := by
    intro n member
    rcases List.mem_append.mp member with old | new
    · exact h.plain n old
    · exact plain n new
  submitted := by rw [List.filter_append, h.submitted, calls]
  acknowledged := by
    intro key
    rw [List.filter_append, h.acknowledged, acks]

/-- Notes of another kind, with nothing cached or sent. -/
theorem Logged.wrote (h : Logged trail notes ex) {more : List Note} (wrote : Wrote ex ex' more)
    (plain : ∀ n ∈ more, redactSecrets n.2.2 = n.2.2)
    (kind : ∀ n ∈ more, n.1 ≠ "execution.order_submitted" ∧ n.1 ≠ "execution.order_acknowledged") :
    Logged trail (notes ++ more) ex' := by
  refine h.more (wrote.attached h.attached) plain ?_ fun key => ?_
  · have unsent : (more.filter fun n => n.1 = "execution.order_submitted") = [] :=
      List.filter_eq_nil_iff.mpr fun n member => by simpa using (kind n member).1
    rw [unsent, List.append_nil, wrote.calls]
  · have unacked : more.filter (acknowledges key) = [] :=
      List.filter_eq_nil_iff.mpr fun n member => by simp [acknowledges_of_kind (kind n member).2]
    rw [unacked, List.append_nil, wrote.acks]

/-- A gateway call right after its submission. -/
theorem Logged.sent (h : Logged trail notes ex) {mid : MultiAccountLiveExecutor} (wrote : Wrote ex mid [submittedNote req])
    (unacked : ex.acks.get? req.cacheKey = none) (exchange : Exchange) :
    ∃ more, Logged trail (notes ++ submittedNote req :: more) (mid.send req exchange).2 := by
  have attached := wrote.attached h.attached
  have plain : redactSecrets (submittedNote req).2.2 = (submittedNote req).2.2 := redact_note shown_orderFields _
  have submission : (submittedNote req).1 = "execution.order_submitted" := rfl
  have unlike : ∀ key, acknowledges key (submittedNote req) = false := by
    intro key
    apply acknowledges_of_kind
    rw [submission]
    decide
  rcases @send_cases mid req exchange with ⟨e, calls, acks, same⟩ | ⟨ack, calls, acks, same⟩
  · refine ⟨[], h.more (same.trans attached) ?_ ?_ fun key => ?_⟩
    · intro n member
      rw [List.mem_singleton.mp member]
      exact plain
    · rw [calls, wrote.calls, List.map_append]
      rfl
    · rw [acks, wrote.acks, List.filter_cons_of_neg (by simp [unlike]), List.filter_nil, List.append_nil]
  · refine ⟨[acknowledgedNote req.cacheKey ack], h.more ?_ ?_ ?_ fun key => ?_⟩
    · rw [same, attached, Option.map_some, appendAll_append, List.append_assoc]
      rfl
    · intro n member
      rcases List.mem_cons.mp member with rfl | last
      · exact plain
      · rw [List.mem_singleton.mp last]
        exact redact_acknowledged _ _
    · rw [calls, wrote.calls, List.map_append]
      rfl
    · rw [acks, wrote.acks, List.filter_cons_of_neg (by simp [unlike]), Py.Dict.get?_set]
      by_cases own : key = req.cacheKey
      · rw [if_pos own, own, unacked, List.filter_cons_of_pos (acknowledges_self _ _)]
        rfl
      · rw [if_neg own, List.filter_cons_of_neg (by simp [acknowledges_other own]), List.filter_nil, List.append_nil]

/-- **Step lemma**: whatever happens, trail, cache and log stay in step. -/
theorem Logged.step (h : Logged trail notes ex) (action : Action) :
    ∃ more, Logged trail (notes ++ more) (machine.next ex action) := by
  have elsewhere : ∀ ex' : MultiAccountLiveExecutor, Wrote ex ex' [] → ∃ more, Logged trail (notes ++ more) ex' :=
    fun ex' wrote => ⟨[], h.wrote wrote (List.forall_mem_nil _) (List.forall_mem_nil _)⟩
  cases action with
  | execute req exchange =>
    show ∃ more, Logged trail (notes ++ more) (ex.executeMarket req exchange).2
    have outcome := @executeMarket_audited ex req exchange
    generalize (ex.executeMarket req exchange).2 = ex' at outcome
    cases outcome with
    | quiet ex' undenied wrote => exact elsewhere ex' wrote
    | repeated ex' undenied wrote =>
      refine ⟨_, h.wrote wrote ?_ ?_⟩
      · exact List.forall_mem_singleton.mpr (redact_note shown_orderFields _)
      · exact List.forall_mem_singleton.mpr ⟨by simp [repeatedNote, note], by simp [repeatedNote, note]⟩
    | blocked ex' denied wrote =>
      refine ⟨_, h.wrote wrote ?_ ?_⟩
      · exact List.forall_mem_singleton.mpr (redact_blocked _)
      · exact List.forall_mem_singleton.mpr ⟨by simp [blockedNote, note], by simp [blockedNote, note]⟩
    | sent mid undenied unacked wrote =>
      obtain ⟨more, logged⟩ := h.sent wrote unacked exchange
      exact ⟨_, logged⟩
  | engage reason scope accountId strategyId => exact elsewhere _ (.nothing rfl rfl rfl)
  | release scope accountId strategyId => exact elsewhere _ (.nothing rfl rfl rfl)
  | transition ref clientOrderId target reason => exact elsewhere _ (.nothing rfl rfl rfl)
  | report ref event => exact elsewhere _ (.nothing rfl rfl rfl)

theorem MultiAccountLiveExecutor.Fresh.logged (fresh : ex.Fresh) (attached : ex.auditTrail = some trail) :
    Logged trail [] ex where
  attached := attached
  plain := List.forall_mem_nil _
  submitted := by
    rw [fresh.calls]
    rfl
  acknowledged := by
    intro key
    rw [fresh.acks]
    rfl

/-- **Run lemma.** -/
theorem MultiAccountLiveExecutor.Fresh.logged_after (fresh : ex.Fresh) (attached : ex.auditTrail = some trail)
    (actions : List Action) : ∃ notes, Logged trail notes (machine.after ex actions) := by
  refine machine.always (P := fun ex => ∃ notes, Logged trail notes ex) ⟨[], fresh.logged attached⟩ ?_ actions
  intro ex action ⟨notes, h⟩
  obtain ⟨more, h'⟩ := h.step action
  exact ⟨_, h'⟩

/-- The events that a list of notes adds. -/
theorem events_appendAll (trail : AuditTrail) (plain : ∀ n ∈ notes, redactSecrets n.2.2 = n.2.2) :
    ∃ added, (trail.appendAll notes).events = trail.events ++ added ∧ added.map noteOf = notes := by
  induction notes using List.reverseRecOn with
  | nil => exact ⟨[], (List.append_nil _).symm, rfl⟩
  | append_singleton notes n ih =>
    obtain ⟨added, events, written⟩ := ih fun n member => plain n (List.mem_append_left _ member)
    obtain ⟨eventType, actor, payload⟩ := n
    refine ⟨added ++ [(trail.appendAll notes).nextEvent eventType actor payload], ?_, ?_⟩
    · rw [← appendAll_append, ← List.append_assoc, ← events]
      rfl
    · have kept : redactSecrets payload = payload := plain _ (List.mem_append_right _ List.mem_cons_self)
      rw [List.map_append, written]
      show notes ++ [(eventType, actor, redactSecrets payload)] = _
      rw [kept]

end Log

/-- The trail of the executor is the given one with one more event. -/
def HasAdded (trail : AuditTrail) (ex : MultiAccountLiveExecutor) (n : Note) : Prop :=
  ∃ trail' event, ex.auditTrail = some trail' ∧ trail'.events = trail.events ++ [event] ∧ noteOf event = n

section Complete
variable {trail : AuditTrail} {ex ex' : MultiAccountLiveExecutor} {req : MultiAccountOrderRequest} {exchange : Exchange}

theorem Wrote.hasAdded {n : Note} (wrote : Wrote ex ex' [n]) (attached : ex.auditTrail = some trail)
    (plain : redactSecrets n.2.2 = n.2.2) : HasAdded trail ex' n := by
  obtain ⟨added, events, written⟩ := events_appendAll trail (List.forall_mem_singleton.mpr plain)
  obtain ⟨event, rfl, same⟩ := List.map_eq_singleton_iff.mp written
  exact ⟨_, event, by rw [wrote.trail, attached]; rfl, events, same⟩

/-- A call that reaches the gateway does so right after its submission was written. -/
theorem submitted_before_call (attached : ex.auditTrail = some trail)
    (called : (ex.executeMarket req exchange).2.calls ≠ ex.calls) :
    ∃ mid, (ex.executeMarket req exchange).2 = (mid.send req exchange).2 ∧ mid.calls = ex.calls ∧
      HasAdded trail mid (submittedNote req) := by
  have outcome := @executeMarket_audited ex req exchange
  generalize (ex.executeMarket req exchange).2 = ex' at outcome called
  cases outcome with
  | quiet ex' undenied wrote => exact absurd wrote.calls called
  | repeated ex' undenied wrote => exact absurd wrote.calls called
  | blocked ex' denied wrote => exact absurd wrote.calls called
  | sent mid undenied unacked wrote =>
    exact ⟨mid, rfl, wrote.calls, wrote.hasAdded attached (redact_note shown_orderFields _)⟩

/-- A denied call writes its block, and is not sent. -/
theorem blocked_of_denied (attached : ex.auditTrail = some trail) (denied : Denied ex req) :
    HasAdded trail (ex.executeMarket req exchange).2 (blockedNote req (ex.checkOrder req).reasons) ∧
      (ex.executeMarket req exchange).2.calls = ex.calls := by
  have outcome := @executeMarket_audited ex req exchange
  generalize (ex.executeMarket req exchange).2 = ex' at outcome
  cases outcome with
  | quiet ex' undenied wrote => exact absurd denied undenied
  | repeated ex' undenied wrote => exact absurd denied undenied
  | blocked ex' denied wrote => exact ⟨wrote.hasAdded attached (redact_blocked _), wrote.calls⟩
  | sent mid undenied unacked wrote => exact absurd denied undenied

/-- **The audit log is complete.** After every run of an executor with a trail,
the trail verifies, its submissions are the gateway calls in their order, and
the acknowledgements of a key are the cached ack of the key, if it has one. The
next gateway call comes right after its own submission, and the next denial
adds its one block and makes no gateway call. -/
theorem audit_log_complete (fresh : ex.Fresh) (attached : ex.auditTrail = some trail)
    (verified : trail.verifyChain = true) (actions : List Action) :
    ∃ trail' added, (machine.after ex actions).auditTrail = some trail' ∧ trail'.events = trail.events ++ added ∧
      trail'.verifyChain = true ∧
      (added.filter fun event => event.eventType = "execution.order_submitted").map noteOf =
        ((machine.after ex actions).calls.map fun call => submittedNote call.request) ∧
      (∀ key, (added.filter fun event => acknowledges key (noteOf event)).map noteOf =
        (((machine.after ex actions).acks.get? key).map (acknowledgedNote key)).toList) ∧
      (∀ action, (machine.next (machine.after ex actions) action).calls ≠ (machine.after ex actions).calls →
        ∃ req exchange mid, action = .execute req exchange ∧
          machine.next (machine.after ex actions) action = (mid.send req exchange).2 ∧
          mid.calls = (machine.after ex actions).calls ∧ HasAdded trail' mid (submittedNote req)) ∧
      ∀ req exchange, Denied (machine.after ex actions) req →
        HasAdded trail' (machine.next (machine.after ex actions) (.execute req exchange))
            (blockedNote req ((machine.after ex actions).checkOrder req).reasons) ∧
          (machine.next (machine.after ex actions) (.execute req exchange)).calls = (machine.after ex actions).calls := by
  obtain ⟨notes, logged⟩ := fresh.logged_after attached actions
  obtain ⟨added, events, written⟩ := events_appendAll trail logged.plain
  refine ⟨trail.appendAll notes, added, logged.attached, events, verifyChain_appendAll verified notes, ?_, fun key => ?_,
    fun action called => ?_, fun req exchange denied => blocked_of_denied logged.attached denied⟩
  · rw [← logged.submitted, ← written, List.filter_map]
    rfl
  · rw [← logged.acknowledged, ← written, List.filter_map]
    rfl
  · obtain ⟨req, exchange, outcome, rfl, -, -⟩ := calls_of_next action called
    obtain ⟨mid, sent, calls, submitted⟩ := submitted_before_call logged.attached called
    exact ⟨req, exchange, mid, rfl, sent, calls, submitted⟩

end Complete

/-- `desk` with an empty audit trail and a limit on the quantity. -/
def auditedDesk : MultiAccountLiveExecutor :=
  { desk with
    auditTrail := some { nowMsFn := fun n => n, computeHash := fun record => toString record.seq }
    complianceChecker := some fun _ _ qty => { allowed := decide (qty ≤ 2), reasons := ["qty"] } }

/-- A denial, a gateway that raises, a retry and a repeat. -/
theorem audit_log_complete_desk : ∃ trail' added,
    (machine.after auditedDesk [.execute (buy 3) accepting, .execute (buy 1) unreachable, .execute (buy 1) accepting,
      .execute (buy 1) accepting]).auditTrail = some trail' ∧
    trail'.events = added ∧ trail'.verifyChain = true ∧
    (added.filter fun event => event.eventType = "execution.order_submitted").map noteOf =
      [submittedNote (buy 1), submittedNote (buy 1)] := by
  have fresh : auditedDesk.Fresh := ⟨rfl, rfl, rfl⟩
  obtain ⟨trail', added, attached, events, verified, submitted, -⟩ :=
    audit_log_complete fresh rfl rfl
      [.execute (buy 3) accepting, .execute (buy 1) unreachable, .execute (buy 1) accepting, .execute (buy 1) accepting]
  exact ⟨trail', added, attached, events, verified, submitted⟩

end CryptoQuant.MultiAccount
