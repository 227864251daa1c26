import CryptoQuant.Execution.MultiAccount.Model

/-!
# What the executor sends

One call of `execute_market` either leaves everything but the audit trail alone,
or passes every gate, stores its order and makes one gateway call. From that the
run facts follow: an ack is final, and no gateway call passes a closed gate.
-/

namespace CryptoQuant.MultiAccount
set_option autoImplicit false

open MultiAccountLiveExecutor

/-- The two states differ at most in the audit trail. -/
structure SameBooks (ex ex' : MultiAccountLiveExecutor) : Prop where
  omsByAccount : ex'.omsByAccount = ex.omsByAccount
  killSwitch : ex'.killSwitch = ex.killSwitch
  complianceChecker : ex'.complianceChecker = ex.complianceChecker
  acks : ex'.acks = ex.acks
  fingerprints : ex'.requestFingerprintByKey = ex.requestFingerprintByKey
  heap : ex'.heap = ex.heap
  calls : ex'.calls = ex.calls

theorem SameBooks.refl (ex : MultiAccountLiveExecutor) : SameBooks ex ex :=
  ⟨rfl, rfl, rfl, rfl, rfl, rfl, rfl⟩

theorem audit_same (ex : MultiAccountLiveExecutor) (eventType : String) (payload : List (String × Value)) :
    SameBooks ex (ex.audit eventType payload) :=
  ⟨rfl, rfl, rfl, rfl, rfl, rfl, rfl⟩

/-- The request passes every gate before its order is submitted to the system `ref`. -/
structure Passes (ex : MultiAccountLiveExecutor) (req : MultiAccountOrderRequest) (ref : OmsRef) : Prop where
  qty : req.qty ≠ 0
  allowed : ex.assertAllowsExecution req.accountId = .ok ()
  unacked : ex.acks.get? req.cacheKey = none
  compliant : (ex.checkOrder req).allowed = true
  account : ex.omsByAccount.get? req.accountId = some ref

/-- The executor with the order of the request stored. -/
def stored (ex : MultiAccountLiveExecutor) (req : MultiAccountOrderRequest) (ref : OmsRef) :
    MultiAccountLiveExecutor :=
  let oms := ((ex.heap ref).submit req.scopedClientOrderId req.symbol req.qty).2
  { ex with heap := Function.update ex.heap ref oms }

/-- The gateway call of a request. -/
def callOf (req : MultiAccountOrderRequest) (outcome : Except PyError LiveOrderAck) : GatewayCall :=
  ⟨req.accountId, req.symbol, req.qty, req.clientOrderId, outcome⟩

/-- The exits of `execute_market`, each with what selects it. -/
inductive Exit (ex : MultiAccountLiveExecutor) (req : MultiAccountOrderRequest) (exchange : Exchange) :
    Except PyError LiveOrderAck × MultiAccountLiveExecutor → Prop
  | zero (e : PyError) (zero : req.qty = 0) : Exit ex req exchange (.error e, ex)
  | halted (e : PyError) (halted : ex.assertAllowsExecution req.accountId = .error e) : Exit ex req exchange (.error e, ex)
  | conflicting (e : PyError) (ack : LiveOrderAck) (found : ex.acks.get? req.cacheKey = some ack)
      (payload : ex.requestFingerprintByKey.get? req.cacheKey ≠ some req.fingerprint) :
      Exit ex req exchange (.error e, ex)
  | repeated (ack : LiveOrderAck) (found : ex.acks.get? req.cacheKey = some ack)
      (payload : ex.requestFingerprintByKey.get? req.cacheKey = some req.fingerprint) :
      Exit ex req exchange (.ok ack, ex.audit "execution.idempotent_return" (orderFields req))
  | denied (e : PyError) (qty : req.qty ≠ 0) (allowed : ex.assertAllowsExecution req.accountId = .ok ())
      (unacked : ex.acks.get? req.cacheKey = none) (denied : (ex.checkOrder req).allowed = false) :
      Exit ex req exchange (.error e, ex.audit "compliance.order_blocked"
        (orderFields req ++ [("reasons", .list ((ex.checkOrder req).reasons.map Value.text))]))
  | unknown (e : PyError) (compliant : (ex.checkOrder req).allowed = true)
      (missing : ex.omsByAccount.get? req.accountId = none) : Exit ex req exchange (.error e, ex)
  | closed (ref : OmsRef) (e : PyError) (order : Order) (passes : Passes ex req ref)
      (found : (ex.heap ref).get req.scopedClientOrderId = some order) (moved : order.status ≠ .new) :
      Exit ex req exchange (.error e, ex)
  | sent (ref : OmsRef) (passes : Passes ex req ref)
      (new : ∀ order, (ex.heap ref).get req.scopedClientOrderId = some order → order.status = .new) :
      Exit ex req exchange (((stored ex req ref).audit "execution.order_submitted" (orderFields req)).send req exchange)

/-- What one `execute_market` call can do. -/
inductive Executed (ex : MultiAccountLiveExecutor) (req : MultiAccountOrderRequest) :
    Except PyError LiveOrderAck × MultiAccountLiveExecutor → Prop
  | refused (e : PyError) (ex' : MultiAccountLiveExecutor) (same : SameBooks ex ex') : Executed ex req (.error e, ex')
  | repeated (ack : LiveOrderAck) (ex' : MultiAccountLiveExecutor) (same : SameBooks ex ex')
      (found : ex.acks.get? req.cacheKey = some ack)
      (payload : ex.requestFingerprintByKey.get? req.cacheKey = some req.fingerprint) :
      Executed ex req (.ok ack, ex')
  | failed (ref : OmsRef) (e : PyError) (ex' : MultiAccountLiveExecutor) (passes : Passes ex req ref)
      (new : ∀ order, (ex.heap ref).get req.scopedClientOrderId = some order → order.status = .new)
      (same : SameBooks { stored ex req ref with calls := ex.calls ++ [callOf req (.error e)] } ex') :
      Executed ex req (.error e, ex')
  | acked (ref : OmsRef) (ack : LiveOrderAck) (ex' : MultiAccountLiveExecutor) (passes : Passes ex req ref)
      (new : ∀ order, (ex.heap ref).get req.scopedClientOrderId = some order → order.status = .new)
      (same : SameBooks
        { stored ex req ref with
          calls := ex.calls ++ [callOf req (.ok ack)]
          acks := ex.acks.set req.cacheKey ack
          requestFingerprintByKey := ex.requestFingerprintByKey.set req.cacheKey req.fingerprint } ex') :
      Executed ex req (.ok ack, ex')

section Step
variable {ex : MultiAccountLiveExecutor} {req : MultiAccountOrderRequest} {exchange : Exchange}

/-- From the submit on: the order is stored, and sent unless it has left `NEW`. -/
theorem submitAndSend_exit {ref : OmsRef} (passes : Passes ex req ref) :
    Exit ex req exchange (ex.submitAndSend req exchange ref) := by
  unfold submitAndSend
  simp only
  by_cases moved : ((ex.heap ref).submit req.scopedClientOrderId req.symbol req.qty).1.status ≠ .new
  · rw [if_pos moved]
    -- only an order stored before can have left `NEW`, and `submit` leaves it as it is
    cases found : (ex.heap ref).get req.scopedClientOrderId with
    | some order =>
      rw [OMS.submit_of_some _ _ _ _ found] at moved ⊢
      rw [Function.update_eq_self]
      exact .closed ref _ order passes found moved
    | none =>
      rw [OMS.submit_of_none _ _ _ _ found] at moved
      exact absurd rfl moved
  · rw [if_neg moved]
    refine .sent ref passes fun order found => ?_
    rw [OMS.submit_of_some _ _ _ _ found] at moved
    exact not_not.mp moved

/-- **Inversion of `execute_market`.** -/
theorem executeMarket_exit : Exit ex req exchange (ex.executeMarket req exchange) := by
  unfold executeMarket
  by_cases zero : req.qty = 0
  · rw [if_pos zero]
    exact .zero _ zero
  · rw [if_neg zero]
    cases allowed : ex.assertAllowsExecution req.accountId with
    | error e => exact .halted e allowed
    | ok passed =>
      cases found : ex.acks.get? req.cacheKey with
      | some ack =>
        simp only
        by_cases conflict : ex.requestFingerprintByKey.get? req.cacheKey ≠ some req.fingerprint
        · rw [if_pos conflict]
          exact .conflicting _ ack found conflict
        · rw [if_neg conflict]
          exact .repeated ack found (not_not.mp conflict)
      | none =>
        simp only
        unfold executeFresh
        simp only
        by_cases denied : (ex.checkOrder req).allowed = false
        · rw [if_pos denied]
          exact .denied _ zero allowed found denied
        · rw [if_neg denied]
          have compliant : (ex.checkOrder req).allowed = true := Bool.not_eq_false _ ▸ denied
          cases account : ex.omsByAccount.get? req.accountId with
          | none => exact .unknown _ compliant account
          | some ref => exact submitAndSend_exit ⟨zero, allowed, found, compliant, account⟩

/-- From the gateway call on, with the order stored. -/
theorem send_executed {ref : OmsRef} {ex' : MultiAccountLiveExecutor} (passes : Passes ex req ref)
    (new : ∀ order, (ex.heap ref).get req.scopedClientOrderId = some order → order.status = .new)
    (same : SameBooks (stored ex req ref) ex') : Executed ex req (ex'.send req exchange) := by
  unfold send
  simp only
  split
  · rename_i e failed
    refine .failed ref e _ passes new
      ⟨same.omsByAccount, same.killSwitch, same.complianceChecker, same.acks, same.fingerprints, same.heap, ?_⟩
    show ex'.calls ++ [_] = ex.calls ++ [_]
    rw [same.calls, failed]
    rfl
  · rename_i ack acked
    refine .acked ref ack _ passes new
      ⟨same.omsByAccount, same.killSwitch, same.complianceChecker, ?_, ?_, same.heap, ?_⟩
    · exact congrArg (·.set req.cacheKey ack) same.acks
    · exact congrArg (·.set req.cacheKey req.fingerprint) same.fingerprints
    · show ex'.calls ++ [_] = ex.calls ++ [_]
      rw [same.calls, acked]
      rfl

/-- What the exits make of the books. -/
theorem executeMarket_executed : Executed ex req (ex.executeMarket req exchange) := by
  have exit := @executeMarket_exit ex req exchange
  generalize ex.executeMarket req exchange = result at exit
  cases exit with
  | zero e zero => exact .refused e ex (.refl ex)
  | halted e halted => exact .refused e ex (.refl ex)
  | conflicting e ack found payload => exact .refused e ex (.refl ex)
  | repeated ack found payload => exact .repeated ack _ (audit_same ex _ _) found payload
  | denied e qty allowed unacked denied => exact .refused e _ (audit_same ex _ _)
  | unknown e compliant missing => exact .refused e ex (.refl ex)
  | closed ref e order passes found moved => exact .refused e ex (.refl ex)
  | sent ref passes new => exact send_executed passes new (audit_same _ _ _)

/-- **An acked key is closed**: a request that passes the kill switch gets the
stored ack back, or raises when its payload differs. -/
theorem executeMarket_of_acked (exchange : Exchange) {ack : LiveOrderAck} (found : ex.acks.get? req.cacheKey = some ack)
    (allowed : ex.assertAllowsExecution req.accountId = .ok ()) (qty : req.qty ≠ 0) :
    (ex.requestFingerprintByKey.get? req.cacheKey = some req.fingerprint →
      (ex.executeMarket req exchange).1 = .ok ack) ∧
    (ex.requestFingerprintByKey.get? req.cacheKey ≠ some req.fingerprint →
      ∃ e, (ex.executeMarket req exchange).1 = .error e) := by
  unfold executeMarket
  rw [if_neg qty, allowed, found]
  simp only
  constructor
  · intro same
    rw [if_neg (not_not.mpr same)]
  · intro other
    rw [if_pos other]
    exact ⟨_, rfl⟩

/-- A request for an acked key makes no gateway call. -/
theorem executeMarket_calls_of_acked {ack : LiveOrderAck} (found : ex.acks.get? req.cacheKey = some ack) :
    (ex.executeMarket req exchange).2.calls = ex.calls := by
  have outcome := @executeMarket_executed ex req exchange
  generalize ex.executeMarket req exchange = result at outcome
  cases outcome with
  | refused e ex' same => exact same.calls
  | repeated ack ex' same => exact same.calls
  | failed ref e ex' passes => exact absurd (found.symm.trans passes.unacked) nofun
  | acked ref ack ex' passes => exact absurd (found.symm.trans passes.unacked) nofun

end Step

/-! ## The ledger of acks over a run -/

/-- The call was made for a key and returned an ack. -/
def GatewayCall.acksKey (key : String × String) (call : GatewayCall) : Bool :=
  decide (call.key = key) && call.outcome.isOk

/-- The ack tables and the log of gateway calls agree: an ack is stored for the
keys that have an acked call, which is then the only one, and the fingerprint
stored is that call's payload. -/
structure Ledgered (ex : MultiAccountLiveExecutor) : Prop where
  stored : ∀ call ∈ ex.calls, ∀ ack, call.outcome = .ok ack →
    ex.acks.get? call.key = some ack ∧ ex.requestFingerprintByKey.get? call.key = some (call.symbol, call.qty)
  backed : ∀ key ack, ex.acks.get? key = some ack → ∃ call ∈ ex.calls, call.key = key ∧ call.outcome = .ok ack
  once : ∀ key, (ex.calls.filter (GatewayCall.acksKey key)).length ≤ 1
  nonzero : ∀ call ∈ ex.calls, call.qty ≠ 0

section Ledger
variable {ex ex' : MultiAccountLiveExecutor} {req : MultiAccountOrderRequest}

/-- The invariant speaks of the acks, the fingerprints and the log. -/
theorem Ledgered.of_same (h : Ledgered ex) (acks : ex'.acks = ex.acks)
    (fingerprints : ex'.requestFingerprintByKey = ex.requestFingerprintByKey) (calls : ex'.calls = ex.calls) :
    Ledgered ex' := by
  refine ⟨?_, ?_, ?_, ?_⟩
  · rw [acks, fingerprints, calls]
    exact h.stored
  · rw [acks, calls]
    exact h.backed
  · rw [calls]
    exact h.once
  · rw [calls]
    exact h.nonzero

/-- The call of a request with a quantity is added. -/
theorem Ledgered.nonzero_snoc (h : Ledgered ex) (qty : req.qty ≠ 0) {outcome : Except PyError LiveOrderAck}
    (calls : ex'.calls = ex.calls ++ [callOf req outcome]) : ∀ call ∈ ex'.calls, call.qty ≠ 0 := by
  intro call member
  rw [calls, List.mem_append, List.mem_singleton] at member
  rcases member with before | rfl
  · exact h.nonzero call before
  · exact qty

/-- No call of a key without an ack has been acked. -/
theorem Ledgered.none_acked (h : Ledgered ex) {key : String × String} (unacked : ex.acks.get? key = none) :
    ex.calls.filter (GatewayCall.acksKey key) = [] := by
  refine List.filter_eq_nil_iff.mpr fun call member passes => ?_
  obtain ⟨own, isOk⟩ := Bool.and_eq_true_iff.mp passes
  cases outcome : call.outcome with
  | error e =>
    rw [outcome] at isOk
    cases isOk
  | ok ack =>
    have found := (h.stored call member ack outcome).1
    rw [of_decide_eq_true own, unacked] at found
    cases found

/-- A failed send adds a call without an ack. -/
theorem Ledgered.failed (h : Ledgered ex) (qty : req.qty ≠ 0) {e : PyError} (acks : ex'.acks = ex.acks)
    (fingerprints : ex'.requestFingerprintByKey = ex.requestFingerprintByKey)
    (calls : ex'.calls = ex.calls ++ [callOf req (.error e)]) : Ledgered ex' := by
  refine ⟨fun call member ack acked => ?_, fun key ack found => ?_, fun key => ?_, h.nonzero_snoc qty calls⟩
  · rw [calls, List.mem_append, List.mem_singleton] at member
    rw [acks, fingerprints]
    rcases member with before | rfl
    · exact h.stored call before ack acked
    · cases acked
  · obtain ⟨call, member, made⟩ := h.backed key ack (acks ▸ found)
    exact ⟨call, calls ▸ List.mem_append_left _ member, made⟩
  · have unacked : GatewayCall.acksKey key (callOf req (.error e)) = false := Bool.and_false _
    rw [calls, List.filter_append, List.filter_cons_of_neg (by simp [unacked]), List.filter_nil, List.append_nil]
    exact h.once key

/-- An acked send is the first acked call of its key. -/
theorem Ledgered.acked (h : Ledgered ex) (qty : req.qty ≠ 0) (unacked : ex.acks.get? req.cacheKey = none)
    {ack : LiveOrderAck} (acks : ex'.acks = ex.acks.set req.cacheKey ack)
    (fingerprints : ex'.requestFingerprintByKey = ex.requestFingerprintByKey.set req.cacheKey req.fingerprint)
    (calls : ex'.calls = ex.calls ++ [callOf req (.ok ack)]) : Ledgered ex' := by
  refine ⟨fun call member ack' acked => ?_, fun key ack' found => ?_, fun key => ?_, h.nonzero_snoc qty calls⟩
  · rw [calls, List.mem_append, List.mem_singleton] at member
    rw [acks, fingerprints]
    rcases member with before | rfl
    · have other : call.key ≠ req.cacheKey := by
        intro same
        have found := (h.stored call before ack' acked).1
        rw [same, unacked] at found
        cases found
      rw [Py.Dict.get?_set_ne _ _ other, Py.Dict.get?_set_ne _ _ other]
      exact h.stored call before ack' acked
    · cases acked
      exact ⟨Py.Dict.get?_set_self _ _ _, Py.Dict.get?_set_self _ _ _⟩
  · rw [acks, Py.Dict.get?_set] at found
    rw [calls]
    split at found
    · rename_i own
      cases found
      exact ⟨callOf req (.ok ack), List.mem_append_right _ List.mem_cons_self, own.symm, rfl⟩
    · obtain ⟨call, member, made⟩ := h.backed key ack' found
      exact ⟨call, List.mem_append_left _ member, made⟩
  · rw [calls, List.filter_append, List.length_append]
    by_cases same : key = req.cacheKey
    · rw [same, h.none_acked unacked]
      exact (Nat.zero_add _).le.trans (List.length_filter_le _ _)
    · have other : GatewayCall.acksKey key (callOf req (.ok ack)) = false := by
        have apart : decide ((callOf req (.ok ack)).key = key) = false :=
          decide_eq_false fun own => same (own.symm.trans rfl)
        unfold GatewayCall.acksKey
        rw [apart, Bool.false_and]
      rw [List.filter_cons_of_neg (by simp [other]), List.filter_nil, List.length_nil]
      exact h.once key

/-- **Step lemma**: every action keeps the ledger. -/
theorem Ledgered.step (h : Ledgered ex) (action : Action) : Ledgered (machine.next ex action) := by
  cases action with
  | execute req exchange =>
    show Ledgered (ex.executeMarket req exchange).2
    have outcome := @executeMarket_executed ex req exchange
    generalize ex.executeMarket req exchange = result at outcome
    cases outcome with
    | refused e ex' same => exact h.of_same same.acks same.fingerprints same.calls
    | repeated ack ex' same => exact h.of_same same.acks same.fingerprints same.calls
    | failed ref e ex' passes new same => exact h.failed passes.qty same.acks same.fingerprints same.calls
    | acked ref ack ex' passes new same =>
      exact h.acked passes.qty passes.unacked same.acks same.fingerprints same.calls
  | engage reason scope accountId strategyId => exact h.of_same rfl rfl rfl
  | release scope accountId strategyId => exact h.of_same rfl rfl rfl
  | transition ref clientOrderId target reason => exact h.of_same rfl rfl rfl
  | report ref event => exact h.of_same rfl rfl rfl

theorem MultiAccountLiveExecutor.Fresh.ledgered (fresh : ex.Fresh) : Ledgered ex := by
  refine ⟨fun call member => ?_, fun key ack found => ?_, fun key => ?_, fun call member => ?_⟩
  · rw [fresh.calls] at member
    exact absurd member List.not_mem_nil
  · rw [fresh.acks] at found
    cases found
  · rw [fresh.calls]
    exact Nat.zero_le _
  · rw [fresh.calls] at member
    exact absurd member List.not_mem_nil

/-- **Run lemma.** -/
theorem MultiAccountLiveExecutor.Fresh.ledgered_after (fresh : ex.Fresh) (actions : List Action) :
    Ledgered (machine.after ex actions) :=
  machine.always fresh.ledgered (fun _ action h => h.step action) actions

end Ledger

/-- The gates are open for a gateway call of the request. -/
structure Open (ex : MultiAccountLiveExecutor) (req : MultiAccountOrderRequest) : Prop where
  qty : req.qty ≠ 0
  unblocked : ∀ ks, ex.killSwitch = some ks →
    ks.globalReason = none ∧ ks.accountReasons.get? req.accountId = none
  compliant : ∀ checker, ex.complianceChecker = some checker →
    (checker req.accountId req.symbol req.qty).allowed = true
  new : ∃ ref, ex.omsByAccount.get? req.accountId = some ref ∧
    ∀ order, (ex.heap ref).get req.scopedClientOrderId = some order → order.status = .new

section Sends
variable {ex : MultiAccountLiveExecutor} {req : MultiAccountOrderRequest}

theorem Passes.open_ {ref : OmsRef} (passes : Passes ex req ref)
    (new : ∀ order, (ex.heap ref).get req.scopedClientOrderId = some order → order.status = .new) : Open ex req := by
  refine ⟨passes.qty, fun ks here => ?_, fun checker here => ?_, ref, passes.account, new⟩
  · have allowed := passes.allowed
    unfold assertAllowsExecution at allowed
    rw [here] at allowed
    exact (ks.assertAllowsExecution_account req.accountId).mp allowed
  · have compliant := passes.compliant
    unfold checkOrder at compliant
    rw [here] at compliant
    exact compliant

/-- A gateway call is made only by `execute_market`, with every gate open. -/
theorem calls_of_next (action : Action) (called : (machine.next ex action).calls ≠ ex.calls) :
    ∃ req exchange outcome, action = .execute req exchange ∧ Open ex req ∧
      (machine.next ex action).calls = ex.calls ++ [callOf req outcome] := by
  cases action with
  | execute req exchange =>
    have outcome := @executeMarket_executed ex req exchange
    have next : machine.next ex (.execute req exchange) = (ex.executeMarket req exchange).2 := rfl
    rw [next] at called ⊢
    generalize ex.executeMarket req exchange = result at outcome called
    cases outcome with
    | refused e ex' same => exact absurd same.calls called
    | repeated ack ex' same => exact absurd same.calls called
    | failed ref e ex' passes new same => exact ⟨req, exchange, _, rfl, passes.open_ new, same.calls⟩
    | acked ref ack ex' passes new same => exact ⟨req, exchange, _, rfl, passes.open_ new, same.calls⟩
  | engage reason scope accountId strategyId => exact absurd rfl called
  | release scope accountId strategyId => exact absurd rfl called
  | transition ref clientOrderId target reason => exact absurd rfl called
  | report ref event => exact absurd rfl called

/-- **At-most-once, gated sending.** In every run of an executor: at most one
gateway call of a key is acked; a later request for that key that passes the
kill switch makes no gateway call, and gets that ack back for the same payload
and raises for another; and every gateway call is made with its gates open. -/
theorem sends_at_most_once (fresh : ex.Fresh) (actions : List Action) :
    (∀ key, ((machine.after ex actions).calls.filter (GatewayCall.acksKey key)).length ≤ 1) ∧
    (∀ call ∈ (machine.after ex actions).calls, ∀ ack, call.outcome = .ok ack →
      ∀ req exchange, req.cacheKey = call.key →
        (machine.after ex actions).assertAllowsExecution req.accountId = .ok () →
        (machine.next (machine.after ex actions) (.execute req exchange)).calls = (machine.after ex actions).calls ∧
        (req.fingerprint = (call.symbol, call.qty) →
          machine.answer (machine.after ex actions) (.execute req exchange) = some (.ok ack)) ∧
        (req.fingerprint ≠ (call.symbol, call.qty) →
          ∃ e, machine.answer (machine.after ex actions) (.execute req exchange) = some (.error e))) ∧
    (∀ action, (machine.next (machine.after ex actions) action).calls ≠ (machine.after ex actions).calls →
      ∃ req exchange outcome, action = .execute req exchange ∧ Open (machine.after ex actions) req ∧
        (machine.next (machine.after ex actions) action).calls =
          (machine.after ex actions).calls ++ [callOf req outcome]) := by
  have ledgered := fresh.ledgered_after actions
  refine ⟨ledgered.once, ?_, fun action => calls_of_next action⟩
  intro call member ack acked req exchange own allowed
  obtain ⟨found, payload⟩ := ledgered.stored call member ack acked
  rw [← own] at found payload
  refine ⟨executeMarket_calls_of_acked found, fun same => ?_, fun other => ?_⟩
  · have qty : req.qty ≠ 0 := by
      have moved : req.qty = call.qty := congrArg Prod.snd same
      rw [moved]
      exact ledgered.nonzero call member
    have answer := (executeMarket_of_acked exchange found allowed qty).1 (payload.trans (congrArg some same.symm))
    exact congrArg some answer
  · by_cases zero : req.qty = 0
    · refine ⟨.valueError "qty must be non-zero", congrArg some ?_⟩
      show (executeMarket _ req exchange).1 = _
      unfold executeMarket
      rw [if_pos zero]
    · obtain ⟨e, raised⟩ := (executeMarket_of_acked exchange found allowed zero).2 (by
        rw [payload]
        exact fun same => other (Option.some.inj same).symm)
      exact ⟨e, congrArg some raised⟩

end Sends

/-- An executor with one account and an empty order management system. -/
def desk : MultiAccountLiveExecutor where
  omsByAccount := .ofKeys ["main"] fun _ => 0
  gateway := ⟨.ofKeys ["main"] fun _ => { apiKey := "key", apiSecret := "secret" }⟩
  killSwitch := some KillSwitch.init
  heap := fun _ => OMS.init

theorem desk_fresh : desk.Fresh := ⟨rfl, rfl, rfl⟩

/-- An exchange that accepts every order. -/
def accepting : Exchange where
  post := fun _ _ => .ok { orderId := "1" }
  timestampMs := fun _ => 0

/-- An exchange that cannot be reached. -/
def unreachable : Exchange where
  post := fun _ _ => .error (.external "timeout")
  timestampMs := fun _ => 0

/-- An order of the account of `desk`. -/
def buy (qty : ℚ) : MultiAccountOrderRequest := ⟨"main", "c1", "BTCUSDT", qty⟩

theorem sends_at_most_once_desk :
    ((machine.after desk [.execute (buy 1) unreachable, .execute (buy 1) accepting,
      .execute (buy 1) accepting]).calls.filter (GatewayCall.acksKey ("main", "c1"))).length ≤ 1 :=
  (sends_at_most_once desk_fresh [.execute (buy 1) unreachable, .execute (buy 1) accepting,
    .execute (buy 1) accepting]).1 ("main", "c1")

end CryptoQuant.MultiAccount
