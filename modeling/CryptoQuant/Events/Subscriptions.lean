import CryptoQuant.Events.EventBus
import Mathlib.Data.List.Basic

/-!
# Subscriptions and the handlers the bus keeps

The bus beside the subscriptions that its callers hold. The two agree as long as
what `list.remove` takes is what the subscription put there.
-/

namespace CryptoQuant
set_option autoImplicit false

/-- A call of the bus; a subscription is named by the number of its `subscribe` call. -/
inductive BusCall (τ η ε : Type)
  | subscribe (eventType : τ) (handler : η)
  | unsubscribe (number : ℕ)
  | publish (event : ε)

/-- The bus, the subscriptions made so far, and of these the ones not yet
unsubscribed, with their numbers. -/
structure Session (τ η : Type) where
  bus : EventBus τ η
  made : List (Subscription τ η)
  live : List (ℕ × Subscription τ η)

namespace Session
variable {τ η ε : Type} [DecidableEq τ] [DecidableEq η]

/-- A new bus. -/
def new : Session τ η := ⟨.new, [], []⟩

/-- The handlers of some subscriptions, as far as they are to an event type. -/
def handlersTo (eventType : τ) (entries : List (ℕ × Subscription τ η)) : List η :=
  (entries.filter fun entry => entry.2.eventType = eventType).map fun entry => entry.2.handler

/-- The handlers of the live subscriptions to an event type, in subscription order. -/
def due (s : Session τ η) (eventType : τ) : List η := handlersTo eventType s.live

section Calls
variable (raises : η → ε → Bool) (typeOf : ε → τ)

/-- The handlers a call invokes, and the session after it. -/
def call (s : Session τ η) : BusCall τ η ε → List η × Session τ η
  | .subscribe eventType handler =>
    let (sub, bus) := s.bus.subscribe eventType handler
    ([], ⟨bus, s.made ++ [sub], s.live ++ [(s.made.length, sub)]⟩)
  | .unsubscribe number =>
    match s.made[number]? with
    | none => ([], s)
    | some sub => ([], { s with bus := s.bus.unsubscribe sub, live := s.live.filter fun entry => entry.1 ≠ number })
  | .publish event => (s.bus.publish raises typeOf event, s)

/-- The session as a machine. -/
def machine : Run.Machine (Session τ η) (BusCall τ η ε) (List η) := ⟨call raises typeOf⟩

end Calls

/-- The bus keeps the handlers that are due. -/
def Faithful (s : Session τ η) : Prop := ∀ t, s.bus.handlersOf t = s.due t

/-- Live subscriptions are ones that were made, each once. -/
structure Reached (s : Session τ η) : Prop where
  made : ∀ entry ∈ s.live, s.made[entry.1]? = some entry.2
  distinct : (s.live.map Prod.fst).Nodup

/-- To unsubscribe takes the handler of the subscription itself: a live one has no
other handler between the first that equals its own and its own, and one that was
unsubscribed before has no live handler that equals its own. -/
def OwnHandler (s : Session τ η) (number : ℕ) : Prop :=
  ∀ sub, s.made[number]? = some sub →
    if number ∈ s.live.map Prod.fst then
      ∀ h ∈ (handlersTo sub.eventType (s.live.takeWhile fun entry => entry.1 ≠ number)).dropWhile
        (fun h => h ≠ sub.handler), h = sub.handler
    else sub.handler ∉ s.due sub.eventType

/-- No handler raises that another one is called after. -/
def Quiet (raises : η → ε → Bool) (typeOf : ε → τ) (s : Session τ η) (event : ε) : Prop :=
  ∀ h ∈ (s.due (typeOf event)).dropLast, raises h event = false

end Session

/-- A value moves to the front of a list unseen when the list holds no other. -/
theorem front_iff {η : Type} {before after : List η} {h : η} :
    before ++ h :: after = h :: (before ++ after) ↔ ∀ x ∈ before, x = h := by
  induction before with
  | nil => simp
  | cons x before ih =>
    rw [List.cons_append, List.cons_append, List.cons.injEq, List.forall_mem_cons]
    refine and_congr_right fun same => ?_
    rw [same]
    exact ih

/-- What `list.remove` leaves of a list with the value in its middle. -/
theorem erase_middle_iff {η : Type} [DecidableEq η] {before after : List η} {h : η} :
    (before ++ h :: after).erase h = before ++ after ↔ ∀ x ∈ before.dropWhile (fun x => x ≠ h), x = h := by
  induction before with
  | nil => simp
  | cons x before ih =>
    by_cases same : x = h
    · rw [same, List.cons_append, List.erase_cons_head, List.dropWhile_cons_of_neg (by simp), List.cons_append, front_iff]
      simp
    · rw [List.cons_append, List.erase_cons_tail (by simpa using same), List.dropWhile_cons_of_pos (by simpa using same),
        List.cons_append, List.cons.injEq, ← ih]
      simp

namespace Session
variable {τ η ε : Type} [DecidableEq τ] [DecidableEq η]

omit [DecidableEq τ] [DecidableEq η] in
theorem reached_new : (new : Session τ η).Reached := ⟨fun _ member => absurd member List.not_mem_nil, List.nodup_nil⟩

/-- Every call leaves live subscriptions that were made, each once. -/
theorem Reached.next {raises : η → ε → Bool} {typeOf : ε → τ} {s : Session τ η} (reached : s.Reached)
    (c : BusCall τ η ε) : ((machine raises typeOf).next s c).Reached := by
  cases c with
  | subscribe eventType handler =>
    refine ⟨fun entry member => ?_, ?_⟩
    · show (s.made ++ [_])[entry.1]? = some entry.2
      rcases List.mem_append.mp member with old | new
      · have known := reached.made entry old
        rw [List.getElem?_append_left (List.getElem?_eq_some_iff.mp known).1]
        exact known
      · rw [List.mem_singleton.mp new, List.getElem?_concat_length]
    · show ((s.live ++ [(s.made.length, _)]).map Prod.fst).Nodup
      rw [List.map_append, List.nodup_append]
      refine ⟨reached.distinct, List.nodup_singleton _, ?_⟩
      rintro number old _ new rfl
      obtain ⟨entry, member, rfl⟩ := List.mem_map.mp old
      have within := (List.getElem?_eq_some_iff.mp (reached.made entry member)).1
      rw [List.map_singleton, List.mem_singleton] at new
      omega
  | unsubscribe number =>
    unfold Run.Machine.next machine call
    simp only
    split
    · exact reached
    · refine ⟨fun entry member => reached.made entry (List.mem_filter.mp member).1, ?_⟩
      exact (List.filter_sublist.map Prod.fst).nodup reached.distinct
  | publish event => exact reached

omit [DecidableEq τ] [DecidableEq η] in
/-- The place of a live subscription. -/
theorem Reached.split {s : Session τ η} (reached : s.Reached) {number : ℕ} {sub : Subscription τ η}
    (made : s.made[number]? = some sub) (live : number ∈ s.live.map Prod.fst) :
    ∃ after, s.live = (s.live.takeWhile fun entry => entry.1 ≠ number) ++ (number, sub) :: after ∧
      s.live.filter (fun entry => entry.1 ≠ number) = (s.live.takeWhile fun entry => entry.1 ≠ number) ++ after := by
  obtain ⟨entry, member, same⟩ := List.mem_map.mp live
  obtain ⟨before, after, cut⟩ := List.append_of_mem member
  have own : entry = (number, sub) := by
    have known := reached.made entry member
    rw [same, made] at known
    exact Prod.ext same (Option.some.inj known).symm
  subst own
  have distinct := reached.distinct
  rw [cut, List.map_append, List.map_cons, List.nodup_middle, List.nodup_cons, List.mem_append, not_or] at distinct
  have others : ∀ l : List (ℕ × Subscription τ η), number ∉ l.map Prod.fst → ∀ entry ∈ l, decide (entry.1 ≠ number) = true := by
    intro l absent entry member
    refine decide_eq_true fun same => absent ?_
    exact same ▸ List.mem_map_of_mem member
  have first := others before distinct.1.1
  have last := others after distinct.1.2
  have prefix_ : s.live.takeWhile (fun entry => entry.1 ≠ number) = before := by
    rw [cut, List.takeWhile_append_of_pos first, List.takeWhile_cons_of_neg (by simp), List.append_nil]
  refine ⟨after, ?_, ?_⟩
  · rw [prefix_]
    exact cut
  · rw [prefix_, cut, List.filter_append, List.filter_cons_of_neg (by simp), List.filter_eq_self.mpr first,
      List.filter_eq_self.mpr last]

theorem ownHandler_iff {s : Session τ η} {number : ℕ} {sub : Subscription τ η} (made : s.made[number]? = some sub) :
    s.OwnHandler number ↔ if number ∈ s.live.map Prod.fst then
      ∀ h ∈ (handlersTo sub.eventType (s.live.takeWhile fun entry => entry.1 ≠ number)).dropWhile
        (fun h => h ≠ sub.handler), h = sub.handler
      else sub.handler ∉ s.due sub.eventType := by
  unfold OwnHandler
  rw [made]
  exact ⟨fun all => all sub rfl, fun one other same => by cases same; exact one⟩

omit [DecidableEq η] in
/-- The other types lose no handler that is due. -/
theorem Reached.due_other {s : Session τ η} (reached : s.Reached) {number : ℕ} {sub : Subscription τ η}
    (made : s.made[number]? = some sub) {t : τ} (other : t ≠ sub.eventType) :
    handlersTo t (s.live.filter fun entry => entry.1 ≠ number) = s.due t := by
  unfold due handlersTo
  rw [List.filter_comm, List.filter_eq_self.mpr]
  intro entry member
  obtain ⟨live, type⟩ := List.mem_filter.mp member
  refine decide_eq_true fun same => other ?_
  have known := reached.made entry live
  rw [same, made] at known
  rw [← of_decide_eq_true type, ← Option.some.inj known]

/-- The own type loses the handler of the subscription from the middle. -/
theorem Reached.erase_iff {s : Session τ η} (reached : s.Reached) {number : ℕ} {sub : Subscription τ η}
    (made : s.made[number]? = some sub) (live : number ∈ s.live.map Prod.fst) :
    (s.due sub.eventType).erase sub.handler =
        handlersTo sub.eventType (s.live.filter fun entry => entry.1 ≠ number) ↔
      ∀ h ∈ (handlersTo sub.eventType (s.live.takeWhile fun entry => entry.1 ≠ number)).dropWhile
        (fun h => h ≠ sub.handler), h = sub.handler := by
  obtain ⟨after, cut, left⟩ := reached.split made live
  have before : s.due sub.eventType =
      handlersTo sub.eventType (s.live.takeWhile fun entry => entry.1 ≠ number) ++
        sub.handler :: handlersTo sub.eventType after := by
    unfold due
    conv_lhs => rw [cut]
    unfold handlersTo
    rw [List.filter_append, List.filter_cons_of_pos (by simp), List.map_append, List.map_cons]
  have remaining : handlersTo sub.eventType (s.live.filter fun entry => entry.1 ≠ number) =
      handlersTo sub.eventType (s.live.takeWhile fun entry => entry.1 ≠ number) ++ handlersTo sub.eventType after := by
    rw [left]
    unfold handlersTo
    rw [List.filter_append, List.map_append]
  rw [before, remaining]
  exact erase_middle_iff

/-- **One `unsubscribe`** of a faithful bus leaves it faithful exactly when it takes
the handler of its own subscription. -/
theorem unsubscribe_faithful_iff {s : Session τ η} (reached : s.Reached) (faithful : s.Faithful) {number : ℕ}
    {sub : Subscription τ η} (made : s.made[number]? = some sub) :
    (Session.mk (s.bus.unsubscribe sub) s.made (s.live.filter fun entry => entry.1 ≠ number)).Faithful ↔
      s.OwnHandler number := by
  have own : (Session.mk (s.bus.unsubscribe sub) s.made (s.live.filter fun entry => entry.1 ≠ number)).Faithful ↔
      (s.due sub.eventType).erase sub.handler =
        handlersTo sub.eventType (s.live.filter fun entry => entry.1 ≠ number) := by
    constructor
    · intro after
      have here := after sub.eventType
      rwa [EventBus.handlersOf_unsubscribe, if_pos rfl, faithful] at here
    · intro here t
      rw [EventBus.handlersOf_unsubscribe, faithful]
      by_cases same : t = sub.eventType
      · rw [if_pos same, same, here]
        rfl
      · rw [if_neg same]
        exact (reached.due_other made same).symm
  rw [own, ownHandler_iff made]
  by_cases live : number ∈ s.live.map Prod.fst
  · rw [if_pos live]
    exact reached.erase_iff made live
  · have stays : s.live.filter (fun entry => entry.1 ≠ number) = s.live := by
      refine List.filter_eq_self.mpr fun entry member => decide_eq_true fun same => live ?_
      exact same ▸ List.mem_map_of_mem member
    rw [if_neg live, stays]
    exact List.erase_eq_self_iff

section Runs
variable {raises : η → ε → Bool} {typeOf : ε → τ}

omit [DecidableEq η] in
theorem faithful_new : (new : Session τ η).Faithful := fun _ => rfl

/-- A new subscription is due, and the bus has its handler. -/
theorem Faithful.subscribe {s : Session τ η} (faithful : s.Faithful) (eventType : τ) (handler : η) :
    ((machine raises typeOf).next s (.subscribe eventType handler)).Faithful := by
  intro t
  show (s.bus.subscribe eventType handler).2.handlersOf t = handlersTo t (s.live ++ [_])
  have before : s.bus.handlersOf t = handlersTo t s.live := faithful t
  rw [EventBus.handlersOf_subscribe, before]
  unfold handlersTo
  by_cases own : t = eventType
  · rw [if_pos own, List.filter_append, List.map_append, List.filter_cons_of_pos (by simpa using own.symm)]
    rfl
  · rw [if_neg own, List.filter_append, List.filter_cons_of_neg (by simpa using Ne.symm own), List.filter_nil,
      List.append_nil]

/-- The call takes the handler of another subscription than its own. -/
def Takes (s : Session τ η) : BusCall τ η ε → Prop
  | .unsubscribe number => ¬ s.OwnHandler number
  | _ => False

/-- **Every run**: the bus keeps the handlers that are due at every point exactly when
every `unsubscribe` takes the handler of its own subscription. -/
theorem faithful_iff (calls : List (BusCall τ η ε)) :
    (∀ done rest, calls = done ++ rest → ((machine raises typeOf).after new done).Faithful) ↔
      ∀ done c rest, calls = done ++ c :: rest → ¬ ((machine raises typeOf).after new done).Takes c := by
  refine (machine raises typeOf).along_iff_of faithful_new
    ((machine raises typeOf).always reached_new fun _ c reached => reached.next c) ?_ ?_ calls
  · intro s c reached faithful harmless
    cases c with
    | subscribe eventType handler => exact faithful.subscribe eventType handler
    | unsubscribe number =>
      unfold Run.Machine.next machine call
      simp only
      split
      · exact faithful
      · rename_i sub made
        exact (unsubscribe_faithful_iff reached faithful made).mpr (not_not.mp harmless)
    | publish event => exact faithful
  · intro s c reached faithful takes
    cases c with
    | subscribe eventType handler => exact takes.elim
    | unsubscribe number =>
      unfold Run.Machine.next machine call
      simp only
      split
      · rename_i unmade
        exact absurd (fun sub made => by rw [unmade] at made; cases made) takes
      · rename_i sub made
        exact fun after => takes ((unsubscribe_faithful_iff reached faithful made).mp after)
    | publish event => exact takes.elim

omit [DecidableEq τ] [DecidableEq η] in
/-- Handlers of which only the last may raise are all called. -/
theorem calledInTurn_eq {raises : η → Bool} {handlers : List η} (quiet : ∀ h ∈ handlers.dropLast, raises h = false) :
    calledInTurn raises handlers = handlers := by
  induction handlers with
  | nil => rfl
  | cons h rest ih =>
    unfold calledInTurn
    cases rest with
    | nil =>
      split
      · rfl
      · rw [calledInTurn]
    | cons g rest =>
      rw [List.dropLast_cons_cons] at quiet
      have here : raises h = false := quiet h List.mem_cons_self
      rw [if_neg (by rw [here]; simp), ih fun g member => quiet g (List.mem_cons_of_mem _ member)]

/-- What a call needs for the subscriptions to stay apart. -/
def Meets (raises : η → ε → Bool) (typeOf : ε → τ) (s : Session τ η) : BusCall τ η ε → Prop
  | .subscribe _ _ => True
  | .unsubscribe number => s.OwnHandler number
  | .publish event => s.Quiet raises typeOf event

/-- **Subscriptions are independent** in the runs whose calls meet the condition: each
`publish` calls the handlers of the live subscriptions to its type, once each and in
order. With handlers that return, and an event for every type, the condition is exact. -/
theorem publish_calls_due (raises : η → ε → Bool) (typeOf : ε → τ) (calls : List (BusCall τ η ε)) :
    ((∀ done c rest, calls = done ++ c :: rest → ((machine raises typeOf).after new done).Meets raises typeOf c) →
      ∀ done event rest, calls = done ++ .publish event :: rest →
        (machine raises typeOf).answer ((machine raises typeOf).after new done) (.publish event) =
          ((machine raises typeOf).after new done).due (typeOf event)) ∧
    ((∀ h event, raises h event = false) → Function.Surjective typeOf →
      ((∀ done rest, calls = done ++ rest → ∀ event,
        (machine raises typeOf).answer ((machine raises typeOf).after new done) (.publish event) =
          ((machine raises typeOf).after new done).due (typeOf event)) ↔
      ∀ done c rest, calls = done ++ c :: rest → ((machine raises typeOf).after new done).Meets raises typeOf c)) := by
  have takes : ∀ (s : Session τ η) (c : BusCall τ η ε), s.Meets raises typeOf c → ¬ s.Takes c := by
    intro s c meets
    cases c with
    | subscribe eventType handler => exact id
    | unsubscribe number => exact not_not.mpr meets
    | publish event => exact id
  have answers : ∀ (s : Session τ η) (event : ε), (machine raises typeOf).answer s (.publish event) =
      calledInTurn (fun h => raises h event) (s.bus.handlersOf (typeOf event)) := fun _ _ => rfl
  constructor
  · intro meets done event rest split
    have faithful := (faithful_iff calls).mpr (fun done c rest split => takes _ c (meets done c rest split))
      done (.publish event :: rest) split
    rw [answers, faithful]
    exact calledInTurn_eq (meets done _ rest split)
  · intro silent types
    have all : ∀ (event : ε) (handlers : List η), calledInTurn (fun h => raises h event) handlers = handlers :=
      fun event handlers => calledInTurn_eq fun h _ => silent h event
    have points : ∀ s : Session τ η, (∀ event, (machine raises typeOf).answer s (.publish event) = s.due (typeOf event)) ↔
        s.Faithful := by
      intro s
      simp only [answers, all]
      constructor
      · intro faithful t
        obtain ⟨event, rfl⟩ := types t
        exact faithful event
      · exact fun faithful event => faithful (typeOf event)
    simp only [points]
    rw [faithful_iff calls]
    constructor
    · intro harmless done c rest split
      cases c with
      | subscribe eventType handler => trivial
      | unsubscribe number => exact not_not.mp (harmless done _ rest split)
      | publish event => exact fun h _ => silent h event
    · exact fun meets done c rest split => takes _ c (meets done c rest split)

/-- Two subscriptions of one handler, the first unsubscribed twice: no handler is left
for the second, which was never unsubscribed. -/
theorem unsubscribe_twice_takes_other :
    let calls : List (BusCall String String String) :=
      [.subscribe "tick" "log", .subscribe "tick" "log", .unsubscribe 0, .unsubscribe 0]
    let s := (machine (fun _ _ => false) id).after new calls
    (machine (fun _ _ => false) id).answer s (.publish "tick") = [] ∧ s.due "tick" = ["log"] := by
  decide +kernel

end Runs

end Session

end CryptoQuant
