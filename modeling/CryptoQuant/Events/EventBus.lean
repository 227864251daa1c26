import CryptoQuant.Lib.Dict
import CryptoQuant.Lib.Run

/-!
# The event bus

`EventBus` of `events/bus.py`: for every event type the handlers in the order of
their subscriptions. The bus keeps no subscriptions, only handlers: to unsubscribe
removes the first handler that is equal, whichever subscription put it there.
-/

namespace CryptoQuant
set_option autoImplicit false

/-- `Subscription`. -/
structure Subscription (τ η : Type) where
  eventType : τ
  handler : η
deriving DecidableEq

/-- `EventBus`: event types of `τ`, handlers of `η`. -/
structure EventBus (τ η : Type) where
  handlers : Py.Dict τ (List η)

/-- The handlers that are called in turn, up to the first that raises. -/
def calledInTurn {η : Type} (raises : η → Bool) : List η → List η
  | [] => []
  | h :: rest => if raises h then [h] else h :: calledInTurn raises rest

namespace EventBus
variable {τ η ε : Type} [DecidableEq τ]

/-- `EventBus()`. -/
def new : EventBus τ η := ⟨.empty⟩

/-- `self._handlers.get(event_type, ())`. -/
def handlersOf (bus : EventBus τ η) (eventType : τ) : List η := bus.handlers.getD eventType []

/-- `subscribe`. -/
def subscribe (bus : EventBus τ η) (eventType : τ) (handler : η) : Subscription τ η × EventBus τ η :=
  (⟨eventType, handler⟩, ⟨bus.handlers.set eventType (bus.handlersOf eventType ++ [handler])⟩)

/-- `unsubscribe`: `list.remove`, which takes the first equal handler. -/
def unsubscribe [DecidableEq η] (bus : EventBus τ η) (sub : Subscription τ η) : EventBus τ η :=
  match bus.handlers.get? sub.eventType with
  | none => bus
  | some handlers => ⟨bus.handlers.set sub.eventType (handlers.erase sub.handler)⟩

/-- `publish`: the handlers that it calls, in order. -/
def publish (raises : η → ε → Bool) (typeOf : ε → τ) (bus : EventBus τ η) (event : ε) : List η :=
  calledInTurn (fun h => raises h event) (bus.handlersOf (typeOf event))

theorem handlersOf_subscribe (bus : EventBus τ η) (eventType t : τ) (handler : η) :
    (bus.subscribe eventType handler).2.handlersOf t =
      if t = eventType then bus.handlersOf t ++ [handler] else bus.handlersOf t := by
  unfold subscribe handlersOf
  simp only [Py.Dict.getD_set]
  by_cases own : t = eventType
  · rw [if_pos own, if_pos own, own]
  · rw [if_neg own, if_neg own]

theorem handlersOf_unsubscribe [DecidableEq η] (bus : EventBus τ η) (sub : Subscription τ η) (t : τ) :
    (bus.unsubscribe sub).handlersOf t =
      if t = sub.eventType then (bus.handlersOf t).erase sub.handler else bus.handlersOf t := by
  unfold unsubscribe
  cases found : bus.handlers.get? sub.eventType with
  | none =>
    simp only
    split
    · rename_i own
      rw [own, handlersOf, Py.Dict.getD, found, Option.getD_none, List.erase_nil]
    · rfl
  | some handlers =>
    simp only [handlersOf, Py.Dict.getD_set]
    by_cases own : t = sub.eventType
    · rw [if_pos own, if_pos own, own, Py.Dict.getD, found, Option.getD_some]
    · rw [if_neg own, if_neg own]

end EventBus

end CryptoQuant
