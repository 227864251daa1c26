import CryptoQuant.Events.Delivery
import CryptoQuant.Events.Subscriptions

/-!
# Handlers that raise

A worker of the low-latency bus hands an event to `EventBus.publish` and catches what
comes out of it: the failure is counted, and the worker goes on with the next event.
Inside `publish` nothing is caught. So the failures of one event do not reach another
event, but a handler that raises keeps the event from the handlers after it.
-/

namespace CryptoQuant
set_option autoImplicit false

/-- All handlers are called exactly when none but the last raises. -/
theorem calledInTurn_eq_iff {η : Type} {raises : η → Bool} {handlers : List η} :
    calledInTurn raises handlers = handlers ↔ ∀ h ∈ handlers.dropLast, raises h = false := by
  refine ⟨fun all => ?_, Session.calledInTurn_eq⟩
  induction handlers with
  | nil => simp
  | cons first rest ih =>
    rcases rest with _ | ⟨second, rest⟩
    · simp
    · unfold calledInTurn at all
      cases failed : raises first with
      | true => simp [failed] at all
      | false =>
        rw [if_neg (by simp [failed]), List.cons.injEq] at all
        rw [List.dropLast_cons_cons, List.forall_mem_cons]
        exact ⟨failed, ih all.2⟩

namespace LowLatency

/-- What the worker's call of `super().publish` meets: the subscribed handlers, the
type of an event, and whether a handler raises, which may depend on the entry. -/
structure Handlers (ε τ η : Type) where
  subscribed : EventBus τ η
  typeOf : ε → τ
  raises : Entry ε → η → Bool

namespace Handlers
variable {π ω ε τ η : Type} [DecidableEq τ] (handlers : Handlers ε τ η)

/-- The handlers subscribed to the type of an entry. -/
def of (entry : Entry ε) : List η := handlers.subscribed.handlersOf (handlers.typeOf entry.event)

/-- The handlers that `super().publish` calls with an entry. -/
def called (entry : Entry ε) : List η := calledInTurn (handlers.raises entry) (handlers.of entry)

/-- An exception comes out of `super().publish`. -/
def fails (entry : Entry ε) : Bool := (handlers.called entry).any (handlers.raises entry)

/-- The entry is delivered to every subscribed handler, once each and in order. -/
def DeliversToAll (entry : Entry ε) : Prop := handlers.called entry = handlers.of entry

/-- None of the handlers of the entry but the last raises. -/
def OnlyLastRaises (entry : Entry ε) : Prop := ∀ h ∈ (handlers.of entry).dropLast, handlers.raises entry h = false

/-- The action with the outcome that the handlers give it. -/
def outcome (bus : Bus π ω ε) : Action π ω ε → Action π ω ε
  | .worker w now _ =>
    .worker w now (match bus.worker w with
      | .dispatching (entry :: _) _ _ _ => handlers.fails entry
      | _ => false)
  | action => action

variable [DecidableEq π] [DecidableEq ω]

/-- The bus with these handlers after the first actions of a run that goes on. -/
def trace (handlers : Handlers ε τ η) (config : Config) (acts : ℕ → Action π ω ε) : ℕ → Bus π ω ε
  | 0 => .start
  | t + 1 => (handlers.trace config acts t).step config (handlers.outcome (handlers.trace config acts t) (acts t))

/-- The actions of the run, with their outcomes. -/
def outcomes (config : Config) (acts : ℕ → Action π ω ε) (t : ℕ) : Action π ω ε :=
  handlers.outcome (handlers.trace config acts t) (acts t)

theorem trace_eq (config : Config) (acts : ℕ → Action π ω ε) (t : ℕ) :
    handlers.trace config acts t = Bus.trace config (handlers.outcomes config acts) t := by
  induction t with
  | zero => rfl
  | succ t ih =>
    rw [Bus.trace, ← ih]
    rfl

/-- Outcomes do not change who moves. -/
theorem goesOn_outcomes (config : Config) {acts : ℕ → Action π ω ε} (run : GoesOn acts) :
    GoesOn (handlers.outcomes config acts) := by
  constructor
  · intro t stopped
    cases move : acts t with
    | stop => exact run.goes t move
    | publishMany i events => simp [outcomes, outcome, move] at stopped
    | publisher i now => simp [outcomes, outcome, move] at stopped
    | worker w now raised => simp [outcomes, outcome, move] at stopped
  · intro w t
    obtain ⟨t', after, now, raised, move⟩ := run.works w t
    refine ⟨t', after, now, ?_⟩
    simp only [outcomes, outcome, move]
    exact ⟨_, rfl⟩

/-- An entry is delivered to all of its handlers exactly when none but the last raises. -/
theorem deliversToAll_iff (entry : Entry ε) : handlers.DeliversToAll entry ↔ handlers.OnlyLastRaises entry :=
  calledInTurn_eq_iff

/-- **What handler failures cost.** In every run, for any workers, publishers and
handlers: the dispatched events are delivered to all of their handlers, and while the run
goes on every accepted event is dispatched once, if and only if no handler of a
dispatched event but the last raises on it. -/
theorem handlers_isolated_iff (handlers : Handlers ε τ η) (config : Config) (publishers : ℕ)
    (acts : ℕ → Action (Fin publishers) (Fin config.workerCount) ε) :
    ((∀ t, ∀ dispatch ∈ (handlers.trace config acts t).shared.handed, handlers.DeliversToAll dispatch.2) ∧
      (GoesOn acts → ∀ t n, n < (handlers.trace config acts t).shared.accepted.length →
        ∃ t', t ≤ t' ∧ (handlers.trace config acts t').shared.handedNumbers.count n = 1)) ↔
    ∀ t, ∀ dispatch ∈ (handlers.trace config acts t).shared.handed, handlers.OnlyLastRaises dispatch.2 := by
  have goesOn (run : GoesOn acts) (t n : ℕ) (accepted : n < (handlers.trace config acts t).shared.accepted.length) :
      ∃ t', t ≤ t' ∧ (handlers.trace config acts t').shared.handedNumbers.count n = 1 := by
    simp only [trace_eq] at accepted ⊢
    exact handed_once (handlers.goesOn_outcomes config run).drains ⟨0, config.worker_pos⟩ accepted
  simp only [deliversToAll_iff]
  exact ⟨fun both => both.1, fun quiet => ⟨quiet, goesOn⟩⟩

/-- Two handlers, of which the first raises on every event. -/
def firstRaises : Handlers Unit Unit Bool where
  subscribed := ((EventBus.new.subscribe () true).2.subscribe () false).2
  typeOf := id
  raises := fun _ h => h

/-- The event that is published and handed does not reach the second handler. -/
theorem handlers_not_isolated_firstRaises :
    GoesOn publishThenWork ∧
    ¬ ∀ t, ∀ dispatch ∈ (firstRaises.trace single publishThenWork t).shared.handed, firstRaises.DeliversToAll dispatch.2 := by
  refine ⟨publishThenWork_goesOn, fun all => ?_⟩
  have handed : (onlyWorker, ⟨0, 0, ()⟩) ∈ (firstRaises.trace single publishThenWork 8).shared.handed := by decide
  have delivered : firstRaises.called ⟨0, 0, ()⟩ = firstRaises.of ⟨0, 0, ()⟩ := all 8 _ handed
  exact absurd delivered (by decide)

end Handlers

end LowLatency

end CryptoQuant
