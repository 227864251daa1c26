import CryptoQuant.Events.Delivery

/-!
# Statistics after a flush

`flush` waits for `task_done`, the counter `dispatched` for the end of the batch. Once no
publisher is active, what is missing in the statistics after a flush is what the workers
have handed and not committed.
-/

namespace CryptoQuant.LowLatency
set_option autoImplicit false

variable {π ω ε : Type} [DecidableEq π] [DecidableEq ω] {config : Config}

/-- No publisher is active and the queue has no unfinished task. -/
structure Drained (bus : Bus π ω ε) : Prop where
  publishers : ∀ i, bus.publisher i = .idle
  unfinished : bus.shared.unfinished = 0

/-- A drained bus stays so while nobody publishes. -/
theorem Drained.step {bus : Bus π ω ε} (drained : Drained bus) {a : Action π ω ε}
    (quiet : ∀ i events, a ≠ .publishMany i events) : Drained (bus.step config a) := by
  obtain ⟨publishers, unfinished⟩ := drained
  cases a with
  | publishMany i events => exact absurd rfl (quiet i events)
  | publisher i now =>
    unfold Bus.step
    dsimp only
    rw [publishers i]
    refine ⟨?_, unfinished⟩
    intro j
    by_cases own : j = i
    · rw [own]
      exact Function.update_self ..
    · exact (Function.update_of_ne own ..).trans (publishers j)
  | worker w now raised =>
    refine ⟨publishers, ?_⟩
    have acted := workerStep_acted config w now raised bus.shared (bus.worker w)
    show (workerStep config w now raised bus.shared (bus.worker w)).1.unfinished = 0
    revert acted
    generalize workerStep config w now raised bus.shared (bus.worker w) = result
    intro acted
    obtain ⟨s, p⟩ := result
    dsimp only at acted ⊢
    cases acted with
    | moves => exact unfinished
    | takes => exact unfinished
    | hands => exact Nat.sub_eq_zero_of_le (by omega)
    | commits => exact unfinished
  | stop => exact ⟨publishers, unfinished⟩

theorem Drained.after {bus : Bus π ω ε} (drained : Drained bus) {actions : List (Action π ω ε)}
    (quiet : ∀ a ∈ actions, ∀ i events, a ≠ .publishMany i events) : Drained (bus.after config actions) :=
  Run.foldl_invariant (fun _ a member drained => drained.step (quiet a member)) drained

/-- **Statistics after a flush** are complete exactly when no worker has handed events
that it has not committed. -/
theorem stats_after_flush (config : Config) (publishers : ℕ)
    (before later : List (Action (Fin publishers) (Fin config.workerCount) ε)) (expired : Bool)
    (flushed : ((Bus.start.after config before).shared.flushRound expired) = some true)
    (inactive : ∀ i, (Bus.start.after config before).publisher i = .idle)
    (quiet : ∀ a ∈ later, ∀ i events, a ≠ .publishMany i events) :
    let bus := (Bus.start.after config before).after config later
    (bus.shared.stats config).dispatched = (bus.shared.stats config).published ↔
      ∀ w, (bus.worker w).uncommitted = 0 := by
  intro bus
  have empty : (Bus.start.after config before).shared.unfinished = 0 := by
    unfold Shared.flushRound at flushed
    split at flushed
    · split at flushed <;> simp at flushed
    · omega
  have drained : Drained bus := (Drained.mk inactive empty).after quiet
  have accounts : Accounts config bus := by
    have joined : bus = Bus.start.after config (before ++ later) := List.foldl_append.symm
    rw [joined]
    exact accounts_after _
  have uncounted : ∑ i, (bus.publisher i).uncounted = 0 := by
    refine Finset.sum_eq_zero fun i _ => ?_
    rw [drained.publishers i]
    rfl
  have unfinished := drained.unfinished
  obtain ⟨published, -, dispatched, tasks, all, -⟩ := accounts
  show bus.shared.dispatched = bus.shared.published ↔ _
  constructor
  · intro complete w
    have least := Parties.le_sum Worker.uncommitted bus.worker w
    omega
  · intro committed
    have none_ : ∑ w, (bus.worker w).uncommitted = 0 := Finset.sum_eq_zero fun w _ => committed w
    omega

def onlyPublisher : Fin 1 := ⟨0, Nat.one_pos⟩

/-- An event is published, counted and handed; the worker has not come to the commit. -/
def handedNotCommitted : List (Action (Fin 1) (Fin single.workerCount) Unit) :=
  [.publishMany onlyPublisher [()], .publisher onlyPublisher 0, .publisher onlyPublisher 0,
    .publisher onlyPublisher 0, .publisher onlyPublisher 0,
    .worker onlyWorker 0 false, .worker onlyWorker 0 false,
    .worker onlyWorker 0 false, .worker onlyWorker 0 false]

theorem single_inactive (i : Fin 1) :
    ((Bus.start : Bus (Fin 1) (Fin single.workerCount) Unit).after single handedNotCommitted).publisher i = .idle := by
  obtain rfl := Subsingleton.elim i onlyPublisher
  rfl

theorem stats_after_flush_committed :
    let bus := ((Bus.start : Bus (Fin 1) (Fin single.workerCount) Unit).after single handedNotCommitted).after single
      [.worker onlyWorker 0 false]
    (bus.shared.stats single).dispatched = (bus.shared.stats single).published := by
  refine (stats_after_flush single 1 handedNotCommitted [.worker onlyWorker 0 false] false (by decide)
    single_inactive (by simp)).mpr ?_
  intro w
  obtain rfl := eq_onlyWorker w
  rfl

/-- `flush` returns `True` and the statistics that are read then miss the event. -/
theorem stats_behind_flush :
    let bus := (Bus.start : Bus (Fin 1) (Fin single.workerCount) Unit).after single handedNotCommitted
    bus.shared.flushRound false = some true ∧ (∀ i, bus.publisher i = .idle) ∧
      (bus.shared.stats single).published = 1 ∧ (bus.shared.stats single).dispatched = 0 :=
  ⟨by decide, single_inactive, by decide, by decide⟩

end CryptoQuant.LowLatency
