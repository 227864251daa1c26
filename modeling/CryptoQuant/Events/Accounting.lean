import CryptoQuant.Events.LowLatency
import CryptoQuant.Lib.Parties
import Mathlib.Data.List.Range

/-!
# What the low-latency bus keeps account of

Counters are written after the queue operation they count, so each is behind by what
the parties still have to count. An accepted event is in one place: in the queue, with
one worker, or handed to the handlers.
-/

namespace CryptoQuant.LowLatency
set_option autoImplicit false

variable {π ω ε : Type}

section Parties

/-- Attempts that the publisher has begun and not counted: at most one. -/
def Publisher.attempts : Publisher ε → ℕ
  | .idle | .looping _ => 0
  | .putting .. | .pressed .. | .blocked .. | .counting _ | .refused _ => 1

/-- Accepted events that the publisher has to count: at most one. -/
def Publisher.uncounted : Publisher ε → ℕ
  | .counting _ => 1
  | _ => 0

/-- The entries that the worker has taken and not handed. -/
def Worker.held : Worker ε → List (Entry ε)
  | .filling batch _ => batch
  | .dispatching batch _ _ _ => batch
  | _ => []

/-- The entries that the worker has handed and not counted. -/
def Worker.uncommitted : Worker ε → ℕ
  | .dispatching _ dispatched _ _ => dispatched
  | _ => 0

/-- The numbers of entries. -/
def numbers (entries : List (Entry ε)) : List ℕ := entries.map Entry.number

/-- What a step of a publisher does. -/
inductive PublisherActed (config : Config) (s : Shared ω ε) : Publisher ε → Shared ω ε → Publisher ε → Prop
  | moves {p p' : Publisher ε} (pressure : ℕ) (attempts : p'.attempts = p.attempts)
      (uncounted : p'.uncounted = p.uncounted) : PublisherActed config s p { s with backpressureCount := pressure } p'
  | begins {p p' : Publisher ε} (attempts : p'.attempts = p.attempts + 1) (uncounted : p'.uncounted = p.uncounted) :
      PublisherActed config s p { s with begun := s.begun + 1 } p'
  | puts {p p' : Publisher ε} (enqueueTs : ℤ) (event : ε) (room : s.full config = false)
      (attempts : p'.attempts = p.attempts) (uncounted : p'.uncounted = p.uncounted + 1) :
      PublisherActed config s p (s.put enqueueTs event) p'
  | counts {p p' : Publisher ε} (mark : ℕ) (attempts : p.attempts = p'.attempts + 1)
      (uncounted : p.uncounted = p'.uncounted + 1) :
      PublisherActed config s p { s with published := s.published + 1, queueHighWatermark := mark } p'
  | drops {p p' : Publisher ε} (pressure : ℕ) (attempts : p.attempts = p'.attempts + 1)
      (uncounted : p'.uncounted = p.uncounted) :
      PublisherActed config s p { s with dropped := s.dropped + 1, backpressureCount := pressure } p'

theorem publisherStep_acted (config : Config) (now : ℤ) (s : Shared ω ε) (p : Publisher ε) :
    PublisherActed config s p (publisherStep config now s p).1 (publisherStep config now s p).2 := by
  cases p with
  | idle => exact .moves _ rfl rfl
  | looping rest =>
    cases rest with
    | nil => exact .moves _ rfl rfl
    | cons event rest => exact .begins rfl rfl
  | putting ts event rest =>
    simp only [publisherStep]
    cases full : s.full config with
    | true =>
      split
      · exact .moves _ rfl rfl
      · exact .moves _ rfl rfl
    | false =>
      split
      · exact .puts ts event full rfl rfl
      · exact .moves _ rfl rfl
  | pressed ts event rest => exact .moves _ rfl rfl
  | blocked ts event rest =>
    simp only [publisherStep]
    cases full : s.full config with
    | true => exact .moves _ rfl rfl
    | false => exact .puts ts event full rfl rfl
  | counting rest => exact .counts _ rfl rfl
  | refused rest => exact .drops _ rfl rfl

/-- What a step of the worker named `w` does. -/
inductive WorkerActed (w : ω) (s : Shared ω ε) : Worker ε → Shared ω ε → Worker ε → Prop
  | moves {p p' : Worker ε} (held : p'.held = p.held) (uncommitted : p'.uncommitted = p.uncommitted) :
      WorkerActed w s p s p'
  | takes {p p' : Worker ε} (entry : Entry ε) (queue : List (Entry ε)) (found : s.queue = entry :: queue)
      (held : p'.held = p.held ++ [entry]) (uncommitted : p'.uncommitted = p.uncommitted) :
      WorkerActed w s p { s with queue } p'
  | hands {p p' : Worker ε} (entry : Entry ε) (held : p.held = entry :: p'.held)
      (uncommitted : p'.uncommitted = p.uncommitted + 1) :
      WorkerActed w s p { s with handed := s.handed ++ [(w, entry)], unfinished := s.unfinished - 1 } p'
  | commits {p p' : Worker ε} (batches errors : ℕ) (latency : ℤ) (held : p'.held = p.held)
      (uncommitted : p'.uncommitted = 0) :
      WorkerActed w s p { s with batches, dispatched := s.dispatched + p.uncommitted, handlerErrors := errors
                                 latencyNsSum := latency } p'

theorem workerStep_acted (config : Config) (w : ω) (now : ℤ) (raised : Bool) (s : Shared ω ε) (p : Worker ε) :
    WorkerActed w s p (workerStep config w now raised s p).1 (workerStep config w now raised s p).2 := by
  cases p with
  | top =>
    simp only [workerStep]
    split
    · exact .moves rfl rfl
    · exact .moves rfl rfl
  | stopping =>
    simp only [workerStep]
    split
    · exact .moves rfl rfl
    · exact .moves rfl rfl
  | getting =>
    simp only [workerStep]
    split
    · exact .moves rfl rfl
    · rename_i first queue found
      exact .takes first queue found rfl rfl
  | filling batch rounds =>
    cases rounds with
    | zero => exact .moves rfl rfl
    | succ rounds =>
      simp only [workerStep]
      split
      · exact .moves rfl rfl
      · rename_i entry queue found
        exact .takes entry queue found rfl rfl
  | dispatching batch dispatched errors latency =>
    cases batch with
    | nil => exact .commits _ _ _ rfl rfl
    | cons entry batch => exact .hands entry rfl rfl
  | exited => exact .moves rfl rfl

end Parties

section Steps
variable [DecidableEq π] [DecidableEq ω] {config : Config}

/-- What a step of the bus does: a publisher moves, a worker moves, or the flag is set. -/
inductive Stepped (config : Config) (bus : Bus π ω ε) : Bus π ω ε → Prop
  | publisher (i : π) {s : Shared ω ε} {p : Publisher ε} (acted : PublisherActed config bus.shared (bus.publisher i) s p) :
      Stepped config bus { bus with shared := s, publisher := Function.update bus.publisher i p }
  | worker (w : ω) {s : Shared ω ε} {p : Worker ε} (acted : WorkerActed w bus.shared (bus.worker w) s p) :
      Stepped config bus { bus with shared := s, worker := Function.update bus.worker w p }
  | stop : Stepped config bus { bus with shared := { bus.shared with stop := true } }

theorem stepped (bus : Bus π ω ε) (a : Action π ω ε) : Stepped config bus (bus.step config a) := by
  cases a with
  | publishMany i events =>
    unfold Bus.step
    dsimp only
    split
    · rename_i idle
      exact .publisher i (.moves _ (by rw [idle]; rfl) (by rw [idle]; rfl))
    · have stays : Stepped config bus { bus with publisher := Function.update bus.publisher i (bus.publisher i) } :=
        .publisher i (.moves bus.shared.backpressureCount rfl rfl)
      rw [Function.update_eq_self] at stays
      exact stays
  | publisher i now => exact .publisher i (publisherStep_acted config now bus.shared (bus.publisher i))
  | worker w now raised => exact .worker w (workerStep_acted config w now raised bus.shared (bus.worker w))
  | stop => exact .stop

variable (config) in
/-- **Run rule.** What every step keeps holds after all steps. -/
theorem after_invariant {P : Bus π ω ε → Prop} (start : P .start) (keep : ∀ bus bus', P bus → Stepped config bus bus' → P bus')
    (actions : List (Action π ω ε)) : P (Bus.start.after config actions) :=
  Run.foldl_invariant (fun bus a _ holds => keep bus _ holds (stepped bus a)) start

end Steps

section Accounts
variable [Fintype π] [Fintype ω]

/-- The counters, up to what the parties have still to count. -/
structure Accounts (config : Config) (bus : Bus π ω ε) : Prop where
  published : bus.shared.published + ∑ i, (bus.publisher i).uncounted = bus.shared.accepted.length
  begun : bus.shared.published + bus.shared.dropped + ∑ i, (bus.publisher i).attempts = bus.shared.begun
  dispatched : bus.shared.dispatched + ∑ w, (bus.worker w).uncommitted = bus.shared.handed.length
  unfinished : bus.shared.unfinished = bus.shared.queue.length + ∑ w, (bus.worker w).held.length
  all : bus.shared.queue.length + ∑ w, (bus.worker w).held.length + bus.shared.handed.length =
    bus.shared.accepted.length
  bounded : bus.shared.queue.length ≤ config.queueSize

variable [DecidableEq π] [DecidableEq ω] {config : Config}

omit [DecidableEq π] [DecidableEq ω] in
theorem accounts_start : Accounts config (Bus.start : Bus π ω ε) where
  published := by simp [Bus.start, Publisher.uncounted]
  begun := by simp [Bus.start, Publisher.attempts]
  dispatched := by simp [Bus.start, Worker.uncommitted]
  unfinished := by simp [Bus.start, Worker.held]
  all := by simp [Bus.start, Worker.held]
  bounded := Nat.zero_le _

omit [DecidableEq ω] in
theorem Accounts.publisher {bus : Bus π ω ε} (accounts : Accounts config bus) {i : π} {s : Shared ω ε} {p : Publisher ε}
    (acted : PublisherActed config bus.shared (bus.publisher i) s p) :
    Accounts config { bus with shared := s, publisher := Function.update bus.publisher i p } := by
  have attempts_ := Parties.sum_update Publisher.attempts bus.publisher i p
  have uncounted_ := Parties.sum_update Publisher.uncounted bus.publisher i p
  obtain ⟨published, begun, dispatched, unfinished, all, bounded⟩ := accounts
  cases acted with
  | moves pressure attempts uncounted =>
    refine ⟨?_, ?_, dispatched, unfinished, all, bounded⟩ <;> dsimp only <;> omega
  | begins attempts uncounted =>
    refine ⟨?_, ?_, dispatched, unfinished, all, bounded⟩ <;> dsimp only <;> omega
  | puts enqueueTs event room attempts uncounted =>
    have space : bus.shared.queue.length < config.queueSize := by simpa [Shared.full] using room
    refine ⟨?_, ?_, dispatched, ?_, ?_, ?_⟩ <;> simp only [Shared.put, List.length_append, List.length_singleton] <;> omega
  | counts mark attempts uncounted =>
    refine ⟨?_, ?_, dispatched, unfinished, all, bounded⟩ <;> dsimp only <;> omega
  | drops pressure attempts uncounted =>
    refine ⟨?_, ?_, dispatched, unfinished, all, bounded⟩ <;> dsimp only <;> omega

omit [DecidableEq π] in
theorem Accounts.worker {bus : Bus π ω ε} (accounts : Accounts config bus) {w : ω} {s : Shared ω ε} {p : Worker ε}
    (acted : WorkerActed w bus.shared (bus.worker w) s p) :
    Accounts config { bus with shared := s, worker := Function.update bus.worker w p } := by
  have held_ := Parties.sum_update (fun p : Worker ε => p.held.length) bus.worker w p
  have uncommitted_ := Parties.sum_update Worker.uncommitted bus.worker w p
  obtain ⟨published, begun, dispatched, unfinished, all, bounded⟩ := accounts
  cases acted with
  | moves held uncommitted =>
    rw [held] at held_
    refine ⟨published, begun, ?_, ?_, ?_, bounded⟩ <;> dsimp only <;> omega
  | takes entry queue found held uncommitted =>
    rw [held, List.length_append, List.length_singleton] at held_
    rw [found, List.length_cons] at unfinished all bounded
    refine ⟨published, begun, ?_, ?_, ?_, ?_⟩ <;> dsimp only <;> omega
  | hands entry held uncommitted =>
    rw [held, List.length_cons] at held_
    refine ⟨published, begun, ?_, ?_, ?_, bounded⟩ <;> simp only [List.length_append, List.length_singleton] <;> omega
  | commits batches errors latency held uncommitted =>
    rw [held] at held_
    refine ⟨published, begun, ?_, ?_, ?_, bounded⟩ <;> dsimp only <;> omega

/-- **The counters are in balance** after any steps. -/
theorem accounts_after (actions : List (Action π ω ε)) :
    Accounts config ((Bus.start : Bus π ω ε).after config actions) := by
  refine after_invariant config accounts_start ?_ actions
  intro bus bus' accounts step
  cases step with
  | publisher i acted => exact accounts.publisher acted
  | worker w acted => exact accounts.worker acted
  | stop => exact ⟨accounts.published, accounts.begun, accounts.dispatched, accounts.unfinished, accounts.all, accounts.bounded⟩

end Accounts

section Places
variable [Fintype ω] [DecidableEq π] [DecidableEq ω] {config : Config}

/-- The numbers of the entries that are handed to the handlers, in that order. -/
def Shared.handedNumbers (s : Shared ω ε) : List ℕ := numbers (s.handed.map Prod.snd)

/-- How often the event of a number is in the queue, with a worker, or handed. -/
def Bus.places (bus : Bus π ω ε) (n : ℕ) : ℕ :=
  (numbers bus.shared.queue).count n + ∑ w, (numbers (bus.worker w).held).count n + bus.shared.handedNumbers.count n

/-- Every accepted event is in one place, and no other is anywhere. -/
def Placed (bus : Bus π ω ε) : Prop :=
  ∀ n, bus.places n = if n < bus.shared.accepted.length then 1 else 0

omit [DecidableEq π] [DecidableEq ω] in
theorem placed_start : Placed (Bus.start : Bus π ω ε) := by
  intro n
  simp [Bus.start, Bus.places, Worker.held, Shared.handedNumbers, numbers]

omit [DecidableEq ω] in
theorem Placed.publisher {bus : Bus π ω ε} (placed : Placed bus) {i : π} {s : Shared ω ε} {p : Publisher ε}
    (acted : PublisherActed config bus.shared (bus.publisher i) s p) :
    Placed { bus with shared := s, publisher := Function.update bus.publisher i p } := by
  intro n
  have before := placed n
  cases acted with
  | moves => exact before
  | begins => exact before
  | puts enqueueTs event room attempts uncounted =>
    unfold Bus.places at before ⊢
    simp only [Shared.put, Shared.handedNumbers, numbers, List.map_append, List.map_cons, List.map_nil, List.count_append,
      List.count_singleton, List.length_append, List.length_singleton, beq_iff_eq] at before ⊢
    split at before <;> split <;> split <;> omega
  | counts => exact before
  | drops => exact before

omit [DecidableEq π] in
theorem Placed.worker {bus : Bus π ω ε} (placed : Placed bus) {w : ω} {s : Shared ω ε} {p : Worker ε}
    (acted : WorkerActed w bus.shared (bus.worker w) s p) :
    Placed { bus with shared := s, worker := Function.update bus.worker w p } := by
  intro n
  have before := placed n
  have held_ := Parties.sum_update (fun p : Worker ε => (numbers p.held).count n) bus.worker w p
  unfold Bus.places Shared.handedNumbers at before ⊢
  cases acted with
  | moves held uncommitted =>
    rw [held] at held_
    dsimp only
    omega
  | takes entry queue found held uncommitted =>
    rw [held] at held_
    rw [found] at before
    simp only [numbers, List.map_append, List.map_cons, List.map_nil, List.count_append, List.count_cons,
      List.count_nil] at before held_ ⊢
    omega
  | hands entry held uncommitted =>
    rw [held] at held_
    simp only [numbers, List.map_append, List.map_cons, List.map_nil, List.count_append, List.count_cons,
      List.count_nil] at before held_ ⊢
    omega
  | commits batches errors latency held uncommitted =>
    rw [held] at held_
    dsimp only
    omega

/-- **Nothing is lost or duplicated**, after any steps. -/
theorem placed_after (actions : List (Action π ω ε)) : Placed ((Bus.start : Bus π ω ε).after config actions) := by
  refine after_invariant config placed_start ?_ actions
  intro bus bus' placed step
  cases step with
  | publisher i acted => exact placed.publisher acted
  | worker w acted => exact placed.worker acted
  | stop => exact placed

/-- The entry holds the event that was accepted under its number. -/
def Entry.Genuine (accepted : List ε) (entry : Entry ε) : Prop := accepted[entry.number]? = some entry.event

/-- Every entry, wherever it is, holds the event that was accepted. -/
structure Genuine (bus : Bus π ω ε) : Prop where
  queue : ∀ entry ∈ bus.shared.queue, entry.Genuine bus.shared.accepted
  held : ∀ w, ∀ entry ∈ (bus.worker w).held, entry.Genuine bus.shared.accepted
  handed : ∀ handing ∈ bus.shared.handed, handing.2.Genuine bus.shared.accepted

theorem Entry.Genuine.grown {accepted : List ε} {entry : Entry ε} (genuine : entry.Genuine accepted) (event : ε) :
    entry.Genuine (accepted ++ [event]) := by
  have within := (List.getElem?_eq_some_iff.mp genuine).1
  exact (List.getElem?_append_left within).trans genuine

omit [Fintype ω] [DecidableEq ω] in
theorem Genuine.publisher {bus : Bus π ω ε} (genuine : Genuine bus) {i : π} {s : Shared ω ε} {p : Publisher ε}
    (acted : PublisherActed config bus.shared (bus.publisher i) s p) :
    Genuine { bus with shared := s, publisher := Function.update bus.publisher i p } := by
  obtain ⟨queue, held, handed⟩ := genuine
  cases acted with
  | moves => exact ⟨queue, held, handed⟩
  | begins => exact ⟨queue, held, handed⟩
  | puts enqueueTs event room attempts uncounted =>
    refine ⟨?_, fun w entry member => (held w entry member).grown event,
      fun handing member => (handed handing member).grown event⟩
    intro entry member
    rcases List.mem_append.mp member with old | new
    · exact (queue entry old).grown event
    · rw [List.mem_singleton.mp new]
      exact List.getElem?_concat_length
  | counts => exact ⟨queue, held, handed⟩
  | drops => exact ⟨queue, held, handed⟩

omit [Fintype ω] [DecidableEq π] in
theorem Genuine.worker {bus : Bus π ω ε} (genuine : Genuine bus) {w : ω} {s : Shared ω ε} {p : Worker ε}
    (acted : WorkerActed w bus.shared (bus.worker w) s p) :
    Genuine { bus with shared := s, worker := Function.update bus.worker w p } := by
  obtain ⟨queue, held, handed⟩ := genuine
  have others : ∀ {p : Worker ε}, (∀ entry ∈ p.held, entry.Genuine bus.shared.accepted) →
      ∀ v, ∀ entry ∈ (Function.update bus.worker w p v).held, entry.Genuine bus.shared.accepted := by
    intro p own v
    by_cases same : v = w
    · subst same
      rwa [Function.update_self]
    · rw [Function.update_of_ne same]
      exact held v
  cases acted with
  | moves same uncommitted => exact ⟨queue, others (by rw [same]; exact held w), handed⟩
  | takes entry rest found same uncommitted =>
    rw [found] at queue
    refine ⟨fun e member => queue e (List.mem_cons_of_mem entry member), others ?_, handed⟩
    intro e member
    rw [same] at member
    rcases List.mem_append.mp member with old | new
    · exact held w e old
    · rw [List.mem_singleton.mp new]
      exact queue entry List.mem_cons_self
  | hands entry same uncommitted =>
    have own := held w
    rw [same] at own
    refine ⟨queue, others fun e member => own e (List.mem_cons_of_mem entry member), ?_⟩
    intro handing member
    rcases List.mem_append.mp member with old | new
    · exact handed handing old
    · rw [List.mem_singleton.mp new]
      exact own entry List.mem_cons_self
  | commits batches errors latency same uncommitted => exact ⟨queue, others (by rw [same]; exact held w), handed⟩

omit [Fintype ω] in
theorem genuine_after (actions : List (Action π ω ε)) : Genuine ((Bus.start : Bus π ω ε).after config actions) := by
  refine after_invariant config ⟨by simp [Bus.start], by simp [Bus.start, Worker.held], by simp [Bus.start]⟩ ?_
    actions
  intro bus bus' genuine step
  cases step with
  | publisher i acted => exact genuine.publisher acted
  | worker w acted => exact genuine.worker acted
  | stop => exact ⟨genuine.queue, genuine.held, genuine.handed⟩

end Places

section Order
variable [DecidableEq π] [DecidableEq ω] {config : Config}

variable (config) in
/-- **One worker** hands the events in the order of acceptance: what it handed, what it
holds and the queue are the numbers in order. -/
theorem inOrder_after {w : ω} (alone : ∀ v, v = w) (actions : List (Action π ω ε)) :
    let bus := (Bus.start : Bus π ω ε).after config actions
    bus.shared.handedNumbers ++ numbers (bus.worker w).held ++ numbers bus.shared.queue =
      List.range bus.shared.accepted.length := by
  refine after_invariant config (P := fun bus => bus.shared.handedNumbers ++ numbers (bus.worker w).held ++
    numbers bus.shared.queue = List.range bus.shared.accepted.length) rfl ?_ actions
  intro bus bus' order step
  unfold Shared.handedNumbers at order ⊢
  cases step with
  | publisher i acted =>
    cases acted with
    | moves => exact order
    | begins => exact order
    | puts enqueueTs event room attempts uncounted =>
      simp only [Shared.put, List.length_append, List.length_singleton, List.range_succ, ← order]
      simp [numbers]
    | counts => exact order
    | drops => exact order
  | worker v acted =>
    obtain rfl := alone v
    dsimp only
    rw [Function.update_self]
    cases acted with
    | moves held uncommitted => rw [held]; exact order
    | takes entry queue found held uncommitted =>
      rw [held, ← order, found]
      simp [numbers]
    | hands entry held uncommitted =>
      rw [← order, held]
      simp [numbers]
    | commits batches errors latency held uncommitted => rw [held]; exact order
  | stop => exact order

end Order

end CryptoQuant.LowLatency
