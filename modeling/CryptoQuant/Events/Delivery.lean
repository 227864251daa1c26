import CryptoQuant.Events.Accounting

/-!
# Delivery

While every worker keeps moving, an accepted event reaches the handlers, also after a stop
if no publisher goes on then: a worker leaves its loop only when it finds the queue empty.
In the queue, the place of an event and the way of one worker to the next `get` bound the
wait; with a worker, its place in the batch and the rounds left to fill it do.
-/

namespace CryptoQuant.LowLatency
set_option autoImplicit false

variable {π ω ε : Type}

section Ranks

/-- Steps of the worker up to its next `get`, when the queue is not empty. -/
def Worker.distance : Worker ε → ℕ
  | .top => 2
  | .stopping => 1
  | .getting => 0
  | .filling batch _ => batch.length + 4
  | .dispatching batch _ _ _ => batch.length + 3
  | .exited => 0

/-- Steps of the worker up to handing an entry that it holds. -/
def Worker.patience (n : ℕ) : Worker ε → ℕ
  | .filling batch rounds => (numbers batch).idxOf n + rounds + 2
  | .dispatching batch _ _ _ => (numbers batch).idxOf n + 1
  | _ => 0

/-- Further entries leave the places of a batch as they are. -/
theorem place_append {batch : List (Entry ε)} {n : ℕ} (member : n ∈ numbers batch) (more : List (Entry ε)) :
    n ∈ numbers (batch ++ more) ∧ (numbers (batch ++ more)).idxOf n = (numbers batch).idxOf n := by
  unfold numbers at member ⊢
  rw [List.map_append, List.idxOf_append_of_mem member]
  exact ⟨List.mem_append_left _ member, rfl⟩

/-- Without its first entry, the others of a batch come one place earlier. -/
theorem place_tail {entry : Entry ε} {batch : List (Entry ε)} {n : ℕ} (member : n ∈ numbers (entry :: batch))
    (apart : entry.number ≠ n) :
    n ∈ numbers batch ∧ (numbers (entry :: batch)).idxOf n = (numbers batch).idxOf n + 1 := by
  refine ⟨?_, List.idxOf_cons_ne _ apart⟩
  rcases List.mem_cons.mp (show n ∈ entry.number :: numbers batch from member) with same | later
  · exact absurd same.symm apart
  · exact later

/-- A worker in its loop takes from a queue that is not empty, or gets nearer to it. -/
theorem distance_step (config : Config) (w : ω) (now : ℤ) (raised : Bool) {s : Shared ω ε} {p : Worker ε}
    (inside : p ≠ .exited) (some_ : s.queue ≠ []) :
    (workerStep config w now raised s p).1.queue ≠ s.queue ∨
      (workerStep config w now raised s p).2.distance < p.distance := by
  obtain ⟨first, queue, found⟩ := List.exists_cons_of_ne_nil some_
  cases p with
  | top =>
    refine .inr ?_
    simp only [workerStep]
    split <;> simp [Worker.distance]
  | stopping => exact .inr (by simp [workerStep, some_, Worker.distance])
  | getting => exact .inl (by simp [workerStep, found])
  | filling batch rounds =>
    cases rounds with
    | zero => exact .inr (by simp [workerStep, Worker.distance])
    | succ rounds => exact .inl (by simp [workerStep, found])
  | dispatching batch dispatched errors latency =>
    cases batch with
    | nil => exact .inr (by simp [workerStep, Worker.distance])
    | cons entry batch => exact .inr (by simp [workerStep, Worker.distance])
  | exited => exact absurd rfl inside

/-- A worker hands an entry that it holds, or gets nearer to it. -/
theorem patience_step (config : Config) (w : ω) (now : ℤ) (raised : Bool) (s : Shared ω ε) {p : Worker ε} {n : ℕ}
    (member : n ∈ numbers p.held) :
    n ∈ (workerStep config w now raised s p).1.handedNumbers ∨
      n ∈ numbers (workerStep config w now raised s p).2.held ∧
        (workerStep config w now raised s p).2.patience n < p.patience n := by
  cases p with
  | top => exact absurd member (by simp [Worker.held, numbers])
  | stopping => exact absurd member (by simp [Worker.held, numbers])
  | getting => exact absurd member (by simp [Worker.held, numbers])
  | filling batch rounds =>
    have inside : n ∈ numbers batch := member
    cases rounds with
    | zero => exact .inr ⟨inside, by simp [workerStep, Worker.patience]⟩
    | succ rounds =>
      simp only [workerStep]
      split
      · exact .inr ⟨inside, by simp only [Worker.patience]; omega⟩
      · rename_i entry queue found
        obtain ⟨still, place⟩ := place_append inside [entry]
        refine .inr ⟨still, ?_⟩
        simp only [Worker.patience]
        omega
  | dispatching batch dispatched errors latency =>
    cases batch with
    | nil => exact absurd member (by simp [Worker.held, numbers])
    | cons entry batch =>
      by_cases own : entry.number = n
      · refine .inl ?_
        simp [workerStep, Shared.handedNumbers, numbers, own]
      · obtain ⟨later, place⟩ := place_tail member own
        refine .inr ⟨later, ?_⟩
        simp only [workerStep, Worker.patience]
        omega
  | exited => exact absurd member (by simp [Worker.held, numbers])

end Ranks

section Moves
variable {config : Config} {s s' : Shared ω ε}

theorem PublisherActed.stop_eq {p p' : Publisher ε} (acted : PublisherActed config s p s' p') : s'.stop = s.stop := by
  cases acted <;> rfl

theorem WorkerActed.stop_eq {w : ω} {p p' : Worker ε} (acted : WorkerActed w s p s' p') : s'.stop = s.stop := by
  cases acted <;> rfl

/-- A publisher leaves the places of the queue as they are. -/
theorem PublisherActed.queued {p p' : Publisher ε} (acted : PublisherActed config s p s' p') {n : ℕ}
    (member : n ∈ numbers s.queue) :
    n ∈ numbers s'.queue ∧ (numbers s'.queue).idxOf n = (numbers s.queue).idxOf n := by
  cases acted with
  | puts enqueueTs event room attempts uncounted => exact place_append member _
  | moves | begins | counts | drops => exact ⟨member, rfl⟩

/-- A worker leaves the queue as it is, or takes its first entry. -/
theorem WorkerActed.queued {w : ω} {p p' : Worker ε} (acted : WorkerActed w s p s' p') {n : ℕ}
    (member : n ∈ numbers s.queue) :
    n ∈ numbers p'.held ∨ n ∈ numbers s'.queue ∧
      ((numbers s'.queue).idxOf n < (numbers s.queue).idxOf n ∨ s'.queue = s.queue) := by
  cases acted with
  | takes entry queue found held uncommitted =>
    rw [held]
    rw [found] at member ⊢
    by_cases own : entry.number = n
    · refine .inl ?_
      simp [numbers, own]
    · obtain ⟨later, place⟩ := place_tail member own
      exact .inr ⟨later, .inl (by rw [place]; exact Nat.lt_succ_self _)⟩
  | moves | hands | commits => exact .inr ⟨member, .inr rfl⟩

/-- A worker inside its loop promises nothing about the flag and the queue. -/
theorem exits_inside {p : Worker ε} (looping : p ≠ .stopping) (inside : p ≠ .exited) :
    (p = .stopping ∨ p = .exited → s.stop = true) ∧ (p = .exited → s.queue = []) :=
  ⟨fun exits => absurd exits (not_or.mpr ⟨looping, inside⟩), fun exited => absurd exited inside⟩

/-- A worker leaves its loop with the flag set and the queue empty. -/
theorem exits_step (config : Config) (w : ω) (now : ℤ) (raised : Bool) {p : Worker ε}
    (exiting : p = .stopping ∨ p = .exited → s.stop = true) (exited : p = .exited → s.queue = []) :
    ((workerStep config w now raised s p).2 = .stopping ∨ (workerStep config w now raised s p).2 = .exited → s.stop = true) ∧
      ((workerStep config w now raised s p).2 = .exited → s.queue = []) := by
  cases p with
  | top =>
    simp only [workerStep]
    split
    · rename_i stopped
      exact ⟨fun _ => stopped, by simp⟩
    · exact exits_inside (by simp) (by simp)
  | stopping =>
    refine ⟨fun _ => exiting (.inl rfl), ?_⟩
    simp only [workerStep]
    split
    · rename_i empty
      exact fun _ => empty
    · simp
  | exited => exact ⟨fun _ => exiting (.inr rfl), fun _ => exited rfl⟩
  | getting =>
    simp only [workerStep]
    split <;> exact exits_inside (by simp) (by simp)
  | filling batch rounds =>
    cases rounds with
    | zero => exact exits_inside (by simp [workerStep]) (by simp [workerStep])
    | succ rounds =>
      simp only [workerStep]
      split <;> exact exits_inside (by simp) (by simp)
  | dispatching batch dispatched errors latency =>
    cases batch <;> exact exits_inside (by simp [workerStep]) (by simp [workerStep])

/-- A worker puts nothing into the queue. -/
theorem WorkerActed.empty {w : ω} {p p' : Worker ε} (acted : WorkerActed w s p s' p') (empty : s.queue = []) : s'.queue = [] := by
  cases acted with
  | takes entry queue found => exact absurd (found.symm.trans empty) (List.cons_ne_nil _ _)
  | moves | hands | commits => exact empty

end Moves

section Runs
variable [DecidableEq π] [DecidableEq ω] {config : Config}

/-- The bus after the first actions of a run that goes on. -/
def Bus.trace (config : Config) (acts : ℕ → Action π ω ε) : ℕ → Bus π ω ε
  | 0 => .start
  | t + 1 => (Bus.trace config acts t).step config (acts t)

theorem trace_eq_after (config : Config) (acts : ℕ → Action π ω ε) (t : ℕ) :
    Bus.trace config acts t = Bus.start.after config ((List.range t).map acts) := by
  induction t with
  | zero => rfl
  | succ t ih =>
    rw [Bus.trace, ih, List.range_succ, List.map_append]
    simp [Bus.after]

/-- A call of a publisher moves neither the queue nor a worker. -/
theorem step_publishMany (config : Config) (bus : Bus π ω ε) (i : π) (events : List ε) :
    (bus.step config (.publishMany i events)).shared = bus.shared ∧
      (bus.step config (.publishMany i events)).worker = bus.worker := by
  unfold Bus.step
  dsimp only
  split <;> exact ⟨rfl, rfl⟩

/-- The worker that moves, and any other. -/
theorem step_worker_self (config : Config) (bus : Bus π ω ε) (w : ω) (now : ℤ) (raised : Bool) :
    (bus.step config (.worker w now raised)).worker w = (workerStep config w now raised bus.shared (bus.worker w)).2 :=
  Function.update_self _ _ _

theorem step_worker_of_ne (config : Config) (bus : Bus π ω ε) {v w : ω} (apart : v ≠ w) (now : ℤ) (raised : Bool) :
    (bus.step config (.worker w now raised)).worker v = bus.worker v :=
  Function.update_of_ne apart _ _

/-- The run goes on: the bus is not stopped, and every worker moves again and again. -/
structure GoesOn (acts : ℕ → Action π ω ε) : Prop where
  goes : ∀ t, acts t ≠ .stop
  works : ∀ w t, ∃ t', t ≤ t' ∧ ∃ now raised, acts t' = .worker w now raised

/-- Every worker moves again and again, and once the bus is stopped no publisher goes on. -/
structure Drains (acts : ℕ → Action π ω ε) : Prop where
  quiet : ∀ t, acts t = .stop → ∀ t', t ≤ t' → ∀ i now, acts t' ≠ .publisher i now
  works : ∀ w t, ∃ t', t ≤ t' ∧ ∃ now raised, acts t' = .worker w now raised

variable {acts : ℕ → Action π ω ε}

omit [DecidableEq π] [DecidableEq ω] in
theorem GoesOn.drains (run : GoesOn acts) : Drains acts := ⟨fun t stopped => absurd stopped (run.goes t), run.works⟩

/-- Workers leave their loops after a stop only, and at an empty queue, which stays empty. -/
structure Exits (acts : ℕ → Action π ω ε) (t : ℕ) (bus : Bus π ω ε) : Prop where
  stopped : bus.shared.stop = true → ∃ t', t' < t ∧ acts t' = .stop
  exiting : ∀ w, bus.worker w = .stopping ∨ bus.worker w = .exited → bus.shared.stop = true
  empty : ∀ w, bus.worker w = .exited → bus.shared.queue = []

variable (config) in
theorem exits_trace (run : Drains acts) (t : ℕ) : Exits acts t (Bus.trace config acts t) := by
  induction t with
  | zero => exact ⟨nofun, fun w exits => by simp [Bus.trace, Bus.start] at exits, fun w exited => by cases exited⟩
  | succ t ih =>
    obtain ⟨stopped, exiting, empty⟩ := ih
    have earlier (set : (Bus.trace config acts t).shared.stop = true) : ∃ t', t' < t + 1 ∧ acts t' = .stop := by
      obtain ⟨t', before, stop⟩ := stopped set
      exact ⟨t', by omega, stop⟩
    rw [Bus.trace]
    cases move : acts t with
    | publishMany i events =>
      obtain ⟨shared, worker⟩ := step_publishMany config (Bus.trace config acts t) i events
      constructor
      all_goals rw [shared]
      · exact earlier
      · rwa [worker]
      · rwa [worker]
    | publisher i now =>
      have same := (publisherStep_acted config now (Bus.trace config acts t).shared ((Bus.trace config acts t).publisher i)).stop_eq
      refine ⟨fun set => earlier (same.symm.trans set), fun w exits => same.trans (exiting w exits), fun w exited => ?_⟩
      -- no publisher goes on after a stop
      obtain ⟨t', before, stop⟩ := stopped (exiting w (.inr exited))
      exact absurd move (run.quiet t' stop t before.le i now)
    | worker w now raised =>
      have acted := workerStep_acted config w now raised (Bus.trace config acts t).shared ((Bus.trace config acts t).worker w)
      obtain ⟨stops, ends⟩ := exits_step config w now raised (exiting w) (empty w)
      refine ⟨fun set => earlier (acted.stop_eq.symm.trans set), fun v exits => acted.stop_eq.trans ?_, fun v exited => acted.empty ?_⟩
      · by_cases own : v = w
        · subst own
          rw [step_worker_self] at exits
          exact stops exits
        · rw [step_worker_of_ne config _ own] at exits
          exact exiting v exits
      · by_cases own : v = w
        · subst own
          rw [step_worker_self] at exited
          exact ends exited
        · rw [step_worker_of_ne config _ own] at exited
          exact empty v exited
    | stop => exact ⟨fun _ => ⟨t, Nat.lt_succ_self t, move⟩, fun _ _ => rfl, empty⟩

/-- An entry in the queue is taken. -/
theorem taken (run : Drains acts) (w : ω) {n t : ℕ} (queued : n ∈ numbers (Bus.trace config acts t).shared.queue) :
    ∃ t', t ≤ t' ∧ ∃ v, n ∈ numbers ((Bus.trace config acts t').worker v).held := by
  refine Parties.eventually_of_rank (Prod.lex Nat.lt_wfRel Nat.lt_wfRel).wf
    (P := fun bus : Bus π ω ε => n ∈ numbers bus.shared.queue)
    (G := fun bus : Bus π ω ε => ∃ v, n ∈ numbers (bus.worker v).held)
    (r := fun bus : Bus π ω ε => ((numbers bus.shared.queue).idxOf n, (bus.worker w).distance))
    (run.works w) ?_ queued
  intro t queued
  have empty := (exits_trace config run t).empty
  rw [Bus.trace]
  generalize Bus.trace config acts t = bus at queued empty
  have some_ : bus.shared.queue ≠ [] := fun none_ => by simp [none_, numbers] at queued
  cases move : acts t with
  | publishMany i events =>
    obtain ⟨shared, worker⟩ := step_publishMany config bus i events
    rw [shared, worker]
    exact .inr ⟨queued, .inr ⟨rfl, by simp⟩⟩
  | publisher i now =>
    obtain ⟨member, place⟩ := (publisherStep_acted config now bus.shared (bus.publisher i)).queued queued
    exact .inr ⟨member, .inr ⟨Prod.ext place rfl, by simp⟩⟩
  | worker v now raised =>
    rcases (workerStep_acted config v now raised bus.shared (bus.worker v)).queued queued with held | ⟨member, nearer⟩
    · exact .inl ⟨v, by rwa [step_worker_self]⟩
    refine .inr ⟨member, ?_⟩
    rcases nearer with nearer | same
    · exact .inl (.left _ _ nearer)
    have place : (numbers (bus.step config (.worker v now raised)).shared.queue).idxOf n =
        (numbers bus.shared.queue).idxOf n := congrArg (fun queue => (numbers queue).idxOf n) same
    by_cases own : v = w
    · -- this is the worker whose way to the queue is counted
      subst own
      rcases distance_step config v now raised (fun exited => some_ (empty v exited)) some_ with taken | lower
      · exact absurd same taken
      · refine .inl ?_
        rw [place]
        refine .right _ ?_
        rwa [step_worker_self]
    · refine .inr ⟨?_, by simp [own]⟩
      rw [place, step_worker_of_ne config _ (Ne.symm own)]
  | stop => exact .inr ⟨queued, .inr ⟨rfl, by simp⟩⟩

/-- An entry that a worker holds is handed. -/
theorem handed (run : Drains acts) {v : ω} {n t : ℕ} (held : n ∈ numbers ((Bus.trace config acts t).worker v).held) :
    ∃ t', t ≤ t' ∧ n ∈ (Bus.trace config acts t').shared.handedNumbers := by
  refine Parties.eventually_of_rank Nat.lt_wfRel.wf
    (P := fun bus : Bus π ω ε => n ∈ numbers (bus.worker v).held)
    (G := fun bus : Bus π ω ε => n ∈ bus.shared.handedNumbers)
    (r := fun bus : Bus π ω ε => (bus.worker v).patience n)
    (run.works v) ?_ held
  intro t held
  rw [Bus.trace]
  generalize Bus.trace config acts t = bus at held
  cases move : acts t with
  | publishMany i events =>
    rw [(step_publishMany config bus i events).2]
    exact .inr ⟨held, .inr ⟨rfl, by simp⟩⟩
  | publisher i now => exact .inr ⟨held, .inr ⟨rfl, by simp⟩⟩
  | worker w now raised =>
    by_cases own : w = v
    · subst own
      rcases patience_step config w now raised bus.shared held with handed | ⟨member, lower⟩
      · exact .inl handed
      rw [step_worker_self]
      exact .inr ⟨member, .inl lower⟩
    · rw [step_worker_of_ne config _ (Ne.symm own)]
      exact .inr ⟨held, .inr ⟨rfl, by simp [own]⟩⟩
  | stop => exact .inr ⟨held, .inr ⟨rfl, by simp⟩⟩

/-- **Delivery.** The workers hand every accepted event, also those that a stop finds in the queue. -/
theorem delivered [Fintype ω] (run : Drains acts) (w : ω) {n t : ℕ}
    (accepted : n < (Bus.trace config acts t).shared.accepted.length) :
    ∃ t', t ≤ t' ∧ n ∈ (Bus.trace config acts t').shared.handedNumbers := by
  have placed : (Bus.trace config acts t).places n = 1 := by
    rw [trace_eq_after] at accepted ⊢
    rw [placed_after _ n, if_pos accepted]
  unfold Bus.places at placed
  by_cases queued : n ∈ numbers (Bus.trace config acts t).shared.queue
  · obtain ⟨t₁, after, v, held⟩ := taken run w queued
    obtain ⟨t₂, after', done⟩ := handed run held
    exact ⟨t₂, by omega, done⟩
  by_cases held : ∃ v, n ∈ numbers ((Bus.trace config acts t).worker v).held
  · obtain ⟨v, held⟩ := held
    exact handed run held
  · have none_ : ∑ v, (numbers ((Bus.trace config acts t).worker v).held).count n = 0 :=
      Finset.sum_eq_zero fun v _ => List.count_eq_zero.mpr fun member => held ⟨v, member⟩
    refine ⟨t, le_rfl, List.count_pos_iff.mp ?_⟩
    rw [List.count_eq_zero.mpr queued, none_] at placed
    omega

/-- Every accepted event is handed exactly once. -/
theorem handed_once [Fintype ω] (run : Drains acts) (w : ω) {n t : ℕ}
    (accepted : n < (Bus.trace config acts t).shared.accepted.length) :
    ∃ t', t ≤ t' ∧ (Bus.trace config acts t').shared.handedNumbers.count n = 1 := by
  obtain ⟨t', after, done⟩ := delivered run w accepted
  refine ⟨t', after, ?_⟩
  have once : (Bus.trace config acts t').places n ≤ 1 := by
    rw [trace_eq_after, placed_after _ n]
    split <;> omega
  have some_ := List.count_pos_iff.mpr done
  unfold Bus.places at once
  omega

end Runs

section Contract

/-- The attempts that are begun and no longer in progress. -/
def Bus.completed [Fintype π] (bus : Bus π ω ε) : ℕ := bus.shared.begun - ∑ i, (bus.publisher i).attempts

/-- The worker has taken a batch and not committed it. -/
def Worker.HoldsBatch : Worker ε → Prop
  | .filling .. | .dispatching .. => True
  | _ => False

theorem Worker.idle_of_no_batch {p : Worker ε} (free : ¬ p.HoldsBatch) : p.held = [] ∧ p.uncommitted = 0 := by
  cases p with
  | filling | dispatching => exact absurd trivial free
  | top | stopping | getting | exited => exact ⟨rfl, rfl⟩

/-- The queue is empty, no worker holds a batch and no publisher is in an attempt. -/
structure Quiescent (bus : Bus π ω ε) : Prop where
  queue : bus.shared.queue = []
  workers : ∀ w, ¬ (bus.worker w).HoldsBatch
  publishers : ∀ i, (bus.publisher i).attempts = 0

theorem Publisher.uncounted_le (p : Publisher ε) : p.uncounted ≤ p.attempts := by
  cases p <;> simp [Publisher.uncounted, Publisher.attempts]

/-- **In a quiescent state** all accepted events are handed and counted. -/
theorem Quiescent.all_handed [Fintype π] [Fintype ω] {config : Config} {bus : Bus π ω ε} (quiescent : Quiescent bus)
    (accounts : Accounts config bus) (placed : Placed bus) :
    bus.shared.dispatched = bus.shared.published ∧
      bus.shared.handedNumbers.Perm (List.range bus.shared.accepted.length) := by
  have uncounted : ∑ i, (bus.publisher i).uncounted = 0 := by
    refine Parties.sum_eq_zero fun i => ?_
    have least := (bus.publisher i).uncounted_le
    have none_ := quiescent.publishers i
    omega
  have held : ∑ w, (bus.worker w).held.length = 0 := by
    refine Finset.sum_eq_zero fun w _ => ?_
    rw [(Worker.idle_of_no_batch (quiescent.workers w)).1, List.length_nil]
  have uncommitted : ∑ w, (bus.worker w).uncommitted = 0 :=
    Parties.sum_eq_zero fun w => (Worker.idle_of_no_batch (quiescent.workers w)).2
  have empty : bus.shared.queue.length = 0 := by rw [quiescent.queue, List.length_nil]
  obtain ⟨published, -, dispatched, -, all, -⟩ := accounts
  refine ⟨by omega, ?_⟩
  rw [List.perm_iff_count]
  intro n
  have places := placed n
  have elsewhere : ∑ w, (numbers (bus.worker w).held).count n = 0 := by
    refine Finset.sum_eq_zero fun w _ => ?_
    rw [(Worker.idle_of_no_batch (quiescent.workers w)).1]
    rfl
  rw [Bus.places, quiescent.queue, elsewhere] at places
  rw [List.count_range]
  simpa [numbers] using places

/-- **No event is lost or duplicated**, for any number of publishers and workers, any
sizes, both settings of `drop_on_full` and any order of steps. -/
theorem events_exactly_once (config : Config) (publishers : ℕ) :
    (∀ actions : List (Action (Fin publishers) (Fin config.workerCount) ε),
      let bus := Bus.start.after config actions
      Placed bus ∧ Genuine bus ∧
      (config.workerCount = 1 → bus.shared.handedNumbers <+: List.range bus.shared.accepted.length) ∧
      bus.shared.published + bus.shared.dropped = bus.completed ∧
      (Quiescent bus → bus.shared.dispatched = bus.shared.published ∧
        bus.shared.handedNumbers.Perm (List.range bus.shared.accepted.length))) ∧
    ∀ acts : ℕ → Action (Fin publishers) (Fin config.workerCount) ε, GoesOn acts →
      ∀ t n, n < (Bus.trace config acts t).shared.accepted.length →
        ∃ t', t ≤ t' ∧ (Bus.trace config acts t').shared.handedNumbers.count n = 1 := by
  constructor
  · intro actions bus
    have accounts : Accounts config bus := accounts_after actions
    have placed : Placed bus := placed_after actions
    refine ⟨placed, genuine_after actions, ?_, ?_, fun quiescent => quiescent.all_handed accounts placed⟩
    · intro one
      let w : Fin config.workerCount := ⟨0, config.worker_pos⟩
      have alone : ∀ v : Fin config.workerCount, v = w := fun v => Fin.ext (by have := v.isLt; simp only [w]; omega)
      have order := inOrder_after config alone actions
      exact ⟨_, (List.append_assoc _ _ _).symm.trans order⟩
    · have begun := accounts.begun
      unfold Bus.completed
      omega
  · intro acts run t n accepted
    exact handed_once run.drains ⟨0, config.worker_pos⟩ accepted

/-- A bus with one worker and room for one event, that drops. -/
def single : Config where
  queueSize := 1
  workerCount := 1
  batchSize := 1
  dropOnFull := true
  queue_pos := Nat.one_pos
  worker_pos := Nat.one_pos
  batch_pos := Nat.one_pos

/-- Its worker. -/
def onlyWorker : Fin single.workerCount := ⟨0, single.worker_pos⟩

theorem eq_onlyWorker (w : Fin single.workerCount) : w = onlyWorker := by
  have least : w.val < 1 := w.isLt
  exact Fin.ext (Nat.lt_one_iff.mp least)

/-- An event is published, then the worker goes on. -/
def publishThenWork : ℕ → Action (Fin 1) (Fin single.workerCount) Unit
  | 0 => .publishMany 0 [()]
  | 1 | 2 | 3 => .publisher 0 0
  | _ => .worker onlyWorker 0 false

theorem publishThenWork_goesOn : GoesOn publishThenWork := by
  constructor
  · intro t
    unfold publishThenWork
    split <;> simp
  · intro w t
    exact ⟨t + 4, by omega, 0, false, by rw [eq_onlyWorker w]; rfl⟩

theorem events_exactly_once_single :
    ∃ t', 4 ≤ t' ∧ (Bus.trace single publishThenWork t').shared.handedNumbers.count 0 = 1 :=
  (events_exactly_once single 1).2 publishThenWork publishThenWork_goesOn 4 0 (by decide)

end Contract

end CryptoQuant.LowLatency
