import CryptoQuant.Events.FlushStats

/-!
# What the statistics show

`stats` is read while publishers and workers are at work. Its numbers are then not those
of one moment of the queue, but they stay within the capacity of the queue, one attempt
for each publisher and one batch for each worker of each other.
-/

namespace CryptoQuant.LowLatency
set_option autoImplicit false

variable {π ω ε : Type}

section Parties

/-- A worker that has taken entries has a batch of at most `batch_size`, and counts
errors among those that it has handed. -/
def Worker.Fits (config : Config) : Worker ε → Prop
  | .filling batch rounds => 0 < batch.length ∧ batch.length + rounds ≤ config.batchSize
  | .dispatching batch dispatched errors _ =>
    0 < batch.length + dispatched ∧ batch.length + dispatched ≤ config.batchSize ∧ errors ≤ dispatched
  | _ => True

/-- A publisher waits for room or gives an event up, as `drop_on_full` says. -/
def Publisher.Follows (config : Config) : Publisher ε → Prop
  | .pressed .. | .blocked .. => config.dropOnFull = false
  | .refused _ => config.dropOnFull = true
  | _ => True

/-- The counters of the back-pressure, in each mode. -/
def Shared.Pressed (config : Config) (s : Shared ω ε) : Prop :=
  if config.dropOnFull then s.backpressureCount = s.dropped else s.dropped = 0

theorem Publisher.uncounted_le_one (p : Publisher ε) : p.uncounted ≤ 1 := by
  cases p <;> simp [Publisher.uncounted]

/-- A worker has at most a batch in its hands. -/
theorem Worker.Fits.load_le {config : Config} {p : Worker ε} (fits : p.Fits config) :
    p.held.length + p.uncommitted ≤ config.batchSize := by
  cases p with
  | filling batch rounds =>
    simp only [Worker.Fits, Worker.held, Worker.uncommitted] at fits ⊢
    omega
  | dispatching batch dispatched errors latency => exact fits.2.1
  | _ => exact Nat.zero_le _

/-- What a worker does to the gauges in one step. -/
structure WorkerGauged (config : Config) (s s' : Shared ω ε) (p' : Worker ε) : Prop where
  fits : p'.Fits config
  batches : s'.batches ≤ s'.dispatched
  full : s'.dispatched ≤ s'.batches * config.batchSize
  errors : s'.handlerErrors ≤ s'.dispatched
  queue : s'.queue.length ≤ s.queue.length
  published : s'.published = s.published
  dropped : s'.dropped = s.dropped
  pressure : s'.backpressureCount = s.backpressureCount
  watermark : s'.queueHighWatermark = s.queueHighWatermark

theorem workerStep_gauged (config : Config) (w : ω) (now : ℤ) (raised : Bool) {s : Shared ω ε} {p : Worker ε}
    (fits : p.Fits config) (batches : s.batches ≤ s.dispatched) (full : s.dispatched ≤ s.batches * config.batchSize)
    (errors : s.handlerErrors ≤ s.dispatched) :
    WorkerGauged config s (workerStep config w now raised s p).1 (workerStep config w now raised s p).2 := by
  have room := config.batch_pos
  have stays {p' : Worker ε} (fits : p'.Fits config) : WorkerGauged config s s p' :=
    ⟨fits, batches, full, errors, le_refl _, rfl, rfl, rfl, rfl⟩
  cases p with
  | top =>
    simp only [workerStep]
    split
    · exact stays trivial
    · exact stays trivial
  | stopping =>
    simp only [workerStep]
    split
    · exact stays trivial
    · exact stays trivial
  | getting =>
    simp only [workerStep]
    split
    · exact stays trivial
    · rename_i first queue found
      refine ⟨⟨Nat.one_pos, ?_⟩, batches, full, errors, ?_, rfl, rfl, rfl, rfl⟩
      · simp only [List.length_singleton]
        omega
      · simp [found]
  | filling batch rounds =>
    obtain ⟨some_, fits⟩ := fits
    cases rounds with
    | zero => exact stays ⟨some_, fits, le_refl _⟩
    | succ rounds =>
      simp only [workerStep]
      split
      · exact stays ⟨some_, by omega, le_refl _⟩
      · rename_i entry queue found
        refine ⟨⟨?_, ?_⟩, batches, full, errors, ?_, rfl, rfl, rfl, rfl⟩
        · simp
        · simp only [List.length_append, List.length_singleton]
          omega
        · simp [found]
  | dispatching batch dispatched errors' latency =>
    obtain ⟨some_, fits, few⟩ := fits
    cases batch with
    | nil =>
      simp only [List.length_nil] at some_ fits
      refine ⟨trivial, ?_, ?_, Nat.add_le_add errors few, le_refl _, rfl, rfl, rfl, rfl⟩
      · show s.batches + 1 ≤ s.dispatched + dispatched
        omega
      · show s.dispatched + dispatched ≤ (s.batches + 1) * config.batchSize
        rw [Nat.add_mul, Nat.one_mul]
        omega
    | cons entry batch =>
      simp only [List.length_cons] at some_ fits
      refine ⟨⟨?_, ?_, ?_⟩, batches, full, errors, le_refl _, rfl, rfl, rfl, rfl⟩
      · omega
      · omega
      · cases raised
        · exact Nat.le_succ_of_le few
        · exact Nat.succ_le_succ few
  | exited => exact stays trivial

/-- What a publisher does to the gauges in one step. -/
structure PublisherGauged (config : Config) (s s' : Shared ω ε) (p p' : Publisher ε) : Prop where
  follows : p'.Follows config
  pressed : s'.Pressed config
  watermark : s'.queueHighWatermark ≤ config.queueSize
  behind : ∀ others, s.queue.length ≤ s.queueHighWatermark + (p.uncounted + others) →
    s'.queue.length ≤ s'.queueHighWatermark + (p'.uncounted + others)
  batches : s'.batches = s.batches
  dispatched : s'.dispatched = s.dispatched
  errors : s'.handlerErrors = s.handlerErrors

theorem publisherStep_gauged (config : Config) (now : ℤ) {s : Shared ω ε} {p : Publisher ε} (follows : p.Follows config)
    (pressed : s.Pressed config) (bounded : s.queue.length ≤ config.queueSize)
    (watermark : s.queueHighWatermark ≤ config.queueSize) :
    PublisherGauged config s (publisherStep config now s p).1 p (publisherStep config now s p).2 := by
  have goes {p' : Publisher ε} (follows : p'.Follows config) (uncounted : p'.uncounted = p.uncounted) :
      PublisherGauged config s s p p' :=
    ⟨follows, pressed, watermark, fun others behind => by rwa [uncounted], rfl, rfl, rfl⟩
  -- the event that is put is not in the watermark before it is counted
  have puts (ts : ℤ) (event : ε) (rest : List ε) (uncounted : p.uncounted = 0) :
      PublisherGauged config s (s.put ts event) p (.counting rest) := by
    refine ⟨trivial, pressed, watermark, fun others behind => ?_, rfl, rfl, rfl⟩
    simp only [Shared.put, Publisher.uncounted, List.length_append, List.length_singleton]
    omega
  cases p with
  | idle => exact goes trivial rfl
  | looping rest =>
    cases rest with
    | nil => exact goes trivial rfl
    | cons event rest => exact ⟨trivial, pressed, watermark, fun others behind => behind, rfl, rfl, rfl⟩
  | putting ts event rest =>
    simp only [publisherStep]
    cases mode : config.dropOnFull with
    | true =>
      rw [if_pos rfl]
      split
      · exact goes mode rfl
      · exact puts ts event rest rfl
    | false =>
      rw [if_neg Bool.false_ne_true]
      split
      · exact goes mode rfl
      · exact goes mode rfl
  | pressed ts event rest =>
    have mode : config.dropOnFull = false := follows
    refine ⟨mode, ?_, watermark, fun others behind => behind, rfl, rfl, rfl⟩
    unfold Shared.Pressed at pressed ⊢
    rwa [mode, if_neg Bool.false_ne_true] at pressed ⊢
  | blocked ts event rest =>
    simp only [publisherStep]
    split
    · exact goes follows rfl
    · exact puts ts event rest rfl
  | counting rest =>
    refine ⟨trivial, pressed, max_le watermark bounded, fun others behind => ?_, rfl, rfl, rfl⟩
    exact (le_max_right _ _).trans (Nat.le_add_right _ _)
  | refused rest =>
    have mode : config.dropOnFull = true := follows
    refine ⟨trivial, ?_, watermark, fun others behind => behind, rfl, rfl, rfl⟩
    unfold Shared.Pressed at pressed ⊢
    rw [mode, if_pos rfl] at pressed ⊢
    exact congrArg (· + 1) pressed

end Parties

section Gauges
variable [Fintype π] [Fintype ω] [DecidableEq π] [DecidableEq ω] {config : Config}

/-- The gauges of the bus, whoever is at work. -/
structure Gauged (config : Config) (bus : Bus π ω ε) : Prop where
  workers : ∀ w, (bus.worker w).Fits config
  publishers : ∀ i, (bus.publisher i).Follows config
  batches : bus.shared.batches ≤ bus.shared.dispatched
  full : bus.shared.dispatched ≤ bus.shared.batches * config.batchSize
  errors : bus.shared.handlerErrors ≤ bus.shared.dispatched
  pressed : bus.shared.Pressed config
  watermark : bus.shared.queueHighWatermark ≤ config.queueSize
  behind : bus.shared.queue.length ≤ bus.shared.queueHighWatermark + ∑ i, (bus.publisher i).uncounted

omit [Fintype ω] [DecidableEq π] [DecidableEq ω] in
theorem gauged_start : Gauged config (Bus.start : Bus π ω ε) where
  workers _ := trivial
  publishers _ := trivial
  batches := le_refl _
  full := Nat.zero_le _
  errors := le_refl _
  pressed := by simp [Shared.Pressed, Bus.start]
  watermark := Nat.zero_le _
  behind := Nat.zero_le _

/-- What holds of the state of one party and of the others holds of all. -/
theorem forall_update {ι α : Type} [DecidableEq ι] {P : α → Prop} {parties : ι → α} (before : ∀ j, P (parties j)) (i : ι)
    {x : α} (own : P x) (j : ι) : P (Function.update parties i x j) := by
  by_cases same : j = i
  · rw [same, Function.update_self]
    exact own
  · rw [Function.update_of_ne same]
    exact before j

omit [Fintype ω] [DecidableEq ω] in
theorem Gauged.publisher {bus : Bus π ω ε} (gauged : Gauged config bus) (i : π) {s : Shared ω ε} {p : Publisher ε}
    (acted : PublisherGauged config bus.shared s (bus.publisher i) p) :
    Gauged config { bus with shared := s, publisher := Function.update bus.publisher i p } where
  workers := gauged.workers
  publishers := forall_update gauged.publishers i acted.follows
  batches := by
    show s.batches ≤ s.dispatched
    rw [acted.batches, acted.dispatched]
    exact gauged.batches
  full := by
    show s.dispatched ≤ s.batches * config.batchSize
    rw [acted.batches, acted.dispatched]
    exact gauged.full
  errors := by
    show s.handlerErrors ≤ s.dispatched
    rw [acted.errors, acted.dispatched]
    exact gauged.errors
  pressed := acted.pressed
  watermark := acted.watermark
  behind := by
    have exchange := Parties.sum_update Publisher.uncounted bus.publisher i p
    have least := Parties.le_sum Publisher.uncounted bus.publisher i
    have before := gauged.behind
    have after := acted.behind (∑ j, (bus.publisher j).uncounted - (bus.publisher i).uncounted) (by omega)
    dsimp only
    omega

omit [Fintype ω] in
/-- **Step lemma** of the gauges. -/
theorem Gauged.step {bus : Bus π ω ε} (gauged : Gauged config bus) (bounded : bus.shared.queue.length ≤ config.queueSize)
    (action : Action π ω ε) : Gauged config (bus.step config action) := by
  cases action with
  | publishMany i events =>
    simp only [Bus.step]
    split
    · rename_i idle
      refine gauged.publisher i ⟨trivial, gauged.pressed, gauged.watermark, ?_, rfl, rfl, rfl⟩
      rw [idle]
      exact fun others behind => behind
    · exact gauged
  | publisher i now =>
    exact gauged.publisher i
      (publisherStep_gauged config now (gauged.publishers i) gauged.pressed bounded gauged.watermark)
  | worker w now raised =>
    have acted := workerStep_gauged config w now raised (gauged.workers w) gauged.batches gauged.full gauged.errors
    refine ⟨forall_update gauged.workers w acted.fits, gauged.publishers, acted.batches, acted.full, acted.errors,
      ?_, ?_, ?_⟩
    · have pressed := gauged.pressed
      unfold Shared.Pressed at pressed ⊢
      simp only [Bus.step]
      rwa [acted.pressure, acted.dropped]
    · exact acted.watermark.trans_le gauged.watermark
    · have queue := acted.queue
      have before := gauged.behind
      simp only [Bus.step]
      rw [acted.watermark]
      omega
  | stop => exact ⟨gauged.workers, gauged.publishers, gauged.batches, gauged.full, gauged.errors, gauged.pressed,
      gauged.watermark, gauged.behind⟩

theorem gauged_after (actions : List (Action π ω ε)) : Gauged config ((Bus.start : Bus π ω ε).after config actions) := by
  induction actions using List.reverseRecOn with
  | nil => exact gauged_start
  | append_singleton actions action ih =>
    rw [Bus.after, List.foldl_append]
    exact ih.step (accounts_after actions).bounded action

end Gauges

section Counters
variable {config : Config}

/-- No counter of `s` is ahead of that of `s'`. -/
structure DispatchStats.Before (s s' : DispatchStats) : Prop where
  published : s.published ≤ s'.published
  dropped : s.dropped ≤ s'.dropped
  dispatched : s.dispatched ≤ s'.dispatched
  watermark : s.queueHighWatermark ≤ s'.queueHighWatermark
  backpressure : s.backpressureCount ≤ s'.backpressureCount
  batches : s.batches ≤ s'.batches
  errors : s.handlerErrors ≤ s'.handlerErrors

theorem DispatchStats.Before.refl (s : DispatchStats) : s.Before s :=
  ⟨le_refl _, le_refl _, le_refl _, le_refl _, le_refl _, le_refl _, le_refl _⟩

theorem DispatchStats.Before.trans {a b c : DispatchStats} (first : a.Before b) (second : b.Before c) : a.Before c where
  published := first.published.trans second.published
  dropped := first.dropped.trans second.dropped
  dispatched := first.dispatched.trans second.dispatched
  watermark := first.watermark.trans second.watermark
  backpressure := first.backpressure.trans second.backpressure
  batches := first.batches.trans second.batches
  errors := first.errors.trans second.errors

theorem publisherStep_before (now : ℤ) (s : Shared ω ε) (p : Publisher ε) :
    (s.stats config).Before ((publisherStep config now s p).1.stats config) := by
  have same := DispatchStats.Before.refl (s.stats config)
  cases p with
  | idle => exact same
  | looping rest => cases rest <;> exact same
  | putting ts event rest =>
    simp only [publisherStep]
    split
    · split <;> exact ⟨le_refl _, le_refl _, le_refl _, le_refl _, le_refl _, le_refl _, le_refl _⟩
    · split <;> exact same
  | pressed ts event rest => exact { same with backpressure := Nat.le_succ _ }
  | blocked ts event rest =>
    simp only [publisherStep]
    split <;> exact ⟨le_refl _, le_refl _, le_refl _, le_refl _, le_refl _, le_refl _, le_refl _⟩
  | counting rest => exact { same with published := Nat.le_succ _, watermark := le_max_left _ _ }
  | refused rest => exact { same with dropped := Nat.le_succ _, backpressure := Nat.le_succ _ }

theorem workerStep_before (w : ω) (now : ℤ) (raised : Bool) (s : Shared ω ε) (p : Worker ε) :
    (s.stats config).Before ((workerStep config w now raised s p).1.stats config) := by
  have same := DispatchStats.Before.refl (s.stats config)
  cases p with
  | top => exact same
  | stopping => exact same
  | getting =>
    simp only [workerStep]
    split <;> exact ⟨le_refl _, le_refl _, le_refl _, le_refl _, le_refl _, le_refl _, le_refl _⟩
  | filling batch rounds =>
    cases rounds with
    | zero => exact same
    | succ rounds =>
      simp only [workerStep]
      split <;> exact ⟨le_refl _, le_refl _, le_refl _, le_refl _, le_refl _, le_refl _, le_refl _⟩
  | dispatching batch dispatched errors latency =>
    cases batch with
    | nil =>
      exact { same with
        batches := Nat.le_succ _, dispatched := Nat.le_add_right _ _, errors := Nat.le_add_right _ _ }
    | cons entry batch => exact ⟨le_refl _, le_refl _, le_refl _, le_refl _, le_refl _, le_refl _, le_refl _⟩
  | exited => exact same

variable [DecidableEq π] [DecidableEq ω]

/-- **Step lemma** of the counters: none goes back. -/
theorem before_step (bus : Bus π ω ε) (action : Action π ω ε) :
    (bus.shared.stats config).Before ((bus.step config action).shared.stats config) := by
  cases action with
  | publishMany i events =>
    simp only [Bus.step]
    split <;> exact .refl _
  | publisher i now => exact publisherStep_before now bus.shared (bus.publisher i)
  | worker w now raised => exact workerStep_before w now raised bus.shared (bus.worker w)
  | stop => exact .refl _

theorem before_after (bus : Bus π ω ε) (actions : List (Action π ω ε)) :
    (bus.shared.stats config).Before ((bus.after config actions).shared.stats config) := by
  induction actions using List.reverseRecOn with
  | nil => exact .refl _
  | append_singleton actions action ih =>
    rw [Bus.after, List.foldl_append]
    exact ih.trans (before_step _ action)

end Counters

/-- What the statistics of a bus with some publishers show at any moment. -/
structure DispatchStats.Coherent (config : Config) (publishers : ℕ) (stats : DispatchStats) : Prop where
  capacity : stats.queueSize ≤ stats.queueCapacity
  watermark : stats.queueHighWatermark ≤ stats.queueCapacity
  lag : stats.queueSize ≤ stats.queueHighWatermark + publishers
  batches : stats.batches ≤ stats.dispatched ∧ stats.dispatched ≤ stats.batches * config.batchSize
  errors : stats.handlerErrors ≤ stats.dispatched
  pressure : if config.dropOnFull then stats.backpressureCount = stats.dropped else stats.dropped = 0
  ahead : stats.dispatched ≤ stats.published + publishers
  inFlight : stats.published ≤ stats.dispatched + stats.queueSize + config.workerCount * config.batchSize

/-- The statistics of a bus with at most so many events put and not counted. -/
theorem coherent_of_accounts {config : Config} [Fintype π] [DecidableEq π] {bus : Bus π (Fin config.workerCount) ε}
    (accounts : Accounts config bus) (gauged : Gauged config bus) {publishers : ℕ}
    (counting : ∑ i, (bus.publisher i).uncounted ≤ publishers) : (bus.shared.stats config).Coherent config publishers := by
  have loads : ∑ w, ((bus.worker w).held.length + (bus.worker w).uncommitted) ≤ config.workerCount * config.batchSize := by
    refine (Finset.sum_le_card_nsmul _ _ config.batchSize fun w _ => (gauged.workers w).load_le).trans ?_
    simp
  rw [Finset.sum_add_distrib] at loads
  have behind := gauged.behind
  obtain ⟨published, -, dispatched, -, all, bounded⟩ := accounts
  exact {
    capacity := bounded
    watermark := gauged.watermark
    lag := behind.trans (Nat.add_le_add_left counting _)
    batches := ⟨gauged.batches, gauged.full⟩
    errors := gauged.errors
    pressure := gauged.pressed
    ahead := by
      show bus.shared.dispatched ≤ bus.shared.published + publishers
      omega
    inFlight := by
      show bus.shared.published ≤ bus.shared.dispatched + bus.shared.queue.length + config.workerCount * config.batchSize
      omega }

/-- **The statistics at any moment**, for any publishers and workers in whatever order. The
queue is within its capacity, the watermark behind it by at most one event for each
publisher; every batch has been dispatched with at least one event and at most
`batch_size`, an error is counted for at most each of them; the back-pressure counts
the drops, or there are none; what is published and not dispatched is in the queue or
in a batch of a worker; and no counter ever goes back. -/
theorem stats_coherent (config : Config) (publishers : ℕ)
    (actions later : List (Action (Fin publishers) (Fin config.workerCount) ε)) :
    let bus := Bus.start.after config actions
    (bus.shared.stats config).Coherent config publishers ∧
      (bus.shared.stats config).Before ((bus.after config later).shared.stats config) := by
  intro bus
  refine ⟨coherent_of_accounts (accounts_after actions) (gauged_after actions) ?_, before_after bus later⟩
  refine (Finset.sum_le_card_nsmul _ _ 1 fun i _ => (bus.publisher i).uncounted_le_one).trans ?_
  simp

end CryptoQuant.LowLatency
