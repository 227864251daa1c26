import CryptoQuant.Backtest.Mvp11.SetUp

/-!
# Events of symbols that are not configured

The set-up leaves them out of the events by symbol, but the loop reads that
table for every event. So the first such event ends the run, and a run gives a
result exactly when there is none.
-/

namespace CryptoQuant.Mvp11
set_option autoImplicit false

/-- The same run on the events of the configured symbols. -/
def BacktestArgs.filtered (args : BacktestArgs) : BacktestArgs :=
  { args with events := args.events.filter fun event => event.symbol ∈ args.symbols }

/-- The run gives a result, the same one as on the events of the configured symbols. -/
def IgnoresOthers (args : BacktestArgs) : Prop :=
  ∃ result result', runMultiAssetMultiStrategyBacktest args = .ok result ∧
    runMultiAssetMultiStrategyBacktest args.filtered = .ok result' ∧ result.fills = result'.fills ∧
    result.symbolPositions = result'.symbolPositions ∧ result.totalFee = result'.totalFee ∧
    result.finalEquity = result'.finalEquity

section Unconfigured
variable {args : BacktestArgs} {g : Engine}

theorem filtered_of_configured (configured : args.Configured) : args.filtered = args := by
  unfold BacktestArgs.filtered
  rw [List.filter_eq_self.mpr fun event member => decide_eq_true (configured event member)]

/-- The subscript that an event of another symbol fails. -/
theorem Ready.processEvent_unconfigured (ready : Ready args g) {event : MarketEvent} (other : event.symbol ∉ args.symbols)
    (st : LoopState) : processEvent g st event = .error .keyError := by
  have missing : g.symbolEvents.get? event.symbol = none := by
    rw [ready.symbolEvents, Py.Dict.get?_ofKeys, if_neg other]
  unfold processEvent getItem
  rw [missing]
  rfl

/-- The first event of another symbol ends the run. -/
theorem Ready.run_unconfigured (ready : Ready args g) {events : List MarketEvent} (among : ∀ e ∈ events, e ∈ args.ordered)
    (mixed : ∃ e ∈ events, e.symbol ∉ args.symbols) (st : LoopState) :
    events.foldlM (processEvent g) st = .error .keyError := by
  induction events generalizing st with
  | nil => simp at mixed
  | cons event rest ih =>
    rw [List.foldlM_cons]
    by_cases configured : event.symbol ∈ args.symbols
    · obtain ⟨idx, target, -, -, step⟩ := ready.processEvent_eq (among event List.mem_cons_self) configured
      have later : ∃ e ∈ rest, e.symbol ∉ args.symbols := by
        obtain ⟨e, member, other⟩ := mixed
        rcases List.mem_cons.mp member with rfl | later
        · exact absurd configured other
        · exact ⟨e, later, other⟩
      rw [step st]
      exact ih (fun e member => among e (List.mem_cons_of_mem _ member)) later _
    · rw [ready.processEvent_unconfigured configured st]
      rfl

theorem raises_of_unconfigured (admitted : setUp args = .ok g) (mixed : ¬ args.Configured) :
    runMultiAssetMultiStrategyBacktest args = .error .keyError := by
  have ready := setUp_ready admitted
  have other : ∃ e ∈ args.ordered, e.symbol ∉ args.symbols := by
    unfold BacktestArgs.Configured at mixed
    simp only [not_forall] at mixed
    obtain ⟨e, member, other⟩ := mixed
    exact ⟨e, mem_sortedByTs.mpr member, other⟩
  have run : g.run args.ordered = .error .keyError := ready.run_unconfigured (fun _ member => member) other g.start
  unfold runMultiAssetMultiStrategyBacktest
  rw [admitted]
  show (g.run args.ordered >>= fun st => pure st.result) = _
  rw [run]
  rfl

/-- **Mixed symbols.** For arguments that the set-up accepts, the events of other
symbols are without effect exactly when there are none. -/
theorem ignoresOthers_iff (admitted : setUp args = .ok g) : IgnoresOthers args ↔ args.Configured := by
  constructor
  · rintro ⟨result, result', run, -⟩
    by_contra mixed
    rw [raises_of_unconfigured admitted mixed] at run
    cases run
  · intro configured
    obtain ⟨st, run⟩ := (setUp_ready admitted).run_total configured (List.append_nil args.ordered).symm
    have ends : runMultiAssetMultiStrategyBacktest args = .ok st.result :=
      Run.bind_ok.mpr ⟨g, admitted, Run.bind_ok.mpr ⟨st, run, rfl⟩⟩
    refine ⟨st.result, st.result, ends, ?_, rfl, rfl, rfl, rfl⟩
    rw [filtered_of_configured configured]
    exact ends

end Unconfigured

/-- A long position in one symbol, among the closes of two. -/
def mixed : BacktestArgs where
  events := [⟨"BTCUSDT", .m1, 100, 0, "test"⟩, ⟨"ETHUSDT", .m1, 50, 0, "test"⟩, ⟨"BTCUSDT", .m1, 110, 60000000, "test"⟩]
  strategyTargetQtyFns := .ofKeys ["BTCUSDT"] fun _ => .ofKeys ["hold"] fun _ _ => 1
  config := { latencyBars := 1, baseFillRatio := 1 }
  draws := fun _ => 1 / 2

theorem ignoresOthers_filtered : IgnoresOthers mixed.filtered := by
  obtain ⟨g, admitted, -⟩ := Run.endsIn_iff.mp
    (show Run.endsIn (setUp mixed.filtered) (fun _ => true) = true by decide +kernel)
  refine (ignoresOthers_iff admitted).mpr ?_
  unfold BacktestArgs.Configured
  decide +kernel

/-- The event of the other symbol raises. -/
theorem raises_mixed : ∃ g, setUp mixed = .ok g ∧ runMultiAssetMultiStrategyBacktest mixed = .error .keyError ∧
    ¬ IgnoresOthers mixed := by
  obtain ⟨g, admitted, -⟩ := Run.endsIn_iff.mp
    (show Run.endsIn (setUp mixed) (fun _ => true) = true by decide +kernel)
  have other : ¬ mixed.Configured := by
    unfold BacktestArgs.Configured
    decide +kernel
  have run := raises_of_unconfigured admitted other
  refine ⟨g, admitted, run, ?_⟩
  rintro ⟨result, result', ok, -⟩
  rw [run] at ok
  cases ok

end CryptoQuant.Mvp11
