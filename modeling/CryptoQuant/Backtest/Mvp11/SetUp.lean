import CryptoQuant.Backtest.Mvp11.Model

/-!
# What the set-up of a realistic backtest guarantees

A run that gets past the argument checks has every table the loop subscripts:
`Ready` collects that, and `processEvent_eq` turns it into the loop body of a
configured event, without its lookups. No event of a configured symbol can
therefore make the loop raise.
-/

namespace CryptoQuant.Mvp11
set_option autoImplicit false

/-- The loop body after its lookups. -/
def eventStep (g : Engine) (event : MarketEvent) (symbolSeq : List MarketEvent) (idx : ℕ)
    (targetQty : ℚ) (st : LoopState) : LoopState :=
  recordEquity g event (checkLiquidation g event (beforeLiquidation g event symbolSeq idx targetQty st))

/-- A successful loop body is `eventStep` at what its lookups found. -/
theorem processEvent_ok {g : Engine} {st st' : LoopState} {event : MarketEvent} :
    processEvent g st event = .ok st' ↔
      ∃ symbolSeq idx target, g.symbolEvents.get? event.symbol = some symbolSeq ∧
        g.eventIndex.get? (event.symbol, event.ts) = some idx ∧ targetQty g event = .ok target ∧
        st' = eventStep g event symbolSeq idx target st := by
  unfold processEvent
  simp only [Run.bind_ok, getItem_ok, pure, Except.pure, Except.ok.injEq]
  constructor
  · rintro ⟨symbolSeq, seq, idx, index, target, goal, rfl⟩
    exact ⟨symbolSeq, idx, target, seq, index, goal, rfl⟩
  · rintro ⟨symbolSeq, idx, target, seq, index, goal, rfl⟩
    exact ⟨symbolSeq, seq, idx, index, target, goal, rfl⟩

/-- Every event of a list is of a configured symbol. -/
def BacktestArgs.Configured (args : BacktestArgs) : Prop := ∀ e ∈ args.events, e.symbol ∈ args.symbols

/-- What the loop finds in the tables built before it. -/
structure Ready (args : BacktestArgs) (g : Engine) : Prop where
  admitted : validateConfig args.config = .ok ()
  config : g.config = args.config
  symbols : g.symbols = args.symbols
  draws : g.draws = args.draws
  symbolEvents : g.symbolEvents = .ofKeys args.symbols args.eventsOf
  eventIndex : g.eventIndex = indexEvents g.symbolEvents
  target : ∀ e : MarketEvent, e.symbol ∈ args.symbols → ∃ t, targetQty g e = .ok t

theorem BacktestArgs.nodup_symbols (args : BacktestArgs) : args.symbols.Nodup :=
  (List.perm_insertionSort _ _).nodup_iff.mpr args.strategyTargetQtyFns.nodup_keys

theorem BacktestArgs.mem_symbols {args : BacktestArgs} {s : String} :
    s ∈ args.symbols ↔ s ∈ args.strategyTargetQtyFns.keys :=
  List.mem_insertionSort _

theorem normaliseStrategyWeights_get {names : List String} {weights : Option (Py.Dict String ℚ)}
    {norm : Py.Dict String ℚ} (h : normaliseStrategyWeights names weights = .ok norm) {name : String}
    (member : name ∈ names) : ∃ w, norm.get? name = some w := by
  unfold normaliseStrategyWeights at h
  split at h
  · cases h
    exact ⟨_, by rw [Py.Dict.get?_ofKeys, if_pos member]⟩
  · split at h
    · cases h
    · simp only at h
      split at h
      · cases h
      · cases h
        exact ⟨_, by rw [Py.Dict.get?_ofKeys, if_pos member]⟩

theorem normaliseSymbolWeights_get {symbols : List String} {weights : Option (Py.Dict String ℚ)}
    {norm : Py.Dict String ℚ} (h : normaliseSymbolWeights symbols weights = .ok norm) {symbol : String}
    (member : symbol ∈ symbols) : ∃ w, norm.get? symbol = some w := by
  unfold normaliseSymbolWeights at h
  split at h
  · cases h
    exact ⟨_, by rw [Py.Dict.get?_ofKeys, if_pos member]⟩
  · split at h
    · cases h
    · cases h
      exact ⟨_, by rw [Py.Dict.get?_ofKeys, if_pos member]⟩

/-- A strategy's name of a configured symbol is among the strategy names. -/
theorem BacktestArgs.mem_strategyNames {args : BacktestArgs} {symbol : String}
    {fns : Py.Dict String (MarketEvent → ℚ)} (found : args.strategyTargetQtyFns.get? symbol = some fns)
    {name : String} (member : name ∈ fns.keys) : name ∈ args.strategyNames := by
  refine (List.mem_insertionSort _).mpr (List.mem_dedup.mpr (List.mem_flatMap.mpr ⟨fns, ?_, member⟩))
  exact List.mem_map.mpr ⟨(symbol, fns), Py.Dict.mem_of_get? found, rfl⟩

/-- The target of a configured symbol is computed without a missing weight. -/
theorem targetQty_ok {args : BacktestArgs} {g : Engine} {strategies symbols : Py.Dict String ℚ}
    (hs : normaliseStrategyWeights args.strategyNames args.strategyWeights = .ok strategies)
    (hy : normaliseSymbolWeights args.symbols args.symbolWeights = .ok symbols)
    (fns_eq : g.strategyTargetQtyFns = args.strategyTargetQtyFns)
    (strategies_eq : g.normStrategyWeights = strategies) (symbols_eq : g.normSymbolWeights = symbols)
    {e : MarketEvent} (configured : e.symbol ∈ args.symbols) : ∃ t, targetQty g e = .ok t := by
  obtain ⟨fns, found⟩ := Py.Dict.mem_keys_iff.mp (BacktestArgs.mem_symbols.mp configured)
  obtain ⟨symbolWeight, weighted⟩ := normaliseSymbolWeights_get hy configured
  have sums : ∃ t, fns.items.foldlM
      (fun acc p => do let weight ← getItem g.normStrategyWeights p.1; pure (acc + weight * p.2 e)) (0 : ℚ) =
        Except.ok t ∧ True := by
    refine Run.progress (P := fun _ _ => True) trivial ?_ (List.append_nil fns.items).symm
    intro done p rest t split _
    have member : p.1 ∈ fns.keys :=
      List.mem_map.mpr ⟨p, by rw [split]; exact List.mem_append_right _ List.mem_cons_self, rfl⟩
    obtain ⟨w, hw⟩ := normaliseStrategyWeights_get hs (BacktestArgs.mem_strategyNames found member)
    exact ⟨t + w * p.2 e, Run.bind_ok.mpr ⟨w, getItem_of_get? (strategies_eq ▸ hw), rfl⟩, trivial⟩
  obtain ⟨t, sum, -⟩ := sums
  refine ⟨t * symbolWeight, ?_⟩
  unfold targetQty
  exact Run.bind_ok.mpr ⟨fns, getItem_of_get? (fns_eq ▸ found), Run.bind_ok.mpr ⟨t, sum,
    Run.bind_ok.mpr ⟨symbolWeight, getItem_of_get? (symbols_eq ▸ weighted), rfl⟩⟩⟩

/-- **The set-up is complete.** -/
theorem setUp_ready {args : BacktestArgs} {g : Engine} (h : setUp args = .ok g) : Ready args g := by
  unfold setUp at h
  obtain ⟨⟨⟩, admitted, h⟩ := Run.bind_ok.mp h
  obtain ⟨-, -, h⟩ := Run.bind_ok.mp h
  obtain ⟨-, -, h⟩ := Run.bind_ok.mp h
  obtain ⟨-, -, h⟩ := Run.bind_ok.mp h
  obtain ⟨-, -, h⟩ := Run.bind_ok.mp h
  obtain ⟨strategies, hs, h⟩ := Run.bind_ok.mp h
  obtain ⟨symbols, hy, h⟩ := Run.bind_ok.mp h
  cases h
  exact ⟨admitted, rfl, rfl, rfl, rfl, rfl, fun e configured => targetQty_ok hs hy rfl rfl rfl configured⟩

/-- A run that gets past the checks has an event. -/
theorem setUp_events {args : BacktestArgs} {g : Engine} (h : setUp args = .ok g) : args.ordered ≠ [] := by
  unfold setUp at h
  obtain ⟨-, -, h⟩ := Run.bind_ok.mp h
  obtain ⟨_, checked, -⟩ := Run.bind_ok.mp h
  intro none_
  have empty : args.events = [] := by
    have perm := sortedByTs_perm args.events
    rw [show sortedByTs args.events = [] from none_] at perm
    exact List.nil_perm.mp perm
  exact raiseIf_ok.mp checked empty

section Ready
variable {args : BacktestArgs} {g : Engine}

theorem Ready.events_of (ready : Ready args g) {s : String} (h : s ∈ args.symbols) :
    g.symbolEvents.get? s = some (args.eventsOf s) := by
  rw [ready.symbolEvents, Py.Dict.get?_ofKeys, if_pos h]

theorem mem_eventsOf {s : String} {e : MarketEvent} :
    e ∈ args.eventsOf s ↔ e ∈ args.ordered ∧ e.symbol = s := by
  simp only [BacktestArgs.eventsOf, List.mem_filter, decide_eq_true_eq]

/-- The index recorded for an event is that of an event of its symbol with its
time stamp. -/
theorem Ready.index_of (ready : Ready args g) {e : MarketEvent} (member : e ∈ args.ordered)
    (configured : e.symbol ∈ args.symbols) :
    ∃ i e', g.eventIndex.get? (e.symbol, e.ts) = some i ∧ (args.eventsOf e.symbol)[i]? = some e' ∧
      e'.ts = e.ts := by
  have own : e ∈ args.eventsOf e.symbol := mem_eventsOf.mpr ⟨member, rfl⟩
  obtain ⟨j, found⟩ := List.mem_iff_getElem?.mp own
  -- one flat list of writes instead of the two nested loops
  let writes := g.symbolEvents.items.flatMap fun p => p.2.zipIdx.map fun q => ((p.1, q.1.ts), q.2)
  have flat : g.eventIndex = writes.foldl (fun index w => index.set w.1 w.2) .empty := by
    rw [ready.eventIndex, indexEvents, List.foldl_flatMap]
    congr 1
    funext index p
    rw [List.foldl_map]
  have entry : (e.symbol, args.eventsOf e.symbol) ∈ g.symbolEvents.items :=
    Py.Dict.mem_of_get? (ready.events_of configured)
  have written : ((e.symbol, e.ts), j) ∈ writes := by
    refine List.mem_flatMap.mpr ⟨_, entry, List.mem_map.mpr ⟨(e, j), ?_, rfl⟩⟩
    exact List.mem_zipIdx_iff_getElem?.mpr found
  rcases Py.Dict.get?_foldl_items writes Prod.fst Prod.snd .empty (e.symbol, e.ts) with
    ⟨w, hw, key, value⟩ | ⟨absent, -⟩
  · obtain ⟨p, hp, hw⟩ := List.mem_flatMap.mp hw
    obtain ⟨q, hq, rfl⟩ := List.mem_map.mp hw
    simp only [Prod.mk.injEq] at key
    obtain ⟨symbol, stamp⟩ := key
    have same : p.2 = args.eventsOf e.symbol := by
      have hp' := Py.Dict.get?_of_mem (k := p.1) (v := p.2) hp
      rw [symbol, ready.events_of configured, Option.some.injEq] at hp'
      exact hp'.symm
    refine ⟨q.2, q.1, by rw [flat, value], ?_, stamp⟩
    rw [← same]
    exact List.mem_zipIdx_iff_getElem?.mp hq
  · exact absurd rfl (absent _ written)

/-- **A configured event never makes the loop raise**: its body is `eventStep`. -/
theorem Ready.processEvent_eq (ready : Ready args g) {e : MarketEvent} (member : e ∈ args.ordered)
    (configured : e.symbol ∈ args.symbols) :
    ∃ idx target, g.eventIndex.get? (e.symbol, e.ts) = some idx ∧ targetQty g e = .ok target ∧
      ∀ st, processEvent g st e = .ok (eventStep g e (args.eventsOf e.symbol) idx target st) := by
  obtain ⟨idx, -, index, -⟩ := ready.index_of member configured
  obtain ⟨target, goal⟩ := ready.target e configured
  refine ⟨idx, target, index, goal, fun st => ?_⟩
  exact processEvent_ok.mpr ⟨_, idx, target, ready.events_of configured, index, goal, rfl⟩

theorem BacktestArgs.Configured.ordered (h : args.Configured) {e : MarketEvent}
    (member : e ∈ args.ordered) : e.symbol ∈ args.symbols :=
  h e (mem_sortedByTs.mp member)

/-- The run over configured symbols reaches a state after every prefix of the
events, whatever the targets and draws. -/
theorem Ready.run_total (ready : Ready args g) (configured : args.Configured) {done rest : List MarketEvent}
    (split : args.ordered = done ++ rest) : ∃ st, g.run done = .ok st := by
  have total : ∃ st, done.foldlM (processEvent g) g.start = .ok st ∧ True := by
    refine Run.progress (P := fun _ _ => True) trivial ?_ split
    intro done e rest st split _
    have member : e ∈ args.ordered := by
      rw [split]; exact List.mem_append_right _ List.mem_cons_self
    obtain ⟨idx, target, -, -, step⟩ := ready.processEvent_eq member (configured.ordered member)
    exact ⟨_, step st, trivial⟩
  obtain ⟨st, run, -⟩ := total
  exact ⟨st, run⟩

end Ready

end CryptoQuant.Mvp11
