import CryptoQuant.Backtest.Mvp11.Phases

/-!
# Cash conservation

Every fill is booked once: cash is the initial equity less what the fills spent
and the funding charged, and a position is the sum of the fill quantities of its
symbol. With the last closes as marks this gives every value of the equity curve.
-/

namespace CryptoQuant.Mvp11
set_option autoImplicit false

/-- The fills so far as trades of the cash ledger. -/
def LoopState.trades (st : LoopState) : List (Ledger.Trade String ℚ) := st.fills.map Fill.trade

/-- Cash and positions are what the fills and the funding make them. -/
structure Accounts (symbols : List String) (initialEquity : ℚ) (st : LoopState) : Prop where
  cash : st.cash = initialEquity - Ledger.spent st.trades - st.fundingCost
  position : ∀ s, st.positions.getD s 0 = Ledger.position st.trades s
  listed : ∀ s ∈ symbols, s ∈ st.positions.keys

section Accounts
variable {symbols : List String} {initialEquity : ℚ} {st st' : LoopState}

/-- Accounts speak only of fills, positions, cash and funding. -/
theorem Accounts.of_same (h : Accounts symbols initialEquity st) (fills : st'.fills = st.fills)
    (positions : st'.positions = st.positions) (cash : st'.cash = st.cash)
    (funding : st'.fundingCost = st.fundingCost) : Accounts symbols initialEquity st' := by
  have trades : st'.trades = st.trades := by rw [LoopState.trades, fills]; rfl
  refine ⟨?_, fun s => ?_, fun s member => ?_⟩
  · rw [cash, trades, funding]; exact h.cash
  · rw [positions, trades]; exact h.position s
  · rw [positions]; exact h.listed s member

/-- A booked fill keeps the accounts: the ledger and the locals move by the same
amounts. -/
theorem Accounts.booked (h : Accounts symbols initialEquity st) (fill : Fill)
    (fills : st'.fills = st.fills ++ [fill])
    (positions : st'.positions =
      st.positions.set fill.symbol (st.positions.getD fill.symbol 0 + fill.qty))
    (cash : st'.cash = st.cash - fill.qty * fill.fillPrice - fill.fee)
    (funding : st'.fundingCost = st.fundingCost) : Accounts symbols initialEquity st' := by
  have trades : st'.trades = st.trades ++ [fill.trade] := by
    rw [LoopState.trades, fills, List.map_append]; rfl
  refine ⟨?_, fun s => ?_, fun s member => ?_⟩
  · have paid : Ledger.spent st'.trades = Ledger.spent st.trades + (fill.qty * fill.fillPrice + fill.fee) := by
      rw [trades, Ledger.spent_snoc]; rfl
    rw [cash, funding, paid, h.cash]
    ring
  · rw [trades, Ledger.position_snoc, positions, Py.Dict.getD_set]
    show _ = if fill.symbol = s then _ + fill.qty else _
    by_cases own : s = fill.symbol
    · rw [if_pos own, if_pos own.symm, own, h.position fill.symbol]
    · rw [if_neg own, if_neg (Ne.symm own), h.position s]
  · rw [positions]
    exact Py.Dict.mem_keys_set.mpr (.inr (h.listed s member))

end Accounts

/-- Fills and curve values are only ever appended. -/
structure Grows (st st' : LoopState) : Prop where
  fills : st.fills <+: st'.fills
  curve : st.equityCurve <+: st'.equityCurve

theorem Grows.refl (st : LoopState) : Grows st st := ⟨List.prefix_rfl, List.prefix_rfl⟩

theorem Grows.trans {a b c : LoopState} (h : Grows a b) (k : Grows b c) : Grows a c :=
  ⟨h.fills.trans k.fills, h.curve.trans k.curve⟩

/-- A phase that keeps the accounts and only appends. -/
structure Accounted (symbols : List String) (initialEquity : ℚ) (st st' : LoopState) : Prop where
  accounts : Accounts symbols initialEquity st → Accounts symbols initialEquity st'
  grows : Grows st st'

section Phases
variable {symbols : List String} {initialEquity : ℚ}

theorem Accounted.trans {a b c : LoopState} (h : Accounted symbols initialEquity a b)
    (k : Accounted symbols initialEquity b c) : Accounted symbols initialEquity a c :=
  ⟨fun accounts => k.accounts (h.accounts accounts), h.grows.trans k.grows⟩

/-- A phase that leaves fills, positions, cash, funding and curve alone. -/
theorem Accounted.of_same {st st' : LoopState} (fills : st'.fills = st.fills)
    (positions : st'.positions = st.positions) (cash : st'.cash = st.cash)
    (funding : st'.fundingCost = st.fundingCost) (curve : st'.equityCurve = st.equityCurve) :
    Accounted symbols initialEquity st st' :=
  ⟨fun accounts => accounts.of_same fills positions cash funding,
    ⟨fills ▸ List.prefix_rfl, curve ▸ List.prefix_rfl⟩⟩

/-- A phase that books a fill. -/
theorem Accounted.booked {st st' : LoopState} (fill : Fill) (fills : st'.fills = st.fills ++ [fill])
    (positions : st'.positions =
      st.positions.set fill.symbol (st.positions.getD fill.symbol 0 + fill.qty))
    (cash : st'.cash = st.cash - fill.qty * fill.fillPrice - fill.fee)
    (funding : st'.fundingCost = st.fundingCost) (curve : st'.equityCurve = st.equityCurve) :
    Accounted symbols initialEquity st st' :=
  ⟨fun accounts => accounts.booked fill fills positions cash funding,
    ⟨fills ▸ List.prefix_append _ _, curve ▸ List.prefix_rfl⟩⟩

theorem Matched.accounted {g : Engine} {event : MarketEvent} {idx seqLen : ℕ} {st st' : LoopState}
    {order : PendingOrder} (h : Matched g event idx seqLen st order st') :
    Accounted symbols initialEquity st st' := by
  cases h with
  | nothing => exact .of_same rfl rfl rfl rfl rfl
  | requeued => exact .of_same rfl rfl rfl rfl rfl
  | residual isMaker => exact .booked (maturedFill g.config event order isMaker) rfl rfl rfl rfl rfl
  | done isMaker => exact .booked (maturedFill g.config event order isMaker) rfl rfl rfl rfl rfl

variable (g : Engine) (event : MarketEvent)

theorem processMatured_accounted (idx seqLen : ℕ) (st : LoopState) :
    Accounted symbols initialEquity st (processMatured g event idx seqLen st) := by
  refine Run.foldl_invariant (P := Accounted symbols initialEquity st) ?_ (.of_same rfl rfl rfl rfl rfl)
  intro s order _ h
  exact h.trans (fillMatured_matched g event idx seqLen s order).accounted

theorem updateTarget_accounted (symbolSeq : List MarketEvent) (idx : ℕ) (targetQty : ℚ) (st : LoopState) :
    Accounted symbols initialEquity st (updateTarget g event symbolSeq idx targetQty st) := by
  have frame := updateTarget_frame g event idx symbolSeq targetQty st
  exact .of_same frame.fills frame.positions frame.cash frame.fundingCost frame.equityCurve

/-- Funding leaves cash and enters the funding cost. -/
theorem chargeFunding_accounted (st : LoopState) :
    Accounted symbols initialEquity st (chargeFunding g st) := by
  refine ⟨fun accounts => ⟨?_, accounts.position, accounts.listed⟩, ⟨List.prefix_rfl, List.prefix_rfl⟩⟩
  show st.cash - _ = initialEquity - Ledger.spent st.trades - (st.fundingCost + _)
  rw [accounts.cash]
  ring

/-- Closing a position books a fill of its whole quantity. -/
theorem liquidateSymbol_accounted (st : LoopState) (symbol : String) :
    Accounted symbols initialEquity st (liquidateSymbol g event st symbol) := by
  rcases liquidateSymbol_cases g event st symbol with ⟨-, same⟩ | ⟨-, fill, -, own, qty, closed⟩
  · rw [same]
    exact .of_same rfl rfl rfl rfl rfl
  · have flat : st.positions.getD fill.symbol 0 + fill.qty = 0 := by rw [own, qty, add_neg_cancel]
    rw [closed]
    exact .booked fill rfl (by rw [flat, own]) rfl rfl rfl

theorem checkLiquidation_accounted (st : LoopState) :
    Accounted symbols initialEquity st (checkLiquidation g event st) := by
  unfold checkLiquidation
  split
  · refine Run.foldl_invariant (P := Accounted symbols initialEquity st) ?_ (.of_same rfl rfl rfl rfl rfl)
    intro s symbol _ h
    exact h.trans (liquidateSymbol_accounted g event s symbol)
  · exact .of_same rfl rfl rfl rfl rfl

theorem recordEquity_accounted (st : LoopState) :
    Accounted symbols initialEquity st (recordEquity g event st) := by
  obtain ⟨regime, recorded⟩ := recordEquity_eq g event st
  rw [recorded]
  exact ⟨fun accounts => accounts.of_same rfl rfl rfl rfl, ⟨List.prefix_rfl, List.prefix_append _ _⟩⟩

/-- **The loop body keeps the accounts** and only appends. -/
theorem eventStep_accounted (symbolSeq : List MarketEvent) (idx : ℕ) (targetQty : ℚ) (st : LoopState) :
    Accounted symbols initialEquity st (eventStep g event symbolSeq idx targetQty st) := by
  have marked : Accounted symbols initialEquity st
      { st with lastPrice := st.lastPrice.set event.symbol event.close } := .of_same rfl rfl rfl rfl rfl
  have before : Accounted symbols initialEquity st
      (beforeLiquidation g event symbolSeq idx targetQty st) :=
    ((marked.trans (processMatured_accounted g event idx symbolSeq.length _)).trans
      (updateTarget_accounted g event symbolSeq idx targetQty _)).trans (chargeFunding_accounted g _)
  exact (before.trans (checkLiquidation_accounted g event _)).trans (recordEquity_accounted g event _)

end Phases

/-! ## Marks and curve -/

/-- The last close of a symbol after the events `done`; before its first event
the engine marks it at the close of that event. -/
def BacktestArgs.lastClose (args : BacktestArgs) (done : List MarketEvent) (s : String) : ℚ :=
  match (done.filter fun e => e.symbol = s).getLast? with
  | some e => e.close
  | none => (((args.eventsOf s).head?).map MarketEvent.close).getD 0

theorem BacktestArgs.lastClose_snoc (args : BacktestArgs) (done : List MarketEvent) (e : MarketEvent)
    (s : String) :
    args.lastClose (done ++ [e]) s = if s = e.symbol then e.close else args.lastClose done s := by
  unfold lastClose
  rw [List.filter_append]
  by_cases own : s = e.symbol
  · rw [if_pos own, List.filter_cons_of_pos (by simp [own]), List.filter_nil, List.getLast?_concat]
  · rw [if_neg own, List.filter_cons_of_neg (by simpa using Ne.symm own), List.filter_nil, List.append_nil]

/-- The mark prices and the curve after the events `done`. -/
structure Marked (args : BacktestArgs) (done : List MarketEvent) (st : LoopState) : Prop where
  symbols : st.lastPrice.keys = args.symbols
  price : ∀ s ∈ args.symbols, st.lastPrice.getD s 0 = args.lastClose done s
  length : st.equityCurve.length = done.length

section Marked
variable {args : BacktestArgs} {g : Engine}

theorem Ready.start_marked (ready : Ready args g) : Marked args [] g.start := by
  refine ⟨?_, fun s member => ?_, rfl⟩
  · show (Py.Dict.ofKeys g.symbols _).keys = _
    rw [Py.Dict.keys_ofKeys (ready.symbols ▸ args.nodup_symbols), ready.symbols]
  · show (Py.Dict.ofKeys g.symbols _).getD s 0 = _
    have events : g.symbolEvents.getD s [] = args.eventsOf s := by
      rw [Py.Dict.getD, ready.events_of member, Option.getD_some]
    rw [Py.Dict.getD_ofKeys (ready.symbols ▸ member), events]
    rfl

theorem Ready.start_accounts (ready : Ready args g) :
    Accounts args.symbols args.config.initialEquity g.start := by
  refine ⟨?_, fun s => ?_, fun s member => ?_⟩
  · show g.config.initialEquity = args.config.initialEquity - 0 - 0
    rw [ready.config, sub_zero, sub_zero]
  · show (Py.Dict.ofKeys g.symbols _).getD s 0 = 0
    rw [Py.Dict.getD, Py.Dict.get?_ofKeys]
    split <;> rfl
  · show s ∈ (Py.Dict.ofKeys g.symbols _).keys
    rw [Py.Dict.keys_ofKeys (ready.symbols ▸ args.nodup_symbols), ready.symbols]
    exact member

theorem beforeLiquidation_lastPrice (g : Engine) (event : MarketEvent) (symbolSeq : List MarketEvent)
    (idx : ℕ) (targetQty : ℚ) (st : LoopState) :
    (beforeLiquidation g event symbolSeq idx targetQty st).lastPrice =
      st.lastPrice.set event.symbol event.close := by
  have filled := (processMatured_frame g event idx symbolSeq.length
    { st with lastPrice := st.lastPrice.set event.symbol event.close }).lastPrice
  exact (updateTarget_frame g event idx symbolSeq targetQty _).lastPrice.trans filled

/-- The value of the state at its mark prices is appended to the curve of the
state before. -/
theorem eventStep_curve (g : Engine) (event : MarketEvent) (symbolSeq : List MarketEvent) (idx : ℕ)
    (targetQty : ℚ) (st : LoopState) :
    (eventStep g event symbolSeq idx targetQty st).lastPrice = st.lastPrice.set event.symbol event.close ∧
    (eventStep g event symbolSeq idx targetQty st).equityCurve = st.equityCurve ++
      [equity (eventStep g event symbolSeq idx targetQty st).cash
        (eventStep g event symbolSeq idx targetQty st).positions
        (eventStep g event symbolSeq idx targetQty st).lastPrice] := by
  let before := beforeLiquidation g event symbolSeq idx targetQty st
  have curve : before.equityCurve = st.equityCurve :=
    (updateTarget_frame g event idx symbolSeq targetQty _).equityCurve.trans
      (processMatured_frame g event idx symbolSeq.length _).equityCurve
  have checked : (checkLiquidation g event before).equityCurve = before.equityCurve := by
    unfold checkLiquidation
    split
    · exact (liquidate_frame g event before).equityCurve
    · rfl
  have marks : (checkLiquidation g event before).lastPrice = st.lastPrice.set event.symbol event.close :=
    (checkLiquidation_lastPrice g event before).trans
      (beforeLiquidation_lastPrice g event symbolSeq idx targetQty st)
  obtain ⟨regime, recorded⟩ := recordEquity_eq g event (checkLiquidation g event before)
  have unfolded : eventStep g event symbolSeq idx targetQty st =
    recordEquity g event (checkLiquidation g event before) := rfl
  rw [unfolded, recorded]
  refine ⟨marks, ?_⟩
  show (checkLiquidation g event before).equityCurve ++ _ = _
  rw [checked, curve]

/-- One event moves the mark of its own symbol and adds one curve value. -/
theorem Marked.step (ready : Ready args g) {done : List MarketEvent} {st st' : LoopState}
    (h : Marked args done st) {e : MarketEvent} (step : processEvent g st e = .ok st') :
    Marked args (done ++ [e]) st' := by
  obtain ⟨symbolSeq, idx, target, found, -, -, rfl⟩ := processEvent_ok.mp step
  obtain ⟨prices, curve⟩ := eventStep_curve g e symbolSeq idx target st
  have configured : e.symbol ∈ args.symbols := by
    rw [ready.symbolEvents, Py.Dict.get?_ofKeys] at found
    by_contra missing
    rw [if_neg missing] at found
    cases found
  refine ⟨?_, fun s member => ?_, ?_⟩
  · rw [prices, Py.Dict.keys_set_of_mem (h.symbols ▸ configured), h.symbols]
  · rw [prices, Py.Dict.getD_set, args.lastClose_snoc, h.price s member]
  · rw [curve, List.length_append, List.length_append, h.length]
    rfl

/-- **Run lemma**: accounts and marks hold after every prefix of a run. -/
theorem Ready.accounted (ready : Ready args g) {done : List MarketEvent} {st : LoopState}
    (run : g.run done = .ok st) :
    Accounts args.symbols args.config.initialEquity st ∧ Marked args done st := by
  refine Run.invariant (P := fun done st =>
    Accounts args.symbols args.config.initialEquity st ∧ Marked args done st)
    ⟨ready.start_accounts, ready.start_marked⟩ ?_ (List.append_nil done).symm run
  rintro done e rest t u - ⟨accounts, marked⟩ step
  obtain ⟨symbolSeq, idx, target, -, -, -, after⟩ := processEvent_ok.mp step
  refine ⟨?_, marked.step ready step⟩
  rw [after]
  exact (eventStep_accounted g e symbolSeq idx target t).accounts accounts

/-- What a run has recorded it keeps. -/
theorem run_grows {done rest : List MarketEvent} {st st' : LoopState} (run : g.run done = .ok st)
    (more : g.run (done ++ rest) = .ok st') : Grows st st' := by
  obtain ⟨t, first, last⟩ := Run.foldlM_append_ok.mp more
  have same : t = st := by
    have both := first.symm.trans run
    exact Except.ok.inj both
  subst same
  refine Run.invariant (P := fun _ => Grows t) (.refl t) ?_ (List.append_nil rest).symm last
  intro _ e _ u v _ grown step
  obtain ⟨symbolSeq, idx, target, -, -, -, rfl⟩ := processEvent_ok.mp step
  have event : Accounted [] 0 u (eventStep g e symbolSeq idx target u) :=
    eventStep_accounted g e symbolSeq idx target u
  exact grown.trans event.grows

/-- The value of a state from its fills: initial equity, less what they spent and
the funding charged, plus the positions they make at the last closes. -/
def conservedEquity (args : BacktestArgs) (done : List MarketEvent) (fills : List Fill)
    (fundingCost : ℚ) : ℚ :=
  args.config.initialEquity - (fills.map fun f => f.qty * f.fillPrice + f.fee).sum - fundingCost +
    (args.symbols.map fun s =>
      ((fills.filter fun f => f.symbol = s).map Fill.qty).sum * args.lastClose done s).sum

/-- The quantity the ledger holds of a symbol is the sum over its fills. -/
theorem position_eq_sum (fills : List Fill) (s : String) :
    Ledger.position (fills.map Fill.trade) s = ((fills.filter fun f => f.symbol = s).map Fill.qty).sum := by
  induction fills with
  | nil => rfl
  | cons f rest ih =>
    have head : Ledger.position ((f :: rest).map Fill.trade) s =
        (if f.symbol = s then f.qty else 0) + Ledger.position (rest.map Fill.trade) s := rfl
    rw [head, ih]
    by_cases own : f.symbol = s
    · rw [if_pos own, List.filter_cons_of_pos (by simpa using own), List.map_cons, List.sum_cons]
    · rw [if_neg own, List.filter_cons_of_neg (by simpa using own), zero_add]

/-- Equity at the marks is the conserved value. -/
theorem equity_eq {done : List MarketEvent} {st : LoopState}
    (accounts : Accounts args.symbols args.config.initialEquity st) (marked : Marked args done st) :
    equity st.cash st.positions st.lastPrice = conservedEquity args done st.fills st.fundingCost := by
  have marks : (st.lastPrice.items.map fun p => st.positions.getD p.1 0 * p.2).sum =
      (args.symbols.map fun s =>
        ((st.fills.filter fun f => f.symbol = s).map Fill.qty).sum * args.lastClose done s).sum := by
    rw [st.lastPrice.sum_items (fun s price => st.positions.getD s 0 * price) 0, marked.symbols]
    refine congrArg List.sum (List.map_congr_left fun s member => ?_)
    rw [accounts.position, marked.price s member]
    exact congrArg (· * args.lastClose done s) (position_eq_sum st.fills s)
  have paid : Ledger.spent st.trades = (st.fills.map fun f => f.qty * f.fillPrice + f.fee).sum := by
    rw [Ledger.spent, LoopState.trades, List.map_map]
    rfl
  unfold equity conservedEquity
  rw [marks, accounts.cash, paid]

/-- The curve value of an event in a longer run is the equity right after it. -/
theorem Ready.curve_value (ready : Ready args g) {done rest : List MarketEvent} {e : MarketEvent}
    {st st' : LoopState} (run : g.run (done ++ [e]) = .ok st)
    (more : g.run ((done ++ [e]) ++ rest) = .ok st') :
    st'.equityCurve[done.length]? = some (conservedEquity args (done ++ [e]) st.fills st.fundingCost) := by
  obtain ⟨t, before, step⟩ := Run.foldlM_snoc_ok.mp run
  obtain ⟨symbolSeq, idx, target, -, -, -, after⟩ := processEvent_ok.mp step
  have length : t.equityCurve.length = done.length := (ready.accounted before).2.length
  have appended : st.equityCurve = t.equityCurve ++ [equity st.cash st.positions st.lastPrice] := by
    rw [after]
    exact (eventStep_curve g e symbolSeq idx target t).2
  obtain ⟨accounts, marked⟩ := ready.accounted run
  have here : st.equityCurve[done.length]? = some (equity st.cash st.positions st.lastPrice) := by
    rw [appended, ← length, List.getElem?_concat_length]
  rw [← equity_eq accounts marked, ← here]
  obtain ⟨later, whole⟩ := (run_grows run more).curve
  rw [← whole, List.getElem?_append_left]
  rw [appended, List.length_append, length]
  exact Nat.lt_succ_self _

/-- **Cash conservation.** A run over configured symbols ends, and every value
of its curve is the conserved equity of the state right after its event; the
reported positions, fees and final equity are those of the fills. -/
theorem cash_conservation (admitted : setUp args = .ok g) (configured : args.Configured) :
    ∃ result, runMultiAssetMultiStrategyBacktest args = .ok result ∧
      result.equityCurve.length = args.ordered.length ∧
      (∀ done e rest, args.ordered = done ++ e :: rest → ∃ st, g.run (done ++ [e]) = .ok st ∧
        st.fills <+: result.fills ∧ result.equityCurve[done.length]? =
          some (conservedEquity args (done ++ [e]) st.fills st.fundingCost)) ∧
      (∀ s ∈ args.symbols, result.symbolPositions.get? s =
        some ((result.fills.filter fun f => f.symbol = s).map Fill.qty).sum) ∧
      result.totalFee = (result.fills.map Fill.fee).sum ∧
      result.finalEquity = args.config.initialEquity -
        (result.fills.map fun f => f.qty * f.fillPrice).sum - result.totalFee - result.fundingCost +
        (args.symbols.map fun s =>
          result.symbolPositions.getD s 0 * args.lastClose args.ordered s).sum := by
  have ready := setUp_ready admitted
  obtain ⟨last, run⟩ := ready.run_total configured (List.append_nil args.ordered).symm
  obtain ⟨accounts, marked⟩ := ready.accounted run
  have nonempty : args.ordered ≠ [] := setUp_events admitted
  refine ⟨last.result, ?_, marked.length, ?_, ?_, rfl, ?_⟩
  · exact Run.bind_ok.mpr ⟨g, admitted, Run.bind_ok.mpr ⟨last, run, rfl⟩⟩
  · intro done e rest split
    have whole : args.ordered = (done ++ [e]) ++ rest := by rw [split, List.append_assoc]; rfl
    obtain ⟨st, here⟩ := ready.run_total configured whole
    have more : g.run ((done ++ [e]) ++ rest) = .ok last := whole ▸ run
    exact ⟨st, here, (run_grows here more).fills, ready.curve_value here more⟩
  · intro s member
    obtain ⟨held, found⟩ := Py.Dict.mem_keys_iff.mp (accounts.listed s member)
    have value : last.positions.getD s 0 = held := by rw [Py.Dict.getD, found, Option.getD_some]
    show last.positions.get? s = _
    rw [found, ← value, accounts.position s]
    exact congrArg some (position_eq_sum last.fills s)
  · have split := (List.dropLast_append_getLast nonempty).symm
    have run' := run
    rw [split] at run'
    have more : g.run ((args.ordered.dropLast ++ [args.ordered.getLast nonempty]) ++ []) = .ok last := by
      rw [List.append_nil]
      exact run'
    have value := ready.curve_value run' more
    have final : last.result.finalEquity =
        conservedEquity args args.ordered last.fills last.fundingCost := by
      have length : last.equityCurve.length - 1 = args.ordered.dropLast.length := by
        rw [marked.length, List.length_dropLast]
      show last.equityCurve.getLast?.getD 0 = _
      rw [List.getLast?_eq_getElem?, length, value, ← split, Option.getD_some]
    have paid : (last.fills.map fun f => f.qty * f.fillPrice + f.fee).sum =
        (last.fills.map fun f => f.qty * f.fillPrice).sum + last.result.totalFee :=
      List.sum_map_add
    have held : (args.symbols.map fun s =>
        ((last.fills.filter fun f => f.symbol = s).map Fill.qty).sum * args.lastClose args.ordered s) =
        args.symbols.map fun s =>
          last.result.symbolPositions.getD s 0 * args.lastClose args.ordered s := by
      refine List.map_congr_left fun s _ => ?_
      exact congrArg (· * _) ((position_eq_sum last.fills s).symm.trans (accounts.position s).symm)
    rw [final, conservedEquity, paid, held]
    show _ = args.config.initialEquity - (last.fills.map fun f => f.qty * f.fillPrice).sum -
      last.result.totalFee - last.fundingCost + _
    ring

end Marked

/-- Two closes of one symbol, a long position from the first of them on. -/
def holding : BacktestArgs where
  events := [⟨"BTCUSDT", .m1, 100, 0, "test"⟩, ⟨"BTCUSDT", .m1, 110, 60000000, "test"⟩]
  strategyTargetQtyFns := .ofKeys ["BTCUSDT"] fun _ => .ofKeys ["hold"] fun _ _ => 1
  config := { latencyBars := 1, baseFillRatio := 1 }
  draws := fun _ => 1 / 2

theorem cash_conservation_holding :
    ∃ g, setUp holding = .ok g ∧ holding.Configured ∧
      ∃ result, runMultiAssetMultiStrategyBacktest holding = .ok result ∧
        result.equityCurve.length = 2 ∧ result.totalFee = (result.fills.map Fill.fee).sum := by
  obtain ⟨g, admitted, -⟩ := Run.endsIn_iff.mp
    (show Run.endsIn (setUp holding) (fun _ => true) = true by decide +kernel)
  have configured : holding.Configured := by
    unfold BacktestArgs.Configured
    decide +kernel
  obtain ⟨result, ends, length, -, -, fees, -⟩ := cash_conservation admitted configured
  exact ⟨g, admitted, configured, result, ends, length, fees⟩

end CryptoQuant.Mvp11
