import CryptoQuant.Portfolio.MultiStrategy

/-!
# Return histories

A period of returns is appended to the series strategy by strategy, each value
checked right before it is appended. A period with a bad value is refused, but
what stood before that value has been appended by then: the series stay in step
as long as no period has a good value before its first bad one.
-/

namespace CryptoQuant.Portfolio
set_option autoImplicit false

/-! ## Periods -/

/-- A period of returns, strategy by strategy. -/
abbrev Period (K : Type) := List (String × K)

section Periods
variable {K : Type}

/-- The period of a list of finite returns. -/
def period? : List (String × PyFloat K) → Option (Period K)
  | [] => some []
  | (_, .nonFinite) :: _ => none
  | (name, .finite ret) :: rest => (period? rest).map ((name, ret) :: ·)

theorem period?_eq_some {items : List (String × PyFloat K)} {p : Period K} (h : period? items = some p) :
    items = p.map fun q => (q.1, .finite q.2) := by
  induction items generalizing p with
  | nil =>
    cases h
    rfl
  | cons item rest ih =>
    obtain ⟨name, value⟩ := item
    cases value with
    | nonFinite => cases h
    | finite ret =>
      obtain ⟨later, found, rfl⟩ := Option.map_eq_some_iff.mp h
      rw [List.map_cons, ih found]

theorem period?_eq_none {items : List (String × PyFloat K)} (h : period? items = none) :
    .nonFinite ∈ items.map Prod.snd := by
  induction items with
  | nil => cases h
  | cons item rest ih =>
    obtain ⟨name, value⟩ := item
    cases value with
    | nonFinite => exact List.mem_cons_self
    | finite ret => exact List.mem_cons_of_mem _ (ih (Option.map_eq_none_iff.mp h))

/-- The period that `update_strategy_returns` accepts, for these strategies. -/
def accepted (names : List String) (realizedReturns : Py.Dict String (PyFloat K)) : Option (Period K) :=
  if MultiStrategyPortfolioManager.sameNames realizedReturns.keys names then period? realizedReturns.items else none

/-- The returns are of these strategies, and have a finite value before one that
is not. -/
def SplitsPeriod (names : List String) (realizedReturns : Py.Dict String (PyFloat K)) : Prop :=
  MultiStrategyPortfolioManager.sameNames realizedReturns.keys names = true ∧
    (∃ x, realizedReturns.values.head? = some (.finite x)) ∧ .nonFinite ∈ realizedReturns.values

/-- A series after a period. -/
def extend (p : Period K) (name : String) (series : Py.Deque K) : Py.Deque K :=
  match p.lookup name with
  | some ret => series.append ret
  | none => series

theorem extend_nil (name : String) : extend ([] : Period K) name = id := by
  funext series
  rfl

theorem extend_cons_self (name : String) (ret : K) (rest : Period K) (series : Py.Deque K) :
    extend ((name, ret) :: rest) name series = series.append ret := by
  simp only [extend, Py.Dict.lookup_cons_if, if_true]

theorem extend_cons_ne {name other : String} (ne : other ≠ name) (ret : K) (rest : Period K) :
    extend ((name, ret) :: rest) other = extend rest other := by
  funext series
  simp only [extend, Py.Dict.lookup_cons_if, if_neg ne]

/-- A period without the strategy leaves its series. -/
theorem extend_absent {name : String} {p : Period K} (absent : name ∉ p.map Prod.fst) (series : Py.Deque K) :
    extend p name series = series := by
  induction p with
  | nil => rfl
  | cons item rest ih =>
    rw [List.map_cons, List.mem_cons, not_or] at absent
    rw [extend_cons_ne absent.1, ih absent.2]

end Periods

/-! ## One update -/

/-- A call of a run. -/
inductive ManagerCall (K : Type)
  | updateStrategyReturns (realizedReturns : Py.Dict String (PyFloat K))
  | onBars (bars : List Bar) (realizedReturns : Option (Py.Dict String (PyFloat K)))

namespace MultiStrategyPortfolioManager
variable {K σ : Type}

theorem sameNames_iff {a b : List String} : sameNames a b = true ↔ ∀ name, name ∈ a ↔ name ∈ b := by
  simp only [sameNames, Bool.and_eq_true, List.all_eq_true, List.contains_iff_mem]
  exact ⟨fun h name => ⟨h.1 name, h.2 name⟩, fun h => ⟨fun name => (h name).mp, fun name => (h name).mpr⟩⟩

/-- A finite period reaches every series. -/
theorem appendReturns_finite {p : Period K} (nodup : (p.map Prod.fst).Nodup) {returns : Py.Dict String (Py.Deque K)}
    (known : ∀ name ∈ p.map Prod.fst, name ∈ returns.keys) :
    ∃ returns', appendReturns (p.map fun q => (q.1, .finite q.2)) returns = (.ok (), returns') ∧
      returns'.keys = returns.keys ∧ ∀ name, returns'.get? name = (returns.get? name).map (extend p name) := by
  induction p generalizing returns with
  | nil => exact ⟨returns, rfl, rfl, fun name => by rw [extend_nil, Option.map_id, id]⟩
  | cons item rest ih =>
    obtain ⟨name, ret⟩ := item
    rw [List.map_cons, List.nodup_cons] at nodup
    obtain ⟨series, found⟩ := Py.Dict.mem_keys_iff.mp (known name List.mem_cons_self)
    have keys : (returns.set name (series.append ret)).keys = returns.keys :=
      Py.Dict.keys_set_of_mem (known name List.mem_cons_self) _
    obtain ⟨returns', run, keys', series'⟩ := @ih nodup.2 (returns.set name (series.append ret))
      fun later member => by rw [keys]; exact known later (List.mem_cons_of_mem _ member)
    refine ⟨returns', ?_, keys'.trans keys, fun other => ?_⟩
    · simp only [List.map_cons, appendReturns, found]
      exact run
    · rw [series', Py.Dict.get?_set]
      by_cases own : other = name
      · subst own
        rw [if_pos rfl, found, Option.map_some, Option.map_some, extend_cons_self, extend_absent nodup.1]
      · rw [if_neg own, extend_cons_ne own]

/-- **What an update can do** when it does not split the period: it refuses the
returns and changes nothing, or appends them to every series. -/
theorem updateStrategyReturns_cases (m : MultiStrategyPortfolioManager K σ) {r : Py.Dict String (PyFloat K)}
    (whole : ¬ SplitsPeriod m.returns.keys r) :
    (∃ e, m.updateStrategyReturns r = (.error e, m) ∧ accepted m.returns.keys r = none) ∨
      ∃ p returns, m.updateStrategyReturns r = (.ok (), { m with returns }) ∧ accepted m.returns.keys r = some p ∧
        (∀ name, name ∈ p.map Prod.fst ↔ name ∈ m.returns.keys) ∧ returns.keys = m.returns.keys ∧
        ∀ name, returns.get? name = (m.returns.get? name).map (extend p name) := by
  unfold updateStrategyReturns accepted
  cases names : sameNames r.keys m.returns.keys with
  | false => exact .inl ⟨_, rfl, rfl⟩
  | true =>
    simp only [Bool.true_eq_false, if_false, if_true]
    cases period : period? r.items with
    | some p =>
      have items : r.items = p.map fun q => (q.1, .finite q.2) := period?_eq_some period
      have keys : r.keys = p.map Prod.fst := by
        rw [Py.Dict.keys, items, List.map_map]
        rfl
      have nodup : (p.map Prod.fst).Nodup := keys ▸ r.nodup_keys
      have same (name : String) : name ∈ p.map Prod.fst ↔ name ∈ m.returns.keys := by
        rw [← keys]
        exact sameNames_iff.mp names name
      obtain ⟨returns, run, kept, series⟩ := appendReturns_finite nodup fun name member => (same name).mp member
      refine .inr ⟨p, returns, ?_, rfl, same, kept, series⟩
      rw [items, run]
    | none =>
      refine .inl ?_
      have bad : PyFloat.nonFinite ∈ r.values := period?_eq_none period
      cases items : r.items with
      | nil =>
        rw [Py.Dict.values, items] at bad
        cases bad
      | cons item rest =>
        obtain ⟨name, value⟩ := item
        cases value with
        | nonFinite => exact ⟨_, rfl, rfl⟩
        | finite x => exact absurd ⟨names, ⟨x, by rw [Py.Dict.values, items]; rfl⟩, bad⟩ whole

/-- The returns that a call brings to `update_strategy_returns`: none where a
strategy raises first. -/
def reaching (m : MultiStrategyPortfolioManager K σ) : ManagerCall K → Option (Py.Dict String (PyFloat K))
  | .updateStrategyReturns realizedReturns => some realizedReturns
  | .onBars bars realizedReturns =>
    match (m.decisions bars).1 with
    | .ok _ => realizedReturns
    | .error _ => none

/-- The period that a call books. -/
def booked (m : MultiStrategyPortfolioManager K σ) (c : ManagerCall K) : Option (Period K) :=
  (m.reaching c).bind (accepted m.returns.keys)

/-- Two managers with one configuration and one set of histories. -/
structure SameBooks (m m' : MultiStrategyPortfolioManager K σ) : Prop where
  config : m'.config = m.config
  returns : m'.returns = m.returns

section SameBooks
variable {m m' m'' : MultiStrategyPortfolioManager K σ}

theorem SameBooks.refl : SameBooks m m := ⟨rfl, rfl⟩

theorem SameBooks.trans (first : SameBooks m m') (second : SameBooks m' m'') : SameBooks m m'' :=
  ⟨second.config.trans first.config, second.returns.trans first.returns⟩

/-- Asking the strategies moves their own states only. -/
theorem decisions_same (bars : List Bar) : SameBooks m (m.decisions bars).2 := ⟨rfl, rfl⟩

/-- An update depends on the histories only. -/
theorem SameBooks.update (same : SameBooks m m') (r : Py.Dict String (PyFloat K)) :
    SameBooks (m.updateStrategyReturns r).2 (m'.updateStrategyReturns r).2 := by
  obtain ⟨config, returns⟩ := same
  unfold updateStrategyReturns
  rw [returns]
  split
  · exact ⟨config, returns⟩
  · exact ⟨config, rfl⟩

end SameBooks

end MultiStrategyPortfolioManager

/-! ## Series in step -/

namespace MultiStrategyPortfolioManager
variable {K σ : Type} [Field K]

/-- Every series holds its returns of the last periods, as many as fit: the same
periods for all of them. -/
structure InStep (m : MultiStrategyPortfolioManager K σ) (periods : List (Period K)) : Prop where
  complete : ∀ p ∈ periods, ∀ name, name ∈ p.map Prod.fst ↔ name ∈ m.returns.keys
  capacity : ∀ name series, m.returns.get? name = some series → series.maxlen = capacity m.config
  series : ∀ name series, m.returns.get? name = some series →
    series.items = (periods.map fun p => (p.lookup name).getD 0).rtake (MultiStrategyPortfolioManager.capacity m.config)

section InStep
variable {m m' : MultiStrategyPortfolioManager K σ} {periods : List (Period K)}

/-- Series in step have one length. -/
theorem InStep.same_length (inStep : InStep m periods) {a b : String} {s t : Py.Deque K}
    (first : m.returns.get? a = some s) (second : m.returns.get? b = some t) : s.items.length = t.items.length := by
  rw [inStep.series a s first, inStep.series b t second, Py.Deque.length_rtake, Py.Deque.length_rtake, List.length_map,
    List.length_map]

theorem InStep.of_same (inStep : InStep m periods) (same : SameBooks m m') : InStep m' periods := by
  obtain ⟨config, returns⟩ := same
  obtain ⟨complete, capacity, series⟩ := inStep
  refine ⟨?_, ?_, ?_⟩
  · rwa [returns]
  · rwa [returns, config]
  · rwa [returns, config]

/-- A booked period extends every series. -/
theorem InStep.extended (inStep : InStep m periods) {p : Period K}
    (complete : ∀ name, name ∈ p.map Prod.fst ↔ name ∈ m.returns.keys) (config : m'.config = m.config)
    (names : m'.returns.keys = m.returns.keys)
    (series : ∀ name, m'.returns.get? name = (m.returns.get? name).map (extend p name)) :
    InStep m' (periods ++ [p]) := by
  have extended (name : String) (t : Py.Deque K) (found : m'.returns.get? name = some t) :
      ∃ s, m.returns.get? name = some s ∧ t = s.append ((p.lookup name).getD 0) := by
    rw [series] at found
    obtain ⟨s, held, rfl⟩ := Option.map_eq_some_iff.mp found
    obtain ⟨⟨_, ret⟩, member, rfl⟩ := List.mem_map.mp ((complete name).mpr (Py.Dict.mem_keys_iff.mpr ⟨s, held⟩))
    refine ⟨s, held, ?_⟩
    unfold extend
    cases value : p.lookup _ with
    | some x => rfl
    | none =>
      have isSome := List.lookup_isSome_iff.mpr ⟨_, member, beq_self_eq_true _⟩
      rw [value] at isSome
      cases isSome
  refine ⟨fun q member name => ?_, fun name t found => ?_, fun name t found => ?_⟩
  · rw [names]
    rcases List.mem_append.mp member with earlier | here
    · exact inStep.complete q earlier name
    · rw [List.mem_singleton.mp here]
      exact complete name
  · obtain ⟨s, held, rfl⟩ := extended name t found
    rw [config, Py.Deque.maxlen_append]
    exact inStep.capacity name s held
  · obtain ⟨s, held, rfl⟩ := extended name t found
    have items := inStep.series name s held
    rw [← inStep.capacity name s held] at items
    rw [config, List.map_append, ← inStep.capacity name s held]
    exact Py.Deque.items_append items _

/-- A new manager has empty series. -/
theorem new_inStep {strategies : List (Strategy K σ)} {config : MultiStrategyConfig K}
    (built : new strategies config = .ok m) : InStep m [] := by
  unfold new at built
  obtain ⟨-, -, built⟩ := Run.bind_ok.mp built
  obtain ⟨-, -, built⟩ := Run.bind_ok.mp built
  obtain ⟨-, -, built⟩ := Run.bind_ok.mp built
  obtain ⟨-, -, built⟩ := Run.bind_ok.mp built
  cases built
  have empty (name : String) (series : Py.Deque K)
      (found : (Py.Dict.ofKeys (sortedNames (strategies.foldl (fun engines strategy =>
        engines.set strategy.name strategy) Py.Dict.empty).keys) fun _ => (.empty (capacity config) : Py.Deque K)).get? name =
          some series) : series = .empty (capacity config) := by
    rw [Py.Dict.get?_ofKeys] at found
    split at found
    · exact (Option.some.inj found).symm
    · cases found
  refine ⟨fun _ member => absurd member List.not_mem_nil, fun name series found => ?_, fun name series found => ?_⟩
  · rw [empty name series found]
    rfl
  · rw [empty name series found, List.map_nil, List.rtake_nil]
    rfl

end InStep

end MultiStrategyPortfolioManager

/-! ## Runs -/

namespace MultiStrategyPortfolioManager
variable {K σ : Type} [Field K] [LinearOrder K]

/-- The calls of a run, one after the other. -/
def machine (sqrt : K → K) :
    Run.Machine (MultiStrategyPortfolioManager K σ) (ManagerCall K)
      (Except PyError (Option (MultiStrategyDecision K))) where
  call m
    | .updateStrategyReturns realizedReturns =>
      let (answer, m) := m.updateStrategyReturns realizedReturns
      (answer.map fun _ => none, m)
    | .onBars bars realizedReturns =>
      let (answer, m) := m.onBars sqrt bars realizedReturns
      (answer.map some, m)

section Step
variable {sqrt : K → K} {m : MultiStrategyPortfolioManager K σ}

/-- Rebalancing and deciding read the histories only. -/
theorem settleDecision_same (strategyDecisions : Py.Dict String (StrategyDecision K)) :
    SameBooks m (m.settleDecision sqrt strategyDecisions).2 := by
  have rebalance : SameBooks m (m.maybeRebalanceWeights sqrt).2 := by
    unfold maybeRebalanceWeights
    simp only
    split
    · exact ⟨rfl, rfl⟩
    · split
      · exact ⟨rfl, rfl⟩
      · split
        · exact ⟨rfl, rfl⟩
        · split <;> exact ⟨rfl, rfl⟩
  unfold settleDecision
  generalize m.maybeRebalanceWeights sqrt = result at rebalance
  rcases result with ⟨_ | rebalanced, m'⟩ <;> exact rebalance

/-- A call that comes to no update keeps the histories. -/
theorem next_idle {c : ManagerCall K} (idle : m.reaching c = none) : SameBooks m ((machine sqrt).next m c) := by
  cases c with
  | updateStrategyReturns r => cases idle
  | onBars bars realizedReturns =>
    show SameBooks m (m.onBars sqrt bars realizedReturns).2
    have asked : SameBooks m (m.decisions bars).2 := decisions_same bars
    unfold reaching at idle
    unfold onBars
    rcases answers : m.decisions bars with ⟨e | strategyDecisions, m'⟩
    · rw [answers] at asked
      exact asked
    · rw [answers] at asked
      simp only [answers] at idle
      subst idle
      exact asked.trans (settleDecision_same strategyDecisions)

/-- **The histories after a call** are those after the update it comes to. -/
theorem next_update {c : ManagerCall K} {r : Py.Dict String (PyFloat K)} (reaches : m.reaching c = some r) :
    SameBooks (m.updateStrategyReturns r).2 ((machine sqrt).next m c) := by
  cases c with
  | updateStrategyReturns r' =>
    cases reaches
    exact .refl
  | onBars bars realizedReturns =>
    show SameBooks _ (m.onBars sqrt bars realizedReturns).2
    have asked : SameBooks m (m.decisions bars).2 := decisions_same bars
    unfold reaching at reaches
    unfold onBars
    rcases answers : m.decisions bars with ⟨e | strategyDecisions, m'⟩
    · simp only [answers] at reaches
      cases reaches
    · rw [answers] at asked
      simp only [answers] at reaches
      subst reaches
      have updated := asked.update r
      simp only
      generalize m'.updateStrategyReturns r = result at updated
      rcases result with ⟨_ | _, m''⟩
      · exact updated
      · exact updated.trans (settleDecision_same strategyDecisions)

end Step

section Run
variable {sqrt : K → K} {m t : MultiStrategyPortfolioManager K σ} {strategies : List (Strategy K σ)}
  {config : MultiStrategyConfig K} {done : List (ManagerCall K)} {c : ManagerCall K}

/-- The periods that a run books. -/
def periodsOf (sqrt : K → K) (m : MultiStrategyPortfolioManager K σ) : List (ManagerCall K) → List (Period K)
  | [] => []
  | c :: rest => (m.booked c).toList ++ periodsOf sqrt ((machine sqrt).next m c) rest

theorem periodsOf_snoc :
    periodsOf sqrt m (done ++ [c]) = periodsOf sqrt m done ++ (((machine sqrt).after m done).booked c).toList := by
  induction done generalizing m with
  | nil =>
    rw [List.nil_append, periodsOf, periodsOf, periodsOf, List.append_nil, List.nil_append]
    rfl
  | cons d done ih => rw [List.cons_append, periodsOf, periodsOf, ih, List.append_assoc, Run.Machine.after_cons]

/-- A call that splits no period keeps the series in step. -/
theorem InStep.next {periods : List (Period K)} (inStep : InStep t periods)
    (whole : ∀ r, t.reaching c = some r → ¬ SplitsPeriod t.returns.keys r) :
    InStep ((machine sqrt).next t c) (periods ++ (t.booked c).toList) := by
  unfold booked
  cases reaches : t.reaching c with
  | none =>
    rw [Option.bind_none, Option.toList_none, List.append_nil]
    exact inStep.of_same (next_idle reaches)
  | some r =>
    have same := @next_update K σ _ _ sqrt t c r reaches
    rw [Option.bind_some]
    rcases t.updateStrategyReturns_cases (whole r reaches) with
      ⟨e, refused, none⟩ | ⟨p, series, booked, some, complete, names, extended⟩
    · rw [refused] at same
      rw [none, Option.toList_none, List.append_nil]
      exact inStep.of_same same
    · rw [booked] at same
      rw [some, Option.toList_some]
      have inStep' : InStep { t with returns := series } (periods ++ [p]) := inStep.extended complete rfl names extended
      exact inStep'.of_same same

/-- No call of the run brings an update that splits a period. -/
def Whole (sqrt : K → K) (m : MultiStrategyPortfolioManager K σ) (calls : List (ManagerCall K)) : Prop :=
  ∀ done c rest, calls = done ++ c :: rest → ∀ r, ((machine sqrt).after m done).reaching c = some r →
    ¬ SplitsPeriod ((machine sqrt).after m done).returns.keys r

theorem inStep_after (built : new strategies config = .ok m) {calls rest : List (ManagerCall K)}
    (whole : m.Whole sqrt calls) (split : calls = done ++ rest) :
    InStep ((machine sqrt).after m done) (periodsOf sqrt m done) := by
  refine (machine sqrt).invariant (P := fun done t => InStep t (periodsOf sqrt m done)) (new_inStep built) ?_ split
  rintro done c rest t cut rfl inStep
  rw [periodsOf_snoc]
  exact inStep.next (whole done c rest cut)

/-- The histories are aligned: in every state of the run all series have one
length and hold the returns of the same periods, and an update that raises leaves
every series. -/
structure Aligned (sqrt : K → K) (m : MultiStrategyPortfolioManager K σ) (calls : List (ManagerCall K)) : Prop where
  length : ∀ done rest, calls = done ++ rest → ∀ a b s t,
    ((machine sqrt).after m done).returns.get? a = some s → ((machine sqrt).after m done).returns.get? b = some t →
      s.items.length = t.items.length
  periods : ∀ done rest, calls = done ++ rest → InStep ((machine sqrt).after m done) (periodsOf sqrt m done)
  refused : ∀ done r rest, calls = done ++ .updateStrategyReturns r :: rest → ∀ e,
    (machine sqrt).answer ((machine sqrt).after m done) (.updateStrategyReturns r) = .error e →
      ((machine sqrt).after m (done ++ [.updateStrategyReturns r])).returns = ((machine sqrt).after m done).returns

/-- **Return histories stay aligned** in every run of a new manager in which no
update splits a period. -/
theorem histories_aligned (sqrt : K → K) (built : new strategies config = .ok m) (calls : List (ManagerCall K))
    (whole : m.Whole sqrt calls) : Aligned sqrt m calls := by
  refine ⟨fun done rest split a b s t first second => ?_, fun done rest split => ?_, fun done r rest split e raised => ?_⟩
  · exact (inStep_after built whole split).same_length first second
  · exact inStep_after built whole split
  · have whole' := whole done _ rest split r rfl
    rw [Run.Machine.after_snoc]
    generalize (machine sqrt).after m done = t at whole' raised ⊢
    show (t.updateStrategyReturns r).2.returns = t.returns
    have raised : (t.updateStrategyReturns r).1.map (fun _ => (none : Option (MultiStrategyDecision K))) = .error e := raised
    rcases t.updateStrategyReturns_cases whole' with ⟨e, refused, -⟩ | ⟨p, series, booked, -⟩
    · rw [refused]
    · rw [booked] at raised
      cases raised

end Run

/-- Two strategies that never trade. -/
def pair : List (Strategy ℚ Unit) := [⟨"a", fun _ _ => (.ok 0, ()), ()⟩, ⟨"b", fun _ _ => (.ok 0, ()), ()⟩]

def defaults : MultiStrategyConfig ℚ := { optimizerConfig := .default }

/-- The returns of one period. -/
def period (a b : PyFloat ℚ) : Py.Dict String (PyFloat ℚ) := (Py.Dict.empty.set "a" a).set "b" b

/-- A good period, and one whose first value is bad. -/
theorem histories_aligned_refused : ∃ m, new pair defaults = .ok m ∧
    Aligned id m [.updateStrategyReturns (period (.finite (1 / 100)) (.finite 0)),
      .updateStrategyReturns (period .nonFinite (.finite 0))] := by
  obtain ⟨m, built, -⟩ := Run.endsIn_iff.mp (show Run.endsIn (new pair defaults) (fun _ => true) = true by decide +kernel)
  refine ⟨m, built, histories_aligned id built _ fun done c rest split r reaches => ?_⟩
  have member : c ∈ done ++ c :: rest := List.mem_append_right _ List.mem_cons_self
  rw [← split] at member
  rintro ⟨-, ⟨x, head⟩, bad⟩
  rcases List.mem_pair.mp member with rfl | rfl
  · cases reaches
    exact absurd bad (by decide +kernel)
  · cases reaches
    have first : (period .nonFinite (.finite 0)).values.head? = some .nonFinite := by decide +kernel
    rw [first] at head
    cases head

/-- The second value of a period is bad: the first one has been appended by then. -/
theorem histories_misaligned_split : ∃ m, new pair defaults = .ok m ∧
    ¬ Aligned id m [.updateStrategyReturns (period (.finite (1 / 100)) .nonFinite)] := by
  obtain ⟨m, built, check⟩ := Run.endsIn_iff.mp (show Run.endsIn (new pair defaults) (fun m => decide (
    ((m.updateStrategyReturns (period (.finite (1 / 100)) .nonFinite)).2.returns.get? "a").map (·.items.length) = some 1 ∧
    ((m.updateStrategyReturns (period (.finite (1 / 100)) .nonFinite)).2.returns.get? "b").map (·.items.length) =
      some 0)) = true by decide +kernel)
  refine ⟨m, built, fun aligned => ?_⟩
  obtain ⟨longer, shorter⟩ := of_decide_eq_true check
  obtain ⟨s, first, one⟩ := Option.map_eq_some_iff.mp longer
  obtain ⟨t, second, zero⟩ := Option.map_eq_some_iff.mp shorter
  have same := aligned.length _ [] (List.append_nil _).symm "a" "b" s t first second
  omega

end MultiStrategyPortfolioManager

end CryptoQuant.Portfolio
