import CryptoQuant.Portfolio.Projection
import CryptoQuant.Portfolio.ReturnHistory
import Mathlib.Data.List.Dedup

/-!
# Weights in their bounds

The weights of the optimizer are the projection of its last step, and those of the
manager even shares or the weights of an optimization. They are in their bounds exactly
when the projected vector settles.
-/

namespace CryptoQuant.Portfolio
set_option autoImplicit false

namespace MultiStrategyPortfolioManager

section Reweighed
variable {K σ : Type}

/-- Booking returns keeps the names, also where it stops at a bad value. -/
theorem keys_appendReturns (items : List (String × PyFloat K)) (returns : Py.Dict String (Py.Deque K)) :
    (appendReturns items returns).2.keys = returns.keys := by
  induction items generalizing returns with
  | nil => rfl
  | cons item rest ih =>
    obtain ⟨name, value⟩ := item
    cases value with
    | nonFinite => rfl
    | finite x =>
      rw [appendReturns]
      cases found : returns.get? name with
      | none => rfl
      | some series =>
        have member : name ∈ returns.keys := Py.Dict.mem_keys_iff.mpr ⟨series, found⟩
        exact (ih _).trans (Py.Dict.keys_set_of_mem member _)

/-- The configuration, the names and the weights are the same. -/
structure SameWeights (m m' : MultiStrategyPortfolioManager K σ) : Prop where
  config : m'.config = m.config
  names : m'.returns.keys = m.returns.keys
  weights : m'.weights = m.weights

theorem updateStrategyReturns_weights (m : MultiStrategyPortfolioManager K σ) (r : Py.Dict String (PyFloat K)) :
    SameWeights m (m.updateStrategyReturns r).2 := by
  unfold updateStrategyReturns
  split
  · exact ⟨rfl, rfl, rfl⟩
  · exact ⟨rfl, keys_appendReturns r.items m.returns, rfl⟩

theorem decisions_weights (m : MultiStrategyPortfolioManager K σ) (bars : List Bar) :
    SameWeights m (m.decisions bars).2 := ⟨rfl, rfl, rfl⟩

variable [Field K] [LinearOrder K]

/-- What a rebalancing optimizes over. -/
def history (m : MultiStrategyPortfolioManager K σ) : Py.Dict String (List K) :=
  m.returns.mapValues fun _ series => series.items

/-- The weights stay, or become those of an optimization over the history. -/
structure Reweighed (sqrt : K → K) (m m' : MultiStrategyPortfolioManager K σ) : Prop where
  config : m'.config = m.config
  names : m'.returns.keys = m.returns.keys
  weights : m'.weights = m.weights ∨ ∃ result,
    optimizeStrategyWeights sqrt m'.history m.config.optimizerConfig = .ok result ∧ m'.weights = result.weights

variable (sqrt : K → K) {m m' m'' : MultiStrategyPortfolioManager K σ}

theorem SameWeights.reweighed (same : SameWeights m m') : Reweighed sqrt m m' :=
  ⟨same.config, same.names, .inl same.weights⟩

variable {sqrt} in
theorem SameWeights.then (same : SameWeights m m') (after : Reweighed sqrt m' m'') : Reweighed sqrt m m'' := by
  obtain ⟨config, names, weights⟩ := same
  obtain ⟨config', names', weights'⟩ := after
  rw [config, weights] at weights'
  exact ⟨config'.trans config, names'.trans names, weights'⟩

theorem maybeRebalanceWeights_reweighed (m : MultiStrategyPortfolioManager K σ) :
    Reweighed sqrt m (m.maybeRebalanceWeights sqrt).2 := by
  unfold maybeRebalanceWeights
  simp only
  split
  · exact ⟨rfl, rfl, .inl rfl⟩
  split
  · exact ⟨rfl, rfl, .inl rfl⟩
  split
  · exact ⟨rfl, rfl, .inl rfl⟩
  split
  · exact ⟨rfl, rfl, .inl rfl⟩
  · rename_i result optimized
    exact ⟨rfl, rfl, .inr ⟨result, optimized, rfl⟩⟩

theorem settleDecision_reweighed (m : MultiStrategyPortfolioManager K σ)
    (strategyDecisions : Py.Dict String (StrategyDecision K)) :
    Reweighed sqrt m (m.settleDecision sqrt strategyDecisions).2 := by
  have rebalanced := maybeRebalanceWeights_reweighed sqrt m
  unfold settleDecision
  generalize m.maybeRebalanceWeights sqrt = result at rebalanced
  rcases result with ⟨_ | _, m'⟩ <;> exact rebalanced

/-- **One call** keeps the weights, or optimizes them. -/
theorem next_reweighed (m : MultiStrategyPortfolioManager K σ) (c : ManagerCall K) :
    Reweighed sqrt m ((machine sqrt).next m c) := by
  cases c with
  | updateStrategyReturns r => exact (updateStrategyReturns_weights m r).reweighed sqrt
  | onBars bars realizedReturns =>
    show Reweighed sqrt m (m.onBars sqrt bars realizedReturns).2
    have asked := decisions_weights m bars
    unfold onBars
    generalize m.decisions bars = result at asked
    rcases result with ⟨_ | strategyDecisions, m'⟩
    · exact asked.reweighed sqrt
    cases realizedReturns with
    | none => exact asked.then (settleDecision_reweighed sqrt m' strategyDecisions)
    | some r =>
      have updated := updateStrategyReturns_weights m' r
      simp only
      generalize m'.updateStrategyReturns r = result at updated
      rcases result with ⟨_ | _, m''⟩
      · exact asked.then (updated.reweighed sqrt)
      · exact asked.then (updated.then (settleDecision_reweighed sqrt m'' strategyDecisions))

end Reweighed

section Run
variable {K σ : Type} [Field K] [LinearOrder K] [IsStrictOrderedRing K]
variable {sqrt : K → K} {strategies : List (Strategy K σ)} {config : MultiStrategyConfig K}
  {m t : MultiStrategyPortfolioManager K σ} {done calls : List (ManagerCall K)} {c : ManagerCall K}

/-- The vector that the last iteration over the histories projects. -/
def stepOver (config : MultiStrategyConfig K) (m : MultiStrategyPortfolioManager K σ) : List K :=
  lastStepped m.history config.optimizerConfig

/-- After these calls the weights are even shares, or come from the histories after
some of them. -/
structure Weighs (sqrt : K → K) (config : MultiStrategyConfig K) (n : ℕ) (m : MultiStrategyPortfolioManager K σ)
    (done : List (ManagerCall K)) (t : MultiStrategyPortfolioManager K σ) : Prop where
  configured : t.config = config
  names : t.returns.keys.length = n
  weights : t.weights.values = List.replicate n (1 / (n : K)) ∨ ∃ before later, done = before ++ later ∧
    (stepOver config ((machine sqrt).after m before)).length = n ∧
    t.weights.values = projectWeights (stepOver config ((machine sqrt).after m before))
      config.optimizerConfig.minWeight config.optimizerConfig.maxWeight

omit [IsStrictOrderedRing K] in
/-- A new manager has even shares for its strategies. -/
theorem new_weighs (built : new strategies config = .ok m) : Weighs sqrt config strategies.length m [] m := by
  unfold new at built
  simp only [Run.bind_ok, raiseIf_ok] at built
  obtain ⟨-, -, -, -, -, -, -, unique, same⟩ := built
  obtain rfl := Except.ok.inj same
  have distinct : (strategies.map Strategy.name).Nodup := by
    rw [not_not] at unique
    exact List.dedup_eq_self.mp ((List.dedup_sublist _).eq_of_length unique)
  have engines : (strategies.foldl (fun engines strategy => engines.set strategy.name strategy) Py.Dict.empty).keys =
      strategies.map Strategy.name := Py.Dict.keys_foldl_items Strategy.name id distinct
  have sorted : (sortedNames (strategies.map Strategy.name)).Perm (strategies.map Strategy.name) :=
    List.perm_insertionSort _ _
  have length : (sortedNames (strategies.map Strategy.name)).length = strategies.length :=
    sorted.length_eq.trans (List.length_map _)
  have sortedDistinct := sorted.nodup_iff.mpr distinct
  refine ⟨rfl, ?_, .inl ?_⟩
  · rw [engines, Py.Dict.keys_ofKeys sortedDistinct, length]
  · rw [engines, Py.Dict.values_ofKeys sortedDistinct, List.length_map, List.map_const', length]

/-- **One call** of a run. -/
theorem Weighs.next {n : ℕ} (weighs : Weighs sqrt config n m done t) (reached : t = (machine sqrt).after m done) :
    Weighs sqrt config n m (done ++ [c]) ((machine sqrt).next t c) := by
  have call := next_reweighed sqrt t c
  obtain ⟨configured, names, weights⟩ := weighs
  have names' : ((machine sqrt).next t c).returns.keys.length = n := (congrArg List.length call.names).trans names
  refine ⟨call.config.trans configured, names', ?_⟩
  rcases call.weights with kept | ⟨result, optimized, made⟩
  · rw [kept]
    refine weights.imp_right ?_
    rintro ⟨before, later, rfl, rest⟩
    exact ⟨before, later ++ [c], List.append_assoc _ _ _, rest⟩
  · have here : (machine sqrt).after m (done ++ [c]) = (machine sqrt).next t c := by rw [Run.Machine.after_snoc, reached]
    rw [configured] at optimized
    refine .inr ⟨done ++ [c], [], (List.append_nil _).symm, ?_, ?_⟩
    · rw [here, stepOver, length_lastStepped, history, Py.Dict.keys_mapValues, names']
    · rw [here, made]
      exact optimizeStrategyWeights_values optimized

variable (sqrt) in
/-- The weights of every run of a new manager. -/
theorem weighs_after (built : new strategies config = .ok m) (calls : List (ManagerCall K)) :
    Weighs sqrt config strategies.length m calls ((machine sqrt).after m calls) := by
  refine (machine sqrt).invariant (P := Weighs sqrt config strategies.length m) (new_weighs built) ?_
    (List.append_nil calls).symm
  exact fun done c rest t _ reached weighs => weighs.next reached

end Run

end MultiStrategyPortfolioManager

/-! ## The bounds -/

section Bounds
variable {K : Type} [Field K] [LinearOrder K] [IsStrictOrderedRing K] {minW maxW : K}

/-- The weights are in the bounds, up to a slack. -/
def InBounds (slack minW maxW : K) (weights : List K) : Prop := ∀ w ∈ weights, minW - slack ≤ w ∧ w ≤ maxW + slack

/-- `1e-9`. -/
def weightTolerance : K := 1 / ((10 ^ 9 : ℕ) : K)

theorem InBounds.mono {slack slack' : K} {weights : List K} (less : slack ≤ slack')
    (bounds : InBounds slack minW maxW weights) : InBounds slack' minW maxW weights := by
  intro w member
  obtain ⟨lower, upper⟩ := bounds w member
  exact ⟨(sub_le_sub_left less minW).trans lower, upper.trans (add_le_add_right less maxW)⟩

/-- Weights made of a vector: their sum is one, and they are in the bounds exactly when
the vector settles. -/
structure Bounded (minW maxW : K) (vector weights : List K) : Prop where
  sum : weights.sum = 1
  inBounds_iff : InBounds 0 minW maxW weights ↔ Settles vector minW maxW
  nearly : Settles vector minW maxW → InBounds weightTolerance minW maxW weights

theorem bounded_projectWeights {vector : List K} (feasible : FeasibleBounds vector.length minW maxW) :
    Bounded minW maxW vector (projectWeights vector minW maxW) := by
  obtain ⟨sum, within_iff⟩ := projected feasible
  have exact_ : InBounds 0 minW maxW (projectWeights vector minW maxW) ↔ Settles vector minW maxW := by
    rw [← within_iff]
    exact forall₂_congr fun w _ => by rw [sub_zero, add_zero]
  have slack : (0 : K) ≤ weightTolerance := div_nonneg zero_le_one (Nat.cast_nonneg _)
  exact ⟨sum, exact_, fun settles => (exact_.mpr settles).mono slack⟩

theorem inBounds_even {n : ℕ} (feasible : FeasibleBounds n minW maxW) :
    (List.replicate n (1 / (n : K))).sum = 1 ∧ InBounds 0 minW maxW (List.replicate n (1 / (n : K))) := by
  have count : (0 : K) < n := pos_of_mul_pos_left (one_pos.trans_le feasible.upper) (feasible.nonneg.trans feasible.ordered)
  refine ⟨?_, fun w member => ?_⟩
  · rw [List.sum_replicate, nsmul_eq_mul, mul_one_div_cancel count.ne']
  · rw [List.eq_of_mem_replicate member, sub_zero, add_zero, le_div_iff₀ count, div_le_iff₀ count, mul_comm, mul_comm maxW]
    exact ⟨feasible.lower, feasible.upper⟩

open MultiStrategyPortfolioManager in
/-- **Optimized weights and their bounds**, for bounds that so many weights can meet: in
the projection, in the result of the optimizer, and in every run of a manager. -/
theorem optimized_weights_bounded (sqrt : K → K) (σ : Type) {n : ℕ} (feasible : FeasibleBounds n minW maxW) :
    (∀ weights : List K, weights.length = n → Bounded minW maxW weights (projectWeights weights minW maxW)) ∧
    (∀ (strategyReturns : Py.Dict String (List K)) (config : OptimizationConfig K) (result : OptimizationResult K),
      config.minWeight = minW → config.maxWeight = maxW → strategyReturns.keys.length = n →
        optimizeStrategyWeights sqrt strategyReturns config = .ok result →
          Bounded minW maxW (lastStepped strategyReturns config) result.weights.values) ∧
    ∀ (strategies : List (Strategy K σ)) (config : MultiStrategyConfig K) (m : MultiStrategyPortfolioManager K σ),
      config.optimizerConfig.minWeight = minW → config.optimizerConfig.maxWeight = maxW → strategies.length = n →
        new strategies config = .ok m → ∀ calls : List (ManagerCall K),
          let weights := ((machine sqrt).after m calls).weights.values
          weights.sum = 1 ∧ InBounds 0 minW maxW weights ∨ ∃ before later, calls = before ++ later ∧
            Bounded minW maxW (stepOver config ((machine sqrt).after m before)) weights := by
  refine ⟨?_, ?_, ?_⟩
  · rintro weights rfl
    exact bounded_projectWeights feasible
  · rintro strategyReturns config result rfl rfl rfl returned
    rw [optimizeStrategyWeights_values returned]
    exact bounded_projectWeights (by rwa [length_lastStepped])
  · rintro strategies config m rfl rfl rfl built calls
    obtain ⟨-, -, even | ⟨before, later, split, length, made⟩⟩ := weighs_after sqrt built calls
    · dsimp only
      rw [even]
      exact .inl (inBounds_even feasible)
    · refine .inr ⟨before, later, split, ?_⟩
      rw [made]
      exact bounded_projectWeights (by rwa [length])

end Bounds

section Examples

instance (weights : List ℚ) (minW maxW : ℚ) : Decidable (Settles weights minW maxW) :=
  inferInstanceAs (Decidable (∀ w ∈ normalized weights minW maxW, _))

instance (slack minW maxW : ℚ) (weights : List ℚ) : Decidable (InBounds slack minW maxW weights) :=
  inferInstanceAs (Decidable (∀ w ∈ weights, _))

/-- The bound `0.5` is passed once. -/
theorem optimized_weights_bounded_half :
    InBounds weightTolerance 0 (1 / 2) (projectWeights [8 / 10, 1 / 10, 1 / 10] (0 : ℚ) (1 / 2)) := by
  have feasible : FeasibleBounds 3 (0 : ℚ) (1 / 2) := ⟨by decide +kernel, by decide +kernel, by decide +kernel, by decide +kernel⟩
  exact ((optimized_weights_bounded id Unit feasible).1 [8 / 10, 1 / 10, 1 / 10] rfl).nearly (by decide +kernel)

/-- Three constant returns, and one iteration with steps of their size. -/
def returns : Py.Dict String (List ℚ) :=
  ((Py.Dict.empty.set "a" [2 / 3, 2 / 3]).set "b" [-7 / 30, -7 / 30]).set "c" [-1 / 3, -1 / 3]

def oneStep : OptimizationConfig ℚ :=
  { OptimizationConfig.default with riskAversion := 0, maxWeight := 35 / 100, learningRate := 1, iterations := 1 }

/-- The bound `0.35` is passed in every pass, and at the end: the optimizer returns a
weight of `0.65`. -/
theorem optimized_weights_unbounded : FeasibleBounds 3 (0 : ℚ) (35 / 100) ∧
    ¬ InBounds weightTolerance 0 (35 / 100) (projectWeights [1, 1 / 10, 0] (0 : ℚ) (35 / 100)) ∧
    ∃ result, optimizeStrategyWeights id returns oneStep = .ok result ∧
      result.weights.get? "a" = some (65 / 100) ∧ ¬ InBounds weightTolerance 0 (35 / 100) result.weights.values := by
  refine ⟨⟨by decide +kernel, by decide +kernel, by decide +kernel, by decide +kernel⟩, by decide +kernel, ?_⟩
  obtain ⟨result, returned, check⟩ := Run.endsIn_iff.mp (show Run.endsIn (optimizeStrategyWeights id returns oneStep)
    (fun result => decide (result.weights.get? "a" = some (65 / 100) ∧
      ¬ InBounds weightTolerance 0 (35 / 100) result.weights.values)) = true by decide +kernel)
  exact ⟨result, returned, of_decide_eq_true check⟩

end Examples

end CryptoQuant.Portfolio
