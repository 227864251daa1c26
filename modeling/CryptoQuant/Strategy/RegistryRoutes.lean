import CryptoQuant.Strategy.RegistryVersions
import Mathlib.Algebra.BigOperators.Ring.List
import Mathlib.Algebra.Order.BigOperators.Group.List
import Mathlib.Data.String.Basic

/-!
# Regime routing

Routes, lifecycles and versions change independently. What is resolved for a
regime are the routes whose strategy is active in its active version, with their
weights normalised.
-/

namespace CryptoQuant.Registry
set_option autoImplicit false

open StrategyRegistry

/-- The routes configured for a regime. -/
def StrategyRegistry.routesOf (registry : StrategyRegistry) (regime : String) : Py.Dict String RegimeRouteState :=
  registry.regimeRoutes.getD regime .empty

/-- Every route is that of a registered strategy, with a positive weight. -/
def Routed (registry : StrategyRegistry) : Prop :=
  ∀ regime id route, (registry.routesOf regime).get? id = some route →
    0 < route.weight ∧ ∃ state, registry.strategies.get? id = some state

/-- The strategy is active in the version, and the route pins no other one. -/
structure Eligible (registry : StrategyRegistry) (id : String) (route : RegimeRouteState) (name version : String) :
    Prop where
  active : ∃ state, registry.strategies.get? id = some state ∧ state.name = name ∧ state.lifecycle = .active ∧
    state.activeVersion = some version
  pinned : ∀ pin, route.version = some pin → pin ≠ "" → pin = version

section Routes
variable {py : StrMethods} {registry registry' : StrategyRegistry} {c : Call}

/-- Writing a strategy removes none. -/
theorem Routed.of_strategies (h : Routed registry) (regimeRoutes : registry'.regimeRoutes = registry.regimeRoutes)
    (kept : ∀ id state, registry.strategies.get? id = some state → ∃ state', registry'.strategies.get? id = some state') :
    Routed registry' := by
  intro regime id route found
  unfold routesOf at found
  rw [regimeRoutes] at found
  obtain ⟨weight, state, stored⟩ := h regime id route found
  exact ⟨weight, kept id state stored⟩

theorem Wrote.kept {id : String} {state : StrategyState} (wrote : Wrote registry registry' id state) (i : String)
    (old : StrategyState) (found : registry.strategies.get? i = some old) :
    ∃ state', registry'.strategies.get? i = some state' := by
  rw [wrote.strategies]
  split
  · exact ⟨state, rfl⟩
  · exact ⟨old, found⟩

/-- A route that is left after clearing was there before. -/
theorem routesOf_clear {regime r id : String} {strategyId : Option String} {route : RegimeRouteState}
    (found : ((registry.clearRegimeRoute regime strategyId).routesOf r).get? id = some route) :
    (registry.routesOf r).get? id = some route := by
  have erased : ∀ {route}, (({ registry with regimeRoutes := registry.regimeRoutes.erase regime } :
      StrategyRegistry).routesOf r).get? id = some route → (registry.routesOf r).get? id = some route := by
    intro route found
    unfold routesOf Py.Dict.getD at found ⊢
    rw [Py.Dict.get?_erase] at found
    split at found
    · cases found
    · exact found
  unfold clearRegimeRoute at found
  split at found
  · exact erased found
  · split at found
    · exact found
    · rename_i strategyId routes configured
      simp only at found
      split at found
      · exact erased found
      · unfold routesOf at found ⊢
        rw [Py.Dict.getD_set] at found
        split at found
        · rename_i here
          rw [Py.Dict.get?_erase] at found
          split at found
          · cases found
          · rw [here, Py.Dict.getD, configured]
            exact found
        · exact found

/-- **Step lemma.** -/
theorem Routed.step (h : Routed registry) (effect : Effect py registry c registry') : Routed registry' := by
  cases effect with
  | kept c registry' strategies features regimeRoutes =>
    exact h.of_strategies regimeRoutes fun id state found => ⟨state, strategies ▸ found⟩
  | registered c registry' id name now absent wrote => exact h.of_strategies wrote.regimeRoutes wrote.kept
  | changed c registry' id old state' stored change wrote => exact h.of_strategies wrote.regimeRoutes wrote.kept
  | feature name schemaVersion description => exact h
  | routed c regime id state route stored weight =>
    intro r i route' found
    unfold routesOf at found
    simp only [Py.Dict.getD_set] at found
    split at found
    · rw [Py.Dict.get?_set] at found
      split at found
      · rename_i here
        cases found
        exact ⟨weight, state, here ▸ stored⟩
      · exact h regime i route' found
    · exact h r i route' found
  | unrouted regime id =>
    intro r i route found
    rw [(clearRegimeRoute_frame registry regime id).1]
    exact h r i route (routesOf_clear found)

/-- **Run lemma.** -/
theorem routed_after (py : StrMethods) (calls : List Call) : Routed ((machine py).after {} calls) := by
  refine (machine py).always (P := Routed) ?_ (fun registry c h => h.step (call_effect py registry c)) calls
  intro regime id route found
  cases found

end Routes

/-! ## Resolution -/

section Resolve
variable {registry : StrategyRegistry} {regime id : String} {state : StrategyState} {route : RegimeRouteState}
  {binding : RegimeStrategyBinding}

/-- A route leads to the active version unless it pins another one. -/
theorem routedVersion_of_active {version : String} (active : state.activeVersion = some version)
    (pinned : ∀ pin, route.version = some pin → pin ≠ "" → pin = version) : routedVersion route state = some version := by
  unfold routedVersion
  cases given : route.version with
  | none => exact active
  | some pin =>
    by_cases empty : pin = ""
    · simp only [if_pos empty, active]
    · simp only [if_neg empty]
      rw [pinned pin given empty]

theorem eq_of_pinned {version pin : String} (led : routedVersion route state = some version)
    (given : route.version = some pin) (nonempty : pin ≠ "") : pin = version := by
  unfold routedVersion at led
  rw [given] at led
  simp only [if_neg nonempty] at led
  exact Option.some.inj led

/-- **What a route is resolved to.** -/
theorem selectRoute_eq_some (consistent : state.Consistent) :
    selectRoute regime true id route state = some binding ↔
      state.lifecycle = .active ∧ state.activeVersion = some binding.version ∧
        (∀ pin, route.version = some pin → pin ≠ "" → pin = binding.version) ∧
        binding = ⟨regime, id, state.name, binding.version, route.weight⟩ := by
  unfold selectRoute
  by_cases idle : state.lifecycle = .active
  · rw [if_neg fun h => h.2 idle]
    constructor
    · intro selected
      split at selected
      · cases selected
      · rename_i version led
        split at selected
        · cases selected
        · rename_i record stored
          split at selected
          · cases selected
          · rename_i passed
            have status : record.status = .active := by
              by_contra other
              exact passed ⟨rfl, other⟩
            cases selected
            exact ⟨idle, (consistent version).mpr ⟨record, stored, status⟩,
              fun pin given nonempty => eq_of_pinned led given nonempty, rfl⟩
    · rintro ⟨-, active, pinned, shape⟩
      obtain ⟨record, stored, status⟩ := (consistent binding.version).mp active
      rw [routedVersion_of_active active pinned]
      simp only [stored]
      rw [if_neg fun h => h.2 status]
      exact congrArg some shape.symm
  · rw [if_pos ⟨rfl, idle⟩]
    exact iff_of_false (by simp) fun h => idle h.1

end Resolve

instance : Std.Total fun p q : String × RegimeRouteState => p.1 ≤ q.1 := ⟨fun p q => le_total p.1 q.1⟩
instance : IsTrans (String × RegimeRouteState) fun p q => p.1 ≤ q.1 := ⟨fun _ _ _ => le_trans⟩

/-- The routes are read in the order of their strategy ids, each id once. -/
theorem sortedRoutes_pairwise (configured : Py.Dict String RegimeRouteState) :
    (sortedRoutes configured).Pairwise fun p q => p.1 < q.1 := by
  have sorted : (sortedRoutes configured).Pairwise fun p q => p.1 ≤ q.1 := List.pairwise_insertionSort _ _
  have distinct : ((sortedRoutes configured).map Prod.fst).Nodup :=
    ((List.perm_insertionSort _ configured.items).map Prod.fst).nodup_iff.mpr configured.nodup
  exact (sorted.and (List.pairwise_map.mp distinct)).imp fun h => lt_of_le_of_ne h.1 h.2

theorem mem_sortedRoutes {configured : Py.Dict String RegimeRouteState} {id : String} {route : RegimeRouteState} :
    (id, route) ∈ sortedRoutes configured ↔ configured.get? id = some route :=
  (List.mem_insertionSort _).trans ⟨Py.Dict.get?_of_mem, Py.Dict.mem_of_get?⟩

/-- The bindings of the routes whose strategy can run, before their weights are normalised. -/
def selection (registry : StrategyRegistry) (regime : String) : List RegimeStrategyBinding :=
  (sortedRoutes (registry.routesOf regime)).filterMap fun p =>
    (registry.strategies.get? p.1).bind (selectRoute regime true p.1 p.2)

section Selection
variable {registry : StrategyRegistry} {regime : String} {binding : RegimeStrategyBinding}

theorem mem_selection (consistent : Consistent registry) : binding ∈ selection registry regime ↔
    ∃ route, (registry.routesOf regime).get? binding.strategyId = some route ∧
      Eligible registry binding.strategyId route binding.strategyName binding.version ∧ binding.regime = regime ∧
      binding.weight = route.weight := by
  unfold selection
  rw [List.mem_filterMap]
  constructor
  · rintro ⟨⟨id, route⟩, member, selected⟩
    obtain ⟨state, found, selected⟩ := Option.bind_eq_some_iff.mp selected
    obtain ⟨live, active, pinned, shape⟩ := (selectRoute_eq_some (consistent id state found)).mp selected
    rw [shape]
    exact ⟨route, mem_sortedRoutes.mp member, ⟨⟨state, found, rfl, live, active⟩, pinned⟩, rfl, rfl⟩
  · rintro ⟨route, configured, ⟨⟨state, found, named, live, active⟩, pinned⟩, own, weight⟩
    refine ⟨(binding.strategyId, route), mem_sortedRoutes.mpr configured, Option.bind_eq_some_iff.mpr ⟨state, found, ?_⟩⟩
    refine (selectRoute_eq_some (consistent _ state found)).mpr ⟨live, active, pinned, ?_⟩
    rw [named, ← own, ← weight]

theorem selection_pairwise (consistent : Consistent registry) :
    (selection registry regime).Pairwise fun a b => a.strategyId < b.strategyId := by
  have own : ∀ p : String × RegimeRouteState, ∀ b : RegimeStrategyBinding,
      (registry.strategies.get? p.1).bind (selectRoute regime true p.1 p.2) = some b → b.strategyId = p.1 := by
    intro p b selected
    obtain ⟨state, found, selected⟩ := Option.bind_eq_some_iff.mp selected
    obtain ⟨-, -, -, shape⟩ := (selectRoute_eq_some (consistent p.1 state found)).mp selected
    rw [shape]
  refine (sortedRoutes_pairwise _).filterMap _ fun p q less b first b' second => ?_
  rw [own p b first, own q b' second]
  exact less

/-- The loop of `resolve_regime_bindings` raises nothing and selects these. -/
theorem select_loop (routed : Routed registry) {l : List (String × RegimeRouteState)}
    (among : ∀ p ∈ l, (registry.routesOf regime).get? p.1 = some p.2) (selected : List RegimeStrategyBinding) :
    l.foldlM (fun selected p => do
        let state ← registry.getStrategy p.1
        pure (selected ++ (selectRoute regime true p.1 p.2 state).toList)) selected =
      .ok (selected ++ l.filterMap fun p => (registry.strategies.get? p.1).bind (selectRoute regime true p.1 p.2)) := by
  induction l generalizing selected with
  | nil => rw [List.filterMap_nil, List.append_nil]; rfl
  | cons p rest ih =>
    obtain ⟨-, state, found⟩ := routed regime p.1 p.2 (among p List.mem_cons_self)
    refine Run.foldlM_cons_ok.mpr ⟨selected ++ (selectRoute regime true p.1 p.2 state).toList, ?_, ?_⟩
    · exact Run.bind_ok.mpr ⟨state, getStrategy_ok.mpr found, rfl⟩
    · rw [ih (fun q member => among q (List.mem_cons_of_mem _ member)), List.append_assoc, List.filterMap_cons, found,
        Option.bind_some]
      cases selectRoute regime true p.1 p.2 state with
      | none => rfl
      | some binding => rfl

/-- The weights of a non-empty selection have a positive sum. -/
theorem total_pos (consistent : Consistent registry) (routed : Routed registry) (selected : selection registry regime ≠ []) :
    0 < ((selection registry regime).map RegimeStrategyBinding.weight).sum := by
  refine List.sum_pos _ (fun w member => ?_) (by simpa using selected)
  obtain ⟨binding, among, rfl⟩ := List.mem_map.mp member
  obtain ⟨route, configured, -, -, weight⟩ := (mem_selection consistent).mp among
  rw [weight]
  exact (routed regime _ route configured).1

/-- **What is resolved**: the selection, with its weights over their sum. -/
theorem resolveRegimeBindings_eq (consistent : Consistent registry) (routed : Routed registry) (regime : String) :
    registry.resolveRegimeBindings regime true = .ok ((selection registry regime).map fun item =>
      { item with weight := item.weight / ((selection registry regime).map RegimeStrategyBinding.weight).sum }) := by
  unfold resolveRegimeBindings
  simp only
  by_cases unconfigured : (registry.regimeRoutes.getD regime .empty).keys = []
  · have nothing : selection registry regime = [] := by
      have items : (registry.routesOf regime).items = [] := List.map_eq_nil_iff.mp unconfigured
      unfold selection sortedRoutes
      rw [items]
      rfl
    rw [if_pos unconfigured, nothing]
    rfl
  · rw [if_neg unconfigured]
    have loop : (sortedRoutes (registry.routesOf regime)).foldlM (fun selected p => do
        let state ← registry.getStrategy p.1
        pure (selected ++ (selectRoute regime true p.1 p.2 state).toList)) [] = .ok (selection registry regime) :=
      select_loop routed (fun p member => mem_sortedRoutes.mp member) []
    refine Run.bind_ok.mpr ⟨selection registry regime, loop, ?_⟩
    by_cases nothing : selection registry regime = []
    · rw [if_pos nothing, nothing]
      rfl
    · rw [if_neg nothing, if_neg (not_le.mpr (total_pos consistent routed nothing))]
      rfl

end Selection

/-- **Regime routing.** In every registry that calls lead to, what is resolved for
a regime comes in strictly increasing order of strategy ids. Each binding is that
of an eligible route, with a positive weight that is its configured one over a
common total; the weights sum to 1 if there are any; and no eligible route is
left out. -/
theorem resolve_runnable (py : StrMethods) (calls : List Call) (regime : String) :
    ∃ bindings total, ((machine py).after {} calls).resolveRegimeBindings regime true = .ok bindings ∧
      (bindings.Pairwise fun a b => a.strategyId < b.strategyId) ∧
      (∀ binding ∈ bindings, 0 < binding.weight ∧ binding.regime = regime ∧
        ∃ route, (((machine py).after {} calls).routesOf regime).get? binding.strategyId = some route ∧
          binding.weight = route.weight / total ∧
          Eligible ((machine py).after {} calls) binding.strategyId route binding.strategyName binding.version) ∧
      (bindings ≠ [] → (bindings.map RegimeStrategyBinding.weight).sum = 1) ∧
      ∀ id route name version, (((machine py).after {} calls).routesOf regime).get? id = some route →
        Eligible ((machine py).after {} calls) id route name version →
          ∃ binding ∈ bindings, binding.strategyId = id ∧ binding.version = version := by
  have consistent := consistent_after py calls
  have routed := routed_after py calls
  generalize (machine py).after {} calls = registry at consistent routed
  refine ⟨_, ((selection registry regime).map RegimeStrategyBinding.weight).sum,
    resolveRegimeBindings_eq consistent routed regime, ?_, ?_, ?_, ?_⟩
  · exact List.pairwise_map.mpr (selection_pairwise consistent)
  · intro binding member
    obtain ⟨item, among, rfl⟩ := List.mem_map.mp member
    obtain ⟨route, configured, eligible, own, weight⟩ := (mem_selection consistent).mp among
    have positive := total_pos consistent routed (List.ne_nil_of_mem among)
    refine ⟨?_, own, route, configured, ?_, eligible⟩
    · show 0 < item.weight / _
      rw [weight]
      exact div_pos (routed regime _ route configured).1 positive
    · show item.weight / _ = _
      rw [weight]
  · intro some_
    have selected : selection registry regime ≠ [] := by simpa using some_
    rw [List.map_map]
    show ((selection registry regime).map fun item => item.weight / _).sum = 1
    simp only [div_eq_mul_inv]
    rw [List.sum_map_mul_right, mul_inv_cancel₀ (total_pos consistent routed selected).ne']
  · intro id route name version configured eligible
    have member : (⟨regime, id, name, version, route.weight⟩ : RegimeStrategyBinding) ∈ selection registry regime :=
      (mem_selection consistent).mpr ⟨route, configured, eligible, rfl, rfl⟩
    exact ⟨_, List.mem_map_of_mem member, rfl, rfl⟩

end CryptoQuant.Registry
