import CryptoQuant.Strategy.Registry

/-!
# The active version of a strategy

The status of a version is kept in its record and again in `active_version`. No
sequence of calls lets the two disagree. A strategy with the lifecycle `ACTIVE`
can lose its active version, by the deprecation of that version and in no other
way.
-/

namespace CryptoQuant.Registry
set_option autoImplicit false

open StrategyRegistry
open Portfolio (PyFloat)

/-- The version of the strategy is stored with the status. -/
def StrategyState.HasStatus (state : StrategyState) (version : String) (status : StrategyVersionStatus) : Prop :=
  ∃ record, state.versions.get? version = some record ∧ record.status = status

/-- The active versions of the strategy are the one named by `active_version`. -/
def StrategyState.Consistent (state : StrategyState) : Prop :=
  ∀ version, state.activeVersion = some version ↔ state.HasStatus version .active

/-- What a call can do to the state of the strategy `id`. -/
inductive Changed (py : StrMethods) (registry : StrategyRegistry) (c : Call) (id : String) (state : StrategyState) :
    StrategyState → Prop
  | same : Changed py registry c id state state
  | dependency (dep : FeatureDependency) (feature : FeatureSpec)
      (registered : registry.features.get? dep.featureName = some feature)
      (met : ∀ minimum, dep.minSchemaVersion = some minimum → versionLt py feature.schemaVersion minimum = .ok false) :
      Changed py registry c id state { state with dependencies := state.dependencies.set dep.featureName dep }
  | lifecycle (lifecycle : StrategyLifecycle) (runnable : lifecycle = .active → state.activeVersion ≠ none) :
      Changed py registry c id state { state with lifecycle }
  | drafted (version : String) (record : StrategyVersion) (absent : version ∉ state.versions.keys)
      (draft : record.status = .draft) :
      Changed py registry c id state { state with versions := state.versions.set version record }
  | activated (version : String) (versions : Py.Dict String StrategyVersion)
      (consistent : StrategyState.Consistent { state with versions, activeVersion := some version }) :
      Changed py registry c id state { state with versions, activeVersion := some version }
  | deprecated (version : String) (record : StrategyVersion) (found : state.versions.get? version = some record)
      (called : c = .deprecateVersion id version) :
      Changed py registry c id state
        { state with
          versions := state.versions.set version { record with status := .deprecated }
          activeVersion := if state.activeVersion = some version then none else state.activeVersion }

/-- The state of one strategy was written. -/
structure Wrote (registry registry' : StrategyRegistry) (id : String) (state : StrategyState) : Prop where
  strategies : ∀ i, registry'.strategies.get? i = if i = id then some state else registry.strategies.get? i
  features : registry'.features = registry.features
  regimeRoutes : registry'.regimeRoutes = registry.regimeRoutes

/-- What a call can do to the registry. -/
inductive Effect (py : StrMethods) (registry : StrategyRegistry) : Call → StrategyRegistry → Prop
  | kept (c : Call) (registry' : StrategyRegistry) (strategies : registry'.strategies = registry.strategies)
      (features : registry'.features = registry.features) (regimeRoutes : registry'.regimeRoutes = registry.regimeRoutes) :
      Effect py registry c registry'
  | registered (c : Call) (registry' : StrategyRegistry) (id name : String) (now : DateTime)
      (absent : registry.strategies.get? id = none)
      (wrote : Wrote registry registry' id { strategyId := id, name, lifecycle := .draft, createdAt := now }) :
      Effect py registry c registry'
  | changed (c : Call) (registry' : StrategyRegistry) (id : String) (state state' : StrategyState)
      (found : registry.strategies.get? id = some state) (change : Changed py registry c id state state')
      (wrote : Wrote registry registry' id state') : Effect py registry c registry'
  | feature (name schemaVersion description : String) :
      Effect py registry (.registerFeature name schemaVersion description)
        (registry.registerFeature name schemaVersion description).2
  | routed (c : Call) (regime id : String) (state : StrategyState) (route : RegimeRouteState)
      (found : registry.strategies.get? id = some state) (weight : 0 < route.weight) :
      Effect py registry c { registry with
        regimeRoutes := registry.regimeRoutes.set regime ((registry.regimeRoutes.getD regime .empty).set id route) }
  | unrouted (regime : String) (id : Option String) :
      Effect py registry (.clearRegimeRoute regime id) (registry.clearRegimeRoute regime id)

/-! ## One operation on a strategy -/

section Update
variable {py : StrMethods} {registry : StrategyRegistry} {id version : String} {state : StrategyState}

theorem getStrategy_ok : registry.getStrategy id = .ok state ↔ registry.strategies.get? id = some state := by
  unfold getStrategy
  split
  · rename_i missing
    rw [missing]
    constructor <;> intro same <;> cases same
  · rename_i found
    rw [found, Except.ok.injEq, Option.some.injEq]

/-- An operation is refused without a trace, or writes its strategy. -/
theorem update_cases (registry : StrategyRegistry) (id : String) (change : StrategyState → Except PyError StrategyState) :
    (∃ e, registry.update id change = (.error e, registry)) ∨
      ∃ state state', registry.strategies.get? id = some state ∧ change state = .ok state' ∧
        registry.update id change = (.ok (), { registry with strategies := registry.strategies.set id state' }) := by
  unfold update
  cases outcome : registry.getStrategy id >>= change with
  | error e => exact .inl ⟨e, rfl⟩
  | ok state' =>
    obtain ⟨state, found, changed⟩ := Run.bind_ok.mp outcome
    exact .inr ⟨state, state', getStrategy_ok.mp found, changed, rfl⟩

theorem wrote_set (registry : StrategyRegistry) (id : String) (state : StrategyState) :
    Wrote registry { registry with strategies := registry.strategies.set id state } id state :=
  ⟨fun i => Py.Dict.get?_set registry.strategies id i state, rfl, rfl⟩

/-- An operation whose every success is a change of the strategy. -/
theorem update_effect {c : Call} {change : StrategyState → Except PyError StrategyState}
    (changes : ∀ state state', change state = .ok state' → Changed py registry c id state state') :
    Effect py registry c (registry.update id change).2 := by
  rcases update_cases registry id change with ⟨e, refused⟩ | ⟨state, state', found, changed, written⟩
  · rw [refused]
    exact .kept _ _ rfl rfl rfl
  · rw [written]
    exact .changed _ _ id state state' found (changes state state' changed) (wrote_set registry id state')

theorem addFeatureDependency_effect {c : Call} (featureName : String) (required : Bool) (minSchemaVersion : Option String) :
    Effect py registry c (registry.addFeatureDependency py id featureName required minSchemaVersion).2 := by
  refine update_effect fun state state' done => ?_
  cases registered : registry.features.get? featureName with
  | none =>
    rw [registered] at done
    cases done
  | some feature =>
    rw [registered] at done
    cases minSchemaVersion with
    | none =>
      cases done
      exact .dependency { featureName, required } feature registered (fun _ given => nomatch given)
    | some minimum =>
      obtain ⟨lower, compared, done⟩ := Run.bind_ok.mp done
      obtain ⟨_, met, done⟩ := Run.bind_ok.mp done
      cases done
      refine .dependency { featureName, required, minSchemaVersion := some minimum } feature registered ?_
      intro minimum' given
      cases given
      rw [compared, Bool.eq_false_iff.mpr (raiseIf_ok.mp met)]

theorem setLifecycle_effect {c : Call} (lifecycle : StrategyLifecycle) :
    Effect py registry c (registry.setLifecycle id lifecycle).2 := by
  refine update_effect fun state state' done => ?_
  simp only at done
  split at done
  · cases done
    exact .same
  · obtain ⟨_, -, done⟩ := Run.bind_ok.mp done
    obtain ⟨_, guarded, done⟩ := Run.bind_ok.mp done
    cases done
    have open_ := raiseIf_ok.mp guarded
    exact .lifecycle lifecycle fun active none_ => open_ ⟨active, none_⟩

theorem get?_deprecateOthers (versions : Py.Dict String StrategyVersion) (version w : String) :
    (deprecateOthers versions version).get? w = (versions.get? w).map fun record =>
      if record.status = .active ∧ w ≠ version then { record with status := .deprecated } else record :=
  Py.Dict.get?_rewrite versions (fun p => p.2.status = .active ∧ p.1 ≠ version)
    (fun p => { p.2 with status := .deprecated }) w

/-- After an activation the version is the only active one, whatever was before. -/
theorem activated_consistent (versions : Py.Dict String StrategyVersion) (selected : StrategyVersion) :
    StrategyState.Consistent { state with
      versions := (deprecateOthers versions version).set version { selected with status := .active }
      activeVersion := some version } := by
  intro w
  unfold StrategyState.HasStatus
  simp only [Py.Dict.get?_set]
  by_cases here : w = version
  · rw [if_pos here, here]
    simp
  · rw [if_neg here, get?_deprecateOthers]
    refine iff_of_false (fun same => here (Option.some.inj same).symm) ?_
    rintro ⟨record, found, active⟩
    obtain ⟨old, -, rfl⟩ := Option.map_eq_some_iff.mp found
    by_cases demoted : old.status = .active ∧ w ≠ version
    · rw [if_pos demoted] at active
      cases active
    · rw [if_neg demoted] at active
      exact demoted ⟨active, here⟩

theorem update_of_found {change : StrategyState → Except PyError StrategyState} {state' : StrategyState}
    (found : registry.strategies.get? id = some state) (changed : change state = .ok state') :
    registry.update id change = (.ok (), { registry with strategies := registry.strategies.set id state' }) := by
  have done : (registry.getStrategy id >>= change) = .ok state' :=
    Run.bind_ok.mpr ⟨state, getStrategy_ok.mpr found, changed⟩
  unfold update
  rw [done]

theorem activateVersion_effect {c : Call} : Effect py registry c (registry.activateVersion id version).2 := by
  refine update_effect fun state state' done => ?_
  obtain ⟨_, -, done⟩ := Run.bind_ok.mp done
  obtain ⟨selected, -, done⟩ := Run.bind_ok.mp done
  cases done
  exact .activated version _ (activated_consistent state.versions selected)

/-- A stored version is activated. -/
theorem activateVersion_of_mem (found : registry.strategies.get? id = some state) (stored : version ∈ state.versions.keys) :
    ∃ versions, StrategyState.Consistent { state with versions, activeVersion := some version } ∧
      registry.activateVersion id version = (.ok (), { registry with
        strategies := registry.strategies.set id { state with versions, activeVersion := some version } }) := by
  obtain ⟨record, kept⟩ := Py.Dict.mem_keys_iff.mp stored
  obtain ⟨selected, found'⟩ : ∃ selected, (deprecateOthers state.versions version).get? version = some selected := by
    rw [get?_deprecateOthers, kept]
    exact ⟨_, rfl⟩
  refine ⟨_, activated_consistent state.versions selected, update_of_found found ?_⟩
  refine Run.bind_ok.mpr ⟨(), raiseIf_ok.mpr (not_not.mpr stored), ?_⟩
  exact Run.bind_ok.mpr ⟨selected, getItem_of_get? found', rfl⟩

theorem addVersion_effect {c : Call} (changelog : String) (artifactUri : Option String)
    (metadata : Option (Py.Dict String String)) (activate : Bool) (now : DateTime) :
    Effect py registry c (registry.addVersion id version changelog artifactUri metadata activate now).2 := by
  unfold addVersion
  simp only
  generalize fields : StrategyVersion.mk version (if activate then .active else .draft) now changelog artifactUri
    (metadata.getD .empty) = record
  have named : record.version = version := by rw [← fields]
  rcases update_cases registry id (addRecord id record) with ⟨e, refused⟩ | ⟨state, state', found, added, written⟩
  · rw [refused]
    exact .kept _ _ rfl rfl rfl
  · obtain ⟨_, fresh, done⟩ := Run.bind_ok.mp added
    cases done
    rw [written]
    cases activate with
    | false =>
      have draft : record.status = .draft := by rw [← fields]; rfl
      exact .changed _ _ id state _ found (.drafted record.version record (raiseIf_ok.mp fresh) draft) (wrote_set registry id _)
    | true =>
      -- the record is there, so the activation that follows is not refused
      have stored : version ∈ (state.versions.set record.version record).keys :=
        Py.Dict.mem_keys_set.mpr (.inl named.symm)
      have there : (registry.strategies.set id { state with versions := state.versions.set record.version record }).get? id =
          some { state with versions := state.versions.set record.version record } := Py.Dict.get?_set_self _ _ _
      obtain ⟨versions, consistent, activated⟩ := @activateVersion_of_mem
        { registry with
          strategies := registry.strategies.set id { state with versions := state.versions.set record.version record } }
        id version _ there stored
      simp only [if_true]
      rw [activated]
      refine .changed _ _ id state _ found (.activated version versions consistent) ⟨fun i => ?_, rfl, rfl⟩
      show ((registry.strategies.set id _).set id _).get? i = _
      rw [Py.Dict.get?_set, Py.Dict.get?_set]
      split <;> rfl

theorem deprecateVersion_effect : Effect py registry (.deprecateVersion id version) (registry.deprecateVersion id version).2 := by
  refine update_effect fun state state' done => ?_
  cases found : state.versions.get? version with
  | none =>
    rw [found] at done
    cases done
  | some record =>
    rw [found] at done
    cases done
    exact .deprecated version record found rfl

/-- The candidate id is the given one or made up; only the sequence moves. -/
theorem candidateId_eq (py : StrMethods) (registry : StrategyRegistry) (name : String) (strategyId : Option String) :
    ∃ given idSequence, candidateId py registry name strategyId = (given, { registry with idSequence }) := by
  unfold candidateId
  split
  · exact ⟨_, _, rfl⟩
  · split
    · exact ⟨_, _, rfl⟩
    · exact ⟨_, registry.idSequence, rfl⟩

theorem registerStrategy_effect {c : Call} (name : String) (strategyId : Option String) (now : DateTime) :
    Effect py registry c (registry.registerStrategy py name strategyId now).2 := by
  obtain ⟨given, idSequence, candidate⟩ := candidateId_eq py registry name strategyId
  unfold registerStrategy
  rw [candidate]
  simp only
  split
  · exact .kept _ _ rfl rfl rfl
  · split
    · exact .kept _ _ rfl rfl rfl
    · rename_i fresh
      exact .registered _ _ given name now (Py.Dict.get?_eq_none_iff.mpr fresh)
        ⟨fun i => Py.Dict.get?_set registry.strategies given i _, rfl, rfl⟩

theorem configureRegimeRoute_effect {c : Call} (regime : String) (weight : PyFloat ℚ) (version : Option String) :
    Effect py registry c (registry.configureRegimeRoute py regime id weight version).2 := by
  unfold configureRegimeRoute
  simp only
  split
  · exact .kept _ _ rfl rfl rfl
  · rename_i route checked
    obtain ⟨_, -, checked⟩ := Run.bind_ok.mp checked
    obtain ⟨w, weighed, checked⟩ := Run.bind_ok.mp checked
    obtain ⟨state, found, checked⟩ := Run.bind_ok.mp checked
    have positive : 0 < w := by
      unfold checkWeight at weighed
      split at weighed
      · cases weighed
      · split at weighed
        · cases weighed
        · rename_i positive
          cases weighed
          exact not_le.mp positive
    have kept : route.weight = w := by
      cases version with
      | none =>
        cases checked
        rfl
      | some version =>
        obtain ⟨_, -, checked⟩ := Run.bind_ok.mp checked
        cases checked
        rfl
    exact .routed _ regime id state route (getStrategy_ok.mp found) (kept ▸ positive)

end Update

/-- **Inversion of a call.** -/
theorem call_effect (py : StrMethods) (registry : StrategyRegistry) (c : Call) :
    Effect py registry c ((machine py).next registry c) := by
  cases c with
  | registerStrategy name strategyId now => exact registerStrategy_effect name strategyId now
  | registerFeature name schemaVersion description => exact .feature name schemaVersion description
  | addFeatureDependency strategyId featureName required minSchemaVersion =>
    exact addFeatureDependency_effect featureName required minSchemaVersion
  | setLifecycle strategyId lifecycle => exact setLifecycle_effect lifecycle
  | addVersion strategyId version changelog artifactUri metadata activate now =>
    exact addVersion_effect changelog artifactUri metadata activate now
  | activateVersion strategyId version => exact activateVersion_effect
  | deprecateVersion strategyId version => exact deprecateVersion_effect
  | configureRegimeRoute regime strategyId weight version => exact configureRegimeRoute_effect regime weight version
  | clearRegimeRoute regime strategyId => exact .unrouted regime strategyId
  | resolveRegimeBindings regime onlyActive => exact .kept _ _ rfl rfl rfl
  | get strategyId => exact .kept _ _ rfl rfl rfl
  | listStrategies => exact .kept _ _ rfl rfl rfl

/-- Clearing routes touches nothing else. -/
theorem clearRegimeRoute_frame (registry : StrategyRegistry) (regime : String) (strategyId : Option String) :
    (registry.clearRegimeRoute regime strategyId).strategies = registry.strategies ∧
      (registry.clearRegimeRoute regime strategyId).features = registry.features := by
  unfold clearRegimeRoute
  split
  · exact ⟨rfl, rfl⟩
  · split
    · exact ⟨rfl, rfl⟩
    · simp only
      split <;> exact ⟨rfl, rfl⟩

/-- Where the state of a strategy after a call comes from. -/
theorem Effect.stored_cases {py : StrMethods} {registry registry' : StrategyRegistry} {c : Call} {i : String}
    {state : StrategyState} (effect : Effect py registry c registry') (found : registry'.strategies.get? i = some state) :
    registry.strategies.get? i = some state ∨
      (∃ name now, state = { strategyId := i, name, lifecycle := .draft, createdAt := now }) ∨
      ∃ old, registry.strategies.get? i = some old ∧ Changed py registry c i old state := by
  cases effect with
  | kept c registry' strategies features regimeRoutes => exact .inl (strategies ▸ found)
  | registered c registry' id name now absent wrote =>
    rw [wrote.strategies] at found
    split at found
    · rename_i here
      cases found
      exact .inr (.inl ⟨name, now, by rw [here]⟩)
    · exact .inl found
  | changed c registry' id old state' stored change wrote =>
    rw [wrote.strategies] at found
    split at found
    · rename_i here
      cases found
      exact .inr (.inr ⟨old, here ▸ stored, here ▸ change⟩)
    · exact .inl found
  | feature name schemaVersion description => exact .inl found
  | routed c regime id state' route stored weight => exact .inl found
  | unrouted regime id =>
    rw [(clearRegimeRoute_frame registry regime id).1] at found
    exact .inl found

/-! ## The active version over a run -/

/-- Every strategy is consistent. -/
def Consistent (registry : StrategyRegistry) : Prop :=
  ∀ id state, registry.strategies.get? id = some state → state.Consistent

section Invariants
variable {py : StrMethods} {registry registry' : StrategyRegistry} {c : Call} {id : String} {state state' : StrategyState}

theorem Changed.consistent (change : Changed py registry c id state state') (h : state.Consistent) : state'.Consistent := by
  cases change with
  | same => exact h
  | dependency dep feature registered met => exact h
  | lifecycle lifecycle runnable => exact h
  | drafted version record absent draft =>
    intro w
    unfold StrategyState.HasStatus
    rw [h w]
    unfold StrategyState.HasStatus
    simp only [Py.Dict.get?_set]
    by_cases here : w = version
    · rw [if_pos here, here, Py.Dict.get?_eq_none_iff.mpr absent]
      simp [draft]
    · rw [if_neg here]
  | activated version versions consistent => exact consistent
  | deprecated version record found called =>
    intro w
    unfold StrategyState.HasStatus
    simp only [Py.Dict.get?_set]
    by_cases here : w = version
    · rw [if_pos here, here]
      refine iff_of_false (fun same => ?_) (by simp)
      split at same
      · cases same
      · rename_i other
        exact other same
    · rw [if_neg here]
      have before := h w
      unfold StrategyState.HasStatus at before
      split
      · rename_i current
        rw [← before, current]
        exact iff_of_false (by simp) fun same => here (Option.some.inj same).symm
      · exact before

/-- A registered strategy starts without versions. -/
theorem consistent_registered (name : String) (now : DateTime) :
    StrategyState.Consistent { strategyId := id, name, lifecycle := .draft, createdAt := now } := by
  intro w
  refine iff_of_false (by simp) ?_
  rintro ⟨record, found, -⟩
  cases found

/-- **Step lemma.** -/
theorem Consistent.step (h : Consistent registry) (effect : Effect py registry c registry') : Consistent registry' := by
  intro i state found
  rcases effect.stored_cases found with before | ⟨name, now, rfl⟩ | ⟨old, stored, change⟩
  · exact h i state before
  · exact consistent_registered name now
  · exact change.consistent (h i old stored)

/-- **Run lemma.** -/
theorem consistent_after (py : StrMethods) (calls : List Call) : Consistent ((machine py).after {} calls) := by
  refine (machine py).always (P := Consistent) ?_ (fun registry c h => h.step (call_effect py registry c)) calls
  intro id state found
  cases found

end Invariants

/-- For every strategy: its active version is stored as active and no other one
is; without an active version, no version is active. -/
def ActiveUnique (registry : StrategyRegistry) : Prop :=
  ∀ id state, registry.strategies.get? id = some state →
    (∀ version, state.activeVersion = some version → state.HasStatus version .active ∧
      ∀ other, other ≠ version → ¬ state.HasStatus other .active) ∧
    (state.activeVersion = none → ∀ version, ¬ state.HasStatus version .active)

/-- **The active version is unique and consistent**, after any sequence of calls. -/
theorem active_unique (py : StrMethods) (calls : List Call) : ActiveUnique ((machine py).after {} calls) := by
  intro id state found
  have consistent := consistent_after py calls id state found
  refine ⟨fun version active => ⟨(consistent version).mp active, fun other different stored => ?_⟩,
    fun none_ version stored => ?_⟩
  · have same := (consistent other).mpr stored
    rw [active] at same
    exact different (Option.some.inj same).symm
  · have active := (consistent version).mpr stored
    rw [none_] at active
    cases active

/-- A strategy with the lifecycle `ACTIVE` has an active version. -/
def Runnable (registry : StrategyRegistry) : Prop :=
  ∀ id state, registry.strategies.get? id = some state → state.lifecycle = .active → state.activeVersion ≠ none

/-- The call deprecates the active version of a strategy with the lifecycle `ACTIVE`. -/
def Strands (registry : StrategyRegistry) (c : Call) : Prop :=
  ∃ id state version, c = .deprecateVersion id version ∧ registry.strategies.get? id = some state ∧
    state.lifecycle = .active ∧ state.activeVersion = some version

section Runs
variable {py : StrMethods} {registry registry' : StrategyRegistry} {c : Call}

/-- **Step lemma**: no other call takes the active version of an `ACTIVE` strategy away. -/
theorem Runnable.step (h : Runnable registry) (harmless : ¬ Strands registry c) (effect : Effect py registry c registry') :
    Runnable registry' := by
  intro i state found live
  rcases effect.stored_cases found with before | ⟨name, now, rfl⟩ | ⟨old, stored, change⟩
  · exact h i state before live
  · cases live
  · cases change with
    | same => exact h i _ stored live
    | dependency dep feature registered met => exact h i old stored live
    | lifecycle lifecycle runnable => exact runnable live
    | drafted version record absent draft => exact h i old stored live
    | activated version versions consistent => simp
    | deprecated version record kept called =>
      have others : old.activeVersion ≠ some version := fun active =>
        harmless ⟨i, old, version, called, stored, live, active⟩
      rw [if_neg others]
      exact h i old stored live

/-- Such a deprecation leaves an `ACTIVE` strategy with nothing to run. -/
theorem not_runnable_of_strands (py : StrMethods) (consistent : Consistent registry) (strands : Strands registry c) :
    ¬ Runnable ((machine py).next registry c) := by
  obtain ⟨id, state, version, rfl, found, live, active⟩ := strands
  obtain ⟨record, stored, -⟩ := (consistent id state found version).mp active
  have deprecated : registry.deprecateVersion id version = (.ok (), { registry with
      strategies := registry.strategies.set id { state with
        versions := state.versions.set version { record with status := .deprecated }
        activeVersion := none } }) := by
    refine update_of_found found ?_
    simp only [stored, active, if_true]
  intro runnable
  refine runnable id { state with
    versions := state.versions.set version { record with status := .deprecated }
    activeVersion := none } ?_ live rfl
  show (registry.deprecateVersion id version).2.strategies.get? id = _
  rw [deprecated]
  exact Py.Dict.get?_set_self _ _ _

/-- **An active strategy has something to run** after every call of a run,
exactly when no call of the run deprecates the active version of a strategy
with the lifecycle `ACTIVE`. -/
theorem runnable_iff (py : StrMethods) (calls : List Call) :
    (∀ done rest, calls = done ++ rest → Runnable ((machine py).after {} done)) ↔
      ∀ done c rest, calls = done ++ c :: rest → ¬ Strands ((machine py).after {} done) c := by
  have base : Runnable {} := by
    intro id state found
    cases found
  exact (machine py).along_iff base (consistent_after py) (fun registry c h harmless => h.step harmless (call_effect py registry c))
    (fun registry c consistent strands => not_runnable_of_strands py consistent strands) calls

end Runs

/-- A strategy with one version, made active. -/
def launched : List Call :=
  [.registerStrategy "Trend" (some "strat-trend") 0, .addVersion "strat-trend" "1.0.0" "" none none true 0,
    .setLifecycle "strat-trend" .active]

/-- Its version is deprecated, and it stays `ACTIVE` with nothing to run. -/
theorem not_runnable_deprecated :
    ¬ Runnable ((machine .ascii).after {} (launched ++ [.deprecateVersion "strat-trend" "1.0.0"])) := by
  have ends : ((((machine .ascii).after {} (launched ++ [.deprecateVersion "strat-trend" "1.0.0"])).strategies.get?
      "strat-trend").map fun state => (state.lifecycle, state.activeVersion)) = some (.active, none) := by
    decide +kernel
  obtain ⟨state, found, shown⟩ := Option.map_eq_some_iff.mp ends
  obtain ⟨live, stranded⟩ := Prod.mk.injEq _ _ _ _ ▸ shown
  exact fun runnable => runnable "strat-trend" state found live stranded

end CryptoQuant.Registry
