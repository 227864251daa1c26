import CryptoQuant.Strategy.RegistryVersions

/-!
# Feature dependencies of a strategy

A dependency is checked against the schema version of its feature when it is
added. A feature can be registered again, with any schema version; that is the
only call after which a stored dependency may not be met any more.
-/

namespace CryptoQuant.Registry
set_option autoImplicit false

open StrategyRegistry

/-- The dependency is stored with a strategy, and asks for a schema version. -/
def Requires (registry : StrategyRegistry) (dep : FeatureDependency) (minimum : String) : Prop :=
  ∃ id state key, registry.strategies.get? id = some state ∧ state.dependencies.get? key = some dep ∧
    dep.minSchemaVersion = some minimum

/-- Every stored dependency is met: its feature is registered, with a schema
version that is not lower than the minimum. -/
def Satisfied (py : StrMethods) (registry : StrategyRegistry) : Prop :=
  ∀ dep minimum, Requires registry dep minimum →
    ∃ feature, registry.features.get? dep.featureName = some feature ∧
      versionLt py feature.schemaVersion minimum = .ok false

/-- The call registers a feature with a schema version that a stored dependency
on it does not admit. -/
def Lowers (py : StrMethods) (registry : StrategyRegistry) (c : Call) : Prop :=
  ∃ schemaVersion description dep minimum, c = .registerFeature dep.featureName schemaVersion description ∧
    Requires registry dep minimum ∧ versionLt py schemaVersion minimum ≠ .ok false

section Features
variable {py : StrMethods} {registry registry' : StrategyRegistry} {c : Call} {dep : FeatureDependency} {minimum : String}

/-- What a change of one strategy adds to the requirements. -/
theorem Changed.requires {id : String} {old state : StrategyState} (change : Changed py registry c id old state)
    (stored : registry.strategies.get? id = some old) {key : String} (found : state.dependencies.get? key = some dep)
    (given : dep.minSchemaVersion = some minimum) :
    Requires registry dep minimum ∨ ∃ feature, registry.features.get? dep.featureName = some feature ∧
      versionLt py feature.schemaVersion minimum = .ok false := by
  cases change with
  | same => exact .inl ⟨id, _, key, stored, found, given⟩
  | dependency dep' feature registered met =>
    rw [Py.Dict.get?_set] at found
    split at found
    · cases found
      exact .inr ⟨feature, registered, met minimum given⟩
    · exact .inl ⟨id, old, key, stored, found, given⟩
  | lifecycle lifecycle runnable => exact .inl ⟨id, old, key, stored, found, given⟩
  | drafted version record absent draft => exact .inl ⟨id, old, key, stored, found, given⟩
  | activated version versions consistent => exact .inl ⟨id, old, key, stored, found, given⟩
  | deprecated version record kept called => exact .inl ⟨id, old, key, stored, found, given⟩

/-- **Step lemma**: every other call keeps the dependencies met. -/
theorem Satisfied.step (h : Satisfied py registry) (harmless : ¬ Lowers py registry c)
    (effect : Effect py registry c registry') : Satisfied py registry' := by
  rintro dep minimum ⟨i, state, key, found, named, given⟩
  have met : ∃ feature, registry.features.get? dep.featureName = some feature ∧
      versionLt py feature.schemaVersion minimum = .ok false := by
    rcases effect.stored_cases found with before | ⟨name, now, rfl⟩ | ⟨old, stored, change⟩
    · exact h dep minimum ⟨i, state, key, before, named, given⟩
    · cases named
    · rcases change.requires stored named given with before | met
      · exact h dep minimum before
      · exact met
  cases effect with
  | kept c registry' strategies features regimeRoutes => exact features ▸ met
  | registered c registry' id name now absent wrote => exact wrote.features ▸ met
  | changed c registry' id old state' stored change wrote => exact wrote.features ▸ met
  | feature name schemaVersion description =>
    show ∃ feature, (registry.features.set name _).get? dep.featureName = some feature ∧ _
    rw [Py.Dict.get?_set]
    split
    · rename_i same
      refine ⟨_, rfl, ?_⟩
      by_contra lower
      exact harmless ⟨schemaVersion, description, dep, minimum, by rw [same], ⟨i, state, key, found, named, given⟩, lower⟩
    · exact met
  | routed c regime id state' route stored weight => exact met
  | unrouted regime id => exact (clearRegimeRoute_frame registry regime id).2 ▸ met

/-- Such a registration leaves a dependency that is not met. -/
theorem not_satisfied_of_lowers (lowers : Lowers py registry c) : ¬ Satisfied py ((machine py).next registry c) := by
  obtain ⟨schemaVersion, description, dep, minimum, rfl, requires, lower⟩ := lowers
  intro satisfied
  obtain ⟨feature, found, met⟩ := satisfied dep minimum requires
  have current : (registry.features.set dep.featureName
      { name := dep.featureName, schemaVersion, description }).get? dep.featureName = some feature := found
  rw [Py.Dict.get?_set_self] at current
  cases current
  exact lower met

/-- **Stored dependencies stay satisfied** after every call of a run, exactly
when no call of the run registers a feature with a schema version that a stored
dependency does not admit. -/
theorem satisfied_iff (py : StrMethods) (calls : List Call) :
    (∀ done rest, calls = done ++ rest → Satisfied py ((machine py).after {} done)) ↔
      ∀ done c rest, calls = done ++ c :: rest → ¬ Lowers py ((machine py).after {} done) c := by
  have base : Satisfied py {} := by
    rintro dep minimum ⟨id, state, key, found, -⟩
    cases found
  exact (machine py).along_iff (R := fun _ => True) base (fun _ => trivial)
    (fun registry c h harmless => h.step harmless (call_effect py registry c))
    (fun _ _ _ lowers => not_satisfied_of_lowers lowers) calls

end Features

/-- A strategy that depends on a feature from schema version 2.0.0 on. -/
def dependent : List Call :=
  [.registerFeature "vwap" "2.1.0" "", .registerStrategy "Cross" (some "strat-cross") 0,
    .addFeatureDependency "strat-cross" "vwap" true (some "2.0.0")]

/-- The feature is registered again with schema version 1.0.0. -/
theorem not_satisfied_lowered :
    ¬ Satisfied .ascii ((machine .ascii).after {} (dependent ++ [.registerFeature "vwap" "1.0.0" ""])) := by
  have stored : (((machine .ascii).after {} dependent).strategies.get? "strat-cross").bind
      (fun state => state.dependencies.get? "vwap") = some ⟨"vwap", true, some "2.0.0"⟩ := by
    decide +kernel
  obtain ⟨state, found, named⟩ := Option.bind_eq_some_iff.mp stored
  rw [Run.Machine.after_snoc]
  refine not_satisfied_of_lowers ⟨"1.0.0", "", _, "2.0.0", rfl, ⟨"strat-cross", state, "vwap", found, named, rfl⟩, ?_⟩
  decide +kernel

end CryptoQuant.Registry
