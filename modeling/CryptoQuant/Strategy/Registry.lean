import CryptoQuant.Portfolio.MultiStrategy
import CryptoQuant.Lib.Run

/-!
# The strategy registry

`strategy/registry.py`: identity, lifecycle, versions and feature dependencies of
strategies, and the routes that a market regime is traded by. An operation
answers with a value or an exception and leaves the next registry; what a call
reads of the clock is an argument. The methods of `str` that depend on the
Unicode tables of the interpreter are a parameter.
-/

namespace CryptoQuant.Registry
set_option autoImplicit false

open Portfolio (PyFloat)

/-- `StrategyLifecycle`. -/
inductive StrategyLifecycle
  | draft | active | paused | deprecated | archived
deriving DecidableEq, Repr

/-- The values of `StrategyLifecycle`. -/
def StrategyLifecycle.value : StrategyLifecycle → String
  | .draft => "draft"
  | .active => "active"
  | .paused => "paused"
  | .deprecated => "deprecated"
  | .archived => "archived"

/-- `StrategyVersionStatus`. -/
inductive StrategyVersionStatus
  | draft | active | deprecated
deriving DecidableEq, Repr

/-- `FeatureSpec`. -/
structure FeatureSpec where
  name : String
  schemaVersion : String
  description : String := ""

/-- `FeatureDependency`. -/
structure FeatureDependency where
  featureName : String
  required : Bool := true
  minSchemaVersion : Option String := none
deriving DecidableEq

/-- `StrategyVersion`. -/
structure StrategyVersion where
  version : String
  status : StrategyVersionStatus
  createdAt : DateTime
  changelog : String := ""
  artifactUri : Option String := none
  metadata : Py.Dict String String := .empty

/-- `StrategyRegistration`. -/
structure StrategyRegistration where
  strategyId : String
  name : String
  lifecycle : StrategyLifecycle
  dependencies : List FeatureDependency
  versions : List StrategyVersion
  activeVersion : Option String
  createdAt : DateTime

/-- `RegimeStrategyBinding`. -/
structure RegimeStrategyBinding where
  regime : String
  strategyId : String
  strategyName : String
  version : String
  weight : ℚ
deriving DecidableEq

/-- `_StrategyState`. -/
structure StrategyState where
  strategyId : String
  name : String
  lifecycle : StrategyLifecycle
  createdAt : DateTime
  dependencies : Py.Dict String FeatureDependency := .empty
  versions : Py.Dict String StrategyVersion := .empty
  activeVersion : Option String := none

/-- `_RegimeRouteState`. -/
structure RegimeRouteState where
  weight : ℚ
  version : Option String := none

/-- `StrategyRegistry`. -/
structure StrategyRegistry where
  strategies : Py.Dict String StrategyState := .empty
  features : Py.Dict String FeatureSpec := .empty
  regimeRoutes : Py.Dict String (Py.Dict String RegimeRouteState) := .empty
  idSequence : ℕ := 0

/-- `_LIFECYCLE_TRANSITIONS`. -/
def lifecycleTransitions : StrategyLifecycle → List StrategyLifecycle
  | .draft => [.active, .archived]
  | .active => [.paused, .deprecated]
  | .paused => [.active, .deprecated]
  | .deprecated => [.archived]
  | .archived => []

/-- The methods of `str` and the `int` of a text, as far as they depend on the interpreter. -/
structure StrMethods where
  lower : String → String
  isSpace : Char → Bool
  isDigit : String → Bool
  int : String → Except PyError ℤ

/-- What they are on ASCII texts. -/
def StrMethods.ascii : StrMethods where
  lower := strLower
  isSpace := asciiSpace
  isDigit text := text ≠ "" && text.toList.all Char.isDigit
  int text := .ok (text.toList.foldl (fun n c => 10 * n + (c.toNat - 48 : ℤ)) 0)

/-- `text.split(".")`. -/
def splitDots (text : String) : List String := (text.toList.splitOn '.').map String.ofList

/-! ## Versions of schemas -/

/-- The loop of `_version_lt`, over the parts of both versions padded with `"0"`. -/
def partsLt (py : StrMethods) : List (String × String) → Except PyError Bool
  | [] => .ok false
  | (leftPart, rightPart) :: rest =>
    if leftPart = rightPart then partsLt py rest
    else if py.isDigit leftPart && py.isDigit rightPart then do
      let left ← py.int leftPart
      let right ← py.int rightPart
      pure (decide (left < right))
    else .ok (decide (leftPart < rightPart))

/-- `_version_lt`. -/
def versionLt (py : StrMethods) (left right : String) : Except PyError Bool :=
  let lparts := splitDots left
  let rparts := splitDots right
  let maxLen := max lparts.length rparts.length
  partsLt py ((List.range maxLen).map fun idx => (lparts.getD idx "0", rparts.getD idx "0"))

example : versionLt .ascii "2.1.0" "2.10" = .ok true := by decide +kernel

/-- `_version_sort_key`. -/
def versionSortKey (py : StrMethods) (value : String) : Except PyError (List (ℕ × String)) :=
  (splitDots value).mapM fun part =>
    if py.isDigit part then do
      let number ← py.int part
      pure (0, toString number)
    else .ok (1, part)

/-- The order of tuples: that of their first different items, a proper prefix coming first. -/
def keyLe : List (ℕ × String) → List (ℕ × String) → Bool
  | [], _ => true
  | _ :: _, [] => false
  | p :: ps, q :: qs => if p = q then keyLe ps qs else decide (p.1 < q.1 ∨ p.1 = q.1 ∧ p.2 < q.2)

/-! ## Operations -/

namespace StrategyRegistry

/-- `_get_strategy`. -/
def getStrategy (registry : StrategyRegistry) (strategyId : String) : Except PyError StrategyState :=
  match registry.strategies.get? strategyId with
  | none => .error (.valueError s!"strategy not found: {strategyId}")
  | some state => .ok state

/-- An operation on the state of a strategy. -/
def update (registry : StrategyRegistry) (strategyId : String)
    (change : StrategyState → Except PyError StrategyState) : Except PyError Unit × StrategyRegistry :=
  match registry.getStrategy strategyId >>= change with
  | .error e => (.error e, registry)
  | .ok state => (.ok (), { registry with strategies := registry.strategies.set strategyId state })

/-- `_next_strategy_id`. -/
def nextStrategyId (py : StrMethods) (registry : StrategyRegistry) (name : String) : String × StrategyRegistry :=
  let words := ((py.lower name).toList.splitOnP py.isSpace).filter (· ≠ [])
  let slug := "-".intercalate (words.map String.ofList)
  let registry := { registry with idSequence := registry.idSequence + 1 }
  (s!"strat-{slug}-{zeroPad 4 registry.idSequence}", registry)

/-- `strategy_id or self._next_strategy_id(name)`. -/
def candidateId (py : StrMethods) (registry : StrategyRegistry) (name : String) (strategyId : Option String) :
    String × StrategyRegistry :=
  match strategyId with
  | none => nextStrategyId py registry name
  | some strategyId => if strategyId = "" then nextStrategyId py registry name else (strategyId, registry)

/-- `register_strategy`. -/
def registerStrategy (py : StrMethods) (registry : StrategyRegistry) (name : String) (strategyId : Option String)
    (now : DateTime) : Except PyError String × StrategyRegistry :=
  let (candidateId, registry) := candidateId py registry name strategyId
  if ¬ "strat-".toList <+: candidateId.toList then
    (.error (.valueError "strategy_id must start with 'strat-'"), registry)
  else if candidateId ∈ registry.strategies.keys then
    (.error (.valueError s!"strategy already registered: {candidateId}"), registry)
  else
    let state : StrategyState := { strategyId := candidateId, name, lifecycle := .draft, createdAt := now }
    (.ok candidateId, { registry with strategies := registry.strategies.set candidateId state })

/-- `register_feature`. -/
def registerFeature (registry : StrategyRegistry) (name schemaVersion description : String) :
    FeatureSpec × StrategyRegistry :=
  let spec : FeatureSpec := { name, schemaVersion, description }
  (spec, { registry with features := registry.features.set name spec })

/-- `add_feature_dependency`. -/
def addFeatureDependency (py : StrMethods) (registry : StrategyRegistry) (strategyId featureName : String)
    (required : Bool) (minSchemaVersion : Option String) : Except PyError Unit × StrategyRegistry :=
  registry.update strategyId fun state => do
    match registry.features.get? featureName with
    | none => .error (.valueError s!"feature is not registered: {featureName}")
    | some feature =>
      match minSchemaVersion with
      | none => pure ()
      | some minimum =>
        let lower ← versionLt py feature.schemaVersion minimum
        raiseIf (lower = true) (.valueError
          s!"feature {featureName} schema_version={feature.schemaVersion} does not meet min={minimum}")
      let dep : FeatureDependency := { featureName, required, minSchemaVersion }
      pure { state with dependencies := state.dependencies.set featureName dep }

/-- `set_lifecycle`. -/
def setLifecycle (registry : StrategyRegistry) (strategyId : String) (lifecycle : StrategyLifecycle) :
    Except PyError Unit × StrategyRegistry :=
  registry.update strategyId fun state => do
    let current := state.lifecycle
    if lifecycle = current then pure state
    else
      raiseIf (lifecycle ∉ lifecycleTransitions current) (.valueError
        s!"invalid lifecycle transition: {current.value} -> {lifecycle.value}")
      raiseIf (lifecycle = .active ∧ state.activeVersion = none)
        (.valueError "cannot activate strategy without an active version")
      pure { state with lifecycle }

/-- The loop of `activate_version` over the other active versions. -/
def deprecateOthers (versions : Py.Dict String StrategyVersion) (version : String) : Py.Dict String StrategyVersion :=
  versions.items.foldl
    (fun versions p =>
      if p.2.status = .active ∧ p.1 ≠ version then versions.set p.1 { p.2 with status := .deprecated } else versions)
    versions

/-- `activate_version`. -/
def activateVersion (registry : StrategyRegistry) (strategyId version : String) :
    Except PyError Unit × StrategyRegistry :=
  registry.update strategyId fun state => do
    raiseIf (version ∉ state.versions.keys) (.valueError s!"version not found: {strategyId}@{version}")
    let versions := deprecateOthers state.versions version
    let selected ← getItem versions version
    pure { state with
      versions := versions.set version { selected with status := .active }
      activeVersion := some version }

/-- The write of `add_version`: a record for a version that is not there. -/
def addRecord (strategyId : String) (record : StrategyVersion) (state : StrategyState) : Except PyError StrategyState := do
  raiseIf (record.version ∈ state.versions.keys) (.valueError s!"version already exists: {strategyId}@{record.version}")
  pure { state with versions := state.versions.set record.version record }

/-- `add_version`. -/
def addVersion (registry : StrategyRegistry) (strategyId version changelog : String) (artifactUri : Option String)
    (metadata : Option (Py.Dict String String)) (activate : Bool) (now : DateTime) :
    Except PyError StrategyVersion × StrategyRegistry :=
  let record : StrategyVersion :=
    { version, status := if activate then .active else .draft, createdAt := now, changelog, artifactUri,
      metadata := metadata.getD .empty }
  let (added, registry) := registry.update strategyId (addRecord strategyId record)
  let (done, registry) := match added with
    | .ok () => if activate then registry.activateVersion strategyId version else (.ok (), registry)
    | .error e => (.error e, registry)
  (done >>= fun _ => registry.getStrategy strategyId >>= fun state => getItem state.versions version, registry)

/-- `deprecate_version`. -/
def deprecateVersion (registry : StrategyRegistry) (strategyId version : String) :
    Except PyError Unit × StrategyRegistry :=
  registry.update strategyId fun state =>
    match state.versions.get? version with
    | none => .error (.valueError s!"version not found: {strategyId}@{version}")
    | some record => .ok
      { state with
        versions := state.versions.set version { record with status := .deprecated }
        activeVersion := if state.activeVersion = some version then none else state.activeVersion }

/-! ## Routes -/

/-- The check of a weight: `isfinite(weight)` and `weight > 0.0`. -/
def checkWeight (weight : PyFloat ℚ) : Except PyError ℚ :=
  match weight with
  | .nonFinite => .error (.valueError "weight must be finite and > 0")
  | .finite w => if w ≤ 0 then .error (.valueError "weight must be finite and > 0") else .ok w

/-- `configure_regime_route`. -/
def configureRegimeRoute (py : StrMethods) (registry : StrategyRegistry) (regime strategyId : String)
    (weight : PyFloat ℚ) (version : Option String) : Except PyError Unit × StrategyRegistry :=
  let checked : Except PyError RegimeRouteState := do
    raiseIf (regime.toList.all py.isSpace = true) (.valueError "regime must not be empty")
    let weight ← checkWeight weight
    let state ← registry.getStrategy strategyId
    match version with
    | none => pure ()
    | some version =>
      raiseIf (version ∉ state.versions.keys) (.valueError s!"version not found: {strategyId}@{version}")
    pure { weight, version }
  match checked with
  | .error e => (.error e, registry)
  | .ok route =>
    let routes := registry.regimeRoutes.getD regime .empty
    (.ok (), { registry with regimeRoutes := registry.regimeRoutes.set regime (routes.set strategyId route) })

/-- `clear_regime_route`. -/
def clearRegimeRoute (registry : StrategyRegistry) (regime : String) (strategyId : Option String) :
    StrategyRegistry :=
  match strategyId with
  | none => { registry with regimeRoutes := registry.regimeRoutes.erase regime }
  | some strategyId =>
    match registry.regimeRoutes.get? regime with
    | none => registry
    | some routes =>
      let routes := routes.erase strategyId
      if routes.keys = [] then { registry with regimeRoutes := registry.regimeRoutes.erase regime }
      else { registry with regimeRoutes := registry.regimeRoutes.set regime routes }

/-- `sorted(configured.items())`. -/
def sortedRoutes (configured : Py.Dict String RegimeRouteState) : List (String × RegimeRouteState) :=
  configured.items.insertionSort fun p q => p.1 ≤ q.1

/-- `route.version or state.active_version`. -/
def routedVersion (route : RegimeRouteState) (state : StrategyState) : Option String :=
  match route.version with
  | none => state.activeVersion
  | some version => if version = "" then state.activeVersion else some version

/-- The binding of a route, if the loop of `resolve_regime_bindings` selects it. -/
def selectRoute (regime : String) (onlyActive : Bool) (strategyId : String) (route : RegimeRouteState)
    (state : StrategyState) : Option RegimeStrategyBinding :=
  if onlyActive = true ∧ state.lifecycle ≠ .active then none
  else
    match routedVersion route state with
    | none => none
    | some version =>
      match state.versions.get? version with
      | none => none
      | some record =>
        if onlyActive = true ∧ record.status ≠ .active then none
        else some { regime, strategyId, strategyName := state.name, version, weight := route.weight }

/-- `resolve_regime_bindings`. -/
def resolveRegimeBindings (registry : StrategyRegistry) (regime : String) (onlyActive : Bool) :
    Except PyError (List RegimeStrategyBinding) := do
  let configured := registry.regimeRoutes.getD regime .empty
  if configured.keys = [] then pure []
  else
    let selected ← (sortedRoutes configured).foldlM
      (fun selected p => do
        let state ← registry.getStrategy p.1
        pure (selected ++ (selectRoute regime onlyActive p.1 p.2 state).toList))
      []
    if selected = [] then pure []
    else
      let totalWeight := (selected.map RegimeStrategyBinding.weight).sum
      if totalWeight ≤ 0 then pure []
      else pure (selected.map fun item => { item with weight := item.weight / totalWeight })

/-- `get`. -/
def get (py : StrMethods) (registry : StrategyRegistry) (strategyId : String) : Except PyError StrategyRegistration := do
  let state ← registry.getStrategy strategyId
  let keyed ← state.versions.values.mapM fun record => do
    let key ← versionSortKey py record.version
    pure (key, record)
  pure {
    strategyId := state.strategyId
    name := state.name
    lifecycle := state.lifecycle
    dependencies := state.dependencies.values.insertionSort fun d e => d.featureName ≤ e.featureName
    versions := (keyed.insertionSort fun p q => keyLe p.1 q.1 = true).map Prod.snd
    activeVersion := state.activeVersion
    createdAt := state.createdAt }

/-- `list_strategies`. -/
def listStrategies (py : StrMethods) (registry : StrategyRegistry) : Except PyError (List StrategyRegistration) :=
  (registry.strategies.keys.insertionSort (· ≤ ·)).mapM (registry.get py)

end StrategyRegistry

/-! ## Runs -/

/-- A call of the registry. -/
inductive Call
  | registerStrategy (name : String) (strategyId : Option String) (now : DateTime)
  | registerFeature (name schemaVersion description : String)
  | addFeatureDependency (strategyId featureName : String) (required : Bool) (minSchemaVersion : Option String)
  | setLifecycle (strategyId : String) (lifecycle : StrategyLifecycle)
  | addVersion (strategyId version changelog : String) (artifactUri : Option String)
      (metadata : Option (Py.Dict String String)) (activate : Bool) (now : DateTime)
  | activateVersion (strategyId version : String)
  | deprecateVersion (strategyId version : String)
  | configureRegimeRoute (regime strategyId : String) (weight : PyFloat ℚ) (version : Option String)
  | clearRegimeRoute (regime : String) (strategyId : Option String)
  | resolveRegimeBindings (regime : String) (onlyActive : Bool)
  | get (strategyId : String)
  | listStrategies

/-- What a call returns. -/
inductive Returned
  | nothing
  | strategyId (id : String)
  | feature (spec : FeatureSpec)
  | version (record : StrategyVersion)
  | bindings (list : List RegimeStrategyBinding)
  | registrations (list : List StrategyRegistration)

/-- One call: its result or exception, and the registry after it. -/
def call (py : StrMethods) (registry : StrategyRegistry) : Call → Except PyError Returned × StrategyRegistry
  | .registerStrategy name strategyId now =>
    let (result, registry) := registry.registerStrategy py name strategyId now
    (result.map .strategyId, registry)
  | .registerFeature name schemaVersion description =>
    let (spec, registry) := registry.registerFeature name schemaVersion description
    (.ok (.feature spec), registry)
  | .addFeatureDependency strategyId featureName required minSchemaVersion =>
    let (result, registry) := registry.addFeatureDependency py strategyId featureName required minSchemaVersion
    (result.map fun _ => .nothing, registry)
  | .setLifecycle strategyId lifecycle =>
    let (result, registry) := registry.setLifecycle strategyId lifecycle
    (result.map fun _ => .nothing, registry)
  | .addVersion strategyId version changelog artifactUri metadata activate now =>
    let (result, registry) := registry.addVersion strategyId version changelog artifactUri metadata activate now
    (result.map .version, registry)
  | .activateVersion strategyId version =>
    let (result, registry) := registry.activateVersion strategyId version
    (result.map fun _ => .nothing, registry)
  | .deprecateVersion strategyId version =>
    let (result, registry) := registry.deprecateVersion strategyId version
    (result.map fun _ => .nothing, registry)
  | .configureRegimeRoute regime strategyId weight version =>
    let (result, registry) := registry.configureRegimeRoute py regime strategyId weight version
    (result.map fun _ => .nothing, registry)
  | .clearRegimeRoute regime strategyId => (.ok .nothing, registry.clearRegimeRoute regime strategyId)
  | .resolveRegimeBindings regime onlyActive =>
    ((registry.resolveRegimeBindings regime onlyActive).map .bindings, registry)
  | .get strategyId => ((registry.get py strategyId).map fun registration => .registrations [registration], registry)
  | .listStrategies => ((registry.listStrategies py).map .registrations, registry)

/-- The registry as a component. -/
def machine (py : StrMethods) : Run.Machine StrategyRegistry Call (Except PyError Returned) := ⟨call py⟩

end CryptoQuant.Registry
