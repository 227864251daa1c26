import CryptoQuant.Events.Market
import CryptoQuant.Lib.Deque
import CryptoQuant.Lib.Run
import CryptoQuant.Portfolio.Optimizer

/-!
# The multi-strategy portfolio manager

`portfolio/multi_strategy.py`: several strategies on the same bars, their targets
weighted by an optimizer that reads a bounded history of each one's returns.
-/

namespace CryptoQuant.Portfolio
set_option autoImplicit false

/-- A float: a number, or one of the values that `isfinite` refuses. -/
inductive PyFloat (K : Type)
  | finite (x : K)
  | nonFinite
deriving DecidableEq

section Types
variable (K σ : Type)

/-- `StrategyDecision`. -/
structure StrategyDecision where
  targetQty : K
  signal : String

/-- `Strategy`, over a state of its own: a target for the bars, or an exception. -/
structure Strategy where
  name : String
  targetQty : σ → List Bar → Except PyError K × σ
  state : σ

/-- `MultiStrategyConfig`. -/
structure MultiStrategyConfig where
  minHistory : ℤ := 20
  rebalanceInterval : ℤ := 10
  optimizerConfig : OptimizationConfig K

/-- `MultiStrategyDecision`. -/
structure MultiStrategyDecision where
  targetQty : K
  signal : String
  strategyDecisions : Py.Dict String (StrategyDecision K)
  weights : Py.Dict String K
  rebalanced : Bool
  diversificationScore : K

/-- `MultiStrategyPortfolioManager`. -/
structure MultiStrategyPortfolioManager where
  config : MultiStrategyConfig K
  engines : Py.Dict String (Strategy K σ)
  returns : Py.Dict String (Py.Deque K)
  weights : Py.Dict String K
  stepsSinceRebalance : ℤ := 0
  lastOptimization : Option (OptimizationResult K) := none

end Types

/-- `StrategyEngine.on_bars`. -/
def Strategy.onBars {K σ : Type} (strategy : Strategy K σ) (bars : List Bar) :
    Except PyError (StrategyDecision K) × Strategy K σ :=
  match strategy.targetQty strategy.state bars with
  | (.error e, state) => (.error e, { strategy with state })
  | (.ok qty, state) => (.ok ⟨qty, strategy.name⟩, { strategy with state })

namespace MultiStrategyPortfolioManager
variable {K σ : Type} [Field K] [LinearOrder K]

/-- `maxlen` of the series. -/
def capacity (config : MultiStrategyConfig K) : ℕ := (max 2000 (config.minHistory * 5)).toNat

/-- `MultiStrategyPortfolioManager(strategies, config=config)`. -/
def new (strategies : List (Strategy K σ)) (config : MultiStrategyConfig K) :
    Except PyError (MultiStrategyPortfolioManager K σ) := do
  raiseIf (strategies.length < 2) (.valueError "at least two strategies are required")
  raiseIf (config.minHistory < 2) (.valueError "min_history must be >= 2")
  raiseIf (config.rebalanceInterval ≤ 0) (.valueError "rebalance_interval must be > 0")
  let names := strategies.map Strategy.name
  raiseIf (names.dedup.length ≠ names.length) (.valueError "strategy names must be unique")
  let engines := strategies.foldl (fun engines strategy => engines.set strategy.name strategy) Py.Dict.empty
  let sorted := sortedNames engines.keys
  return { config, engines
           returns := .ofKeys sorted fun _ => .empty (capacity config)
           weights := .ofKeys sorted fun _ => 1 / (engines.keys.length : K) }

/-- `set(a) == set(b)`. -/
def sameNames (a b : List String) : Bool := a.all (b.contains ·) && b.all (a.contains ·)

/-- The loop of `update_strategy_returns`. -/
def appendReturns : List (String × PyFloat K) → Py.Dict String (Py.Deque K) →
    Except PyError Unit × Py.Dict String (Py.Deque K)
  | [], returns => (.ok (), returns)
  | (name, .nonFinite) :: _, returns => (.error (.valueError s!"non-finite return for strategy: {name}"), returns)
  | (name, .finite ret) :: rest, returns =>
    match returns.get? name with
    | none => (.error .keyError, returns)
    | some series => appendReturns rest (returns.set name (series.append ret))

/-- `update_strategy_returns`. -/
def updateStrategyReturns (m : MultiStrategyPortfolioManager K σ) (realizedReturns : Py.Dict String (PyFloat K)) :
    Except PyError Unit × MultiStrategyPortfolioManager K σ :=
  if sameNames realizedReturns.keys m.returns.keys = false then
    (.error (.valueError "realized_returns must contain exactly the same strategy names"), m)
  else
    let (answer, returns) := appendReturns realizedReturns.items m.returns
    (answer, { m with returns })

/-- `_maybe_rebalance_weights`. -/
def maybeRebalanceWeights (sqrt : K → K) (m : MultiStrategyPortfolioManager K σ) :
    Except PyError Bool × MultiStrategyPortfolioManager K σ :=
  let m := { m with stepsSinceRebalance := m.stepsSinceRebalance + 1 }
  let lengths := (m.returns.values.map fun series => series.items.length).dedup
  if m.stepsSinceRebalance < m.config.rebalanceInterval then (.ok false, m)
  else if lengths.length ≠ 1 then (.ok false, m)
  else if (lengths.head?.getD 0 : ℤ) < m.config.minHistory then (.ok false, m)
  else
    match optimizeStrategyWeights sqrt (m.returns.mapValues fun _ series => series.items) m.config.optimizerConfig with
    | .error e => (.error e, m)
    | .ok optimization =>
      (.ok true, { m with weights := optimization.weights, lastOptimization := some optimization,
                          stepsSinceRebalance := 0 })

/-- The engines asked in turn, up to the first that raises. -/
def askEngines (bars : List Bar) : List (String × Strategy K σ) → Py.Dict String (StrategyDecision K) →
    Py.Dict String (Strategy K σ) → Except PyError (Py.Dict String (StrategyDecision K)) × Py.Dict String (Strategy K σ)
  | [], decisions, engines => (.ok decisions, engines)
  | (name, engine) :: rest, decisions, engines =>
    match engine.onBars bars with
    | (.error e, engine) => (.error e, engines.set name engine)
    | (.ok decision, engine) => askEngines bars rest (decisions.set name decision) (engines.set name engine)

/-- `{name: engine.on_bars(bars) for name, engine in self._engines.items()}`. -/
def decisions (m : MultiStrategyPortfolioManager K σ) (bars : List Bar) :
    Except PyError (Py.Dict String (StrategyDecision K)) × MultiStrategyPortfolioManager K σ :=
  let (answer, engines) := askEngines bars m.engines.items Py.Dict.empty m.engines
  (answer, { m with engines })

/-- The `signal` of a decision. -/
def signal (strategyDecisions : Py.Dict String (StrategyDecision K)) : String :=
  let active := (sortedNames strategyDecisions.keys).filterMap fun name =>
    (strategyDecisions.get? name).bind fun decision =>
      if 0 < |decision.targetQty| then some (name ++ ":" ++ decision.signal) else none
  "portfolio(" ++ (if active = [] then "flat" else ", ".intercalate active) ++ ")"

/-- The decision of `on_bars`, once the weights are settled. -/
def decision (m : MultiStrategyPortfolioManager K σ) (strategyDecisions : Py.Dict String (StrategyDecision K))
    (rebalanced : Bool) : Except PyError (MultiStrategyDecision K) := do
  let targets ← m.weights.items.mapM fun (name, weight) => do
    return weight * (← getItem strategyDecisions name).targetQty
  return { targetQty := targets.sum, signal := signal strategyDecisions, strategyDecisions, weights := m.weights,
           rebalanced, diversificationScore := 1 - (m.weights.values.map fun weight => weight * weight).sum }

/-- `on_bars` after the strategies have answered and the returns are booked. -/
def settleDecision (sqrt : K → K) (m : MultiStrategyPortfolioManager K σ)
    (strategyDecisions : Py.Dict String (StrategyDecision K)) :
    Except PyError (MultiStrategyDecision K) × MultiStrategyPortfolioManager K σ :=
  match m.maybeRebalanceWeights sqrt with
  | (.error e, m) => (.error e, m)
  | (.ok rebalanced, m) => (m.decision strategyDecisions rebalanced, m)

/-- `on_bars`. -/
def onBars (sqrt : K → K) (m : MultiStrategyPortfolioManager K σ) (bars : List Bar)
    (realizedReturns : Option (Py.Dict String (PyFloat K)) := none) :
    Except PyError (MultiStrategyDecision K) × MultiStrategyPortfolioManager K σ :=
  match m.decisions bars with
  | (.error e, m) => (.error e, m)
  | (.ok strategyDecisions, m) =>
    match realizedReturns with
    | none => m.settleDecision sqrt strategyDecisions
    | some realizedReturns =>
      match m.updateStrategyReturns realizedReturns with
      | (.error e, m) => (.error e, m)
      | (.ok (), m) => m.settleDecision sqrt strategyDecisions

end MultiStrategyPortfolioManager

end CryptoQuant.Portfolio
