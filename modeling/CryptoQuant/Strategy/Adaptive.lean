import CryptoQuant.Lib.Run
import CryptoQuant.Strategy.Optimizer

/-!
# The adaptive parameter controller

`strategy/adaptive.py`: every few events the optimizer is run again and a bandit picks
one of the candidates; in between the last pick is held. The draws of the random source
and what the sentiment pipeline answers come with the call; `sqrt` is `x ** 0.5`. A call that raises keeps
what it had changed before.
-/

namespace CryptoQuant
set_option autoImplicit false

/-- `AdaptiveStrategyConfig`. -/
structure AdaptiveStrategyConfig where
  lookbackEvents : ℤ := 120
  retuneIntervalEvents : ℤ := 30
  epsilon : ℚ := 1 / 10
  enableMlAdaptation : Bool := false
  mlFeatureWindow : ℤ := 20
  mlWeight : ℚ := 25 / 100
  epsilonMin : ℚ := 2 / 100
  epsilonMax : ℚ := 35 / 100
  enableSentimentOverlay : Bool := false
  sentimentWeight : ℚ := 15 / 100
  sentimentLookbackHours : ℤ := 24

/-- The checks of the controller's constructor. -/
def AdaptiveStrategyConfig.check (cfg : AdaptiveStrategyConfig) : Except PyError Unit := do
  raiseIf (cfg.lookbackEvents < 20) (.valueError "lookback_events must be >= 20")
  raiseIf (cfg.retuneIntervalEvents < 1) (.valueError "retune_interval_events must be >= 1")
  raiseIf (cfg.mlFeatureWindow < 5) (.valueError "ml_feature_window must be >= 5")
  raiseIf (cfg.mlWeight < 0) (.valueError "ml_weight must be >= 0")
  raiseIf (¬ (0 ≤ cfg.epsilonMin ∧ cfg.epsilonMin ≤ cfg.epsilonMax ∧ cfg.epsilonMax ≤ 1))
    (.valueError "epsilon_min/epsilon_max must satisfy 0 <= min <= max <= 1")
  raiseIf (cfg.sentimentWeight < 0) (.valueError "sentiment_weight must be >= 0")
  raiseIf (cfg.sentimentLookbackHours < 1) (.valueError "sentiment_lookback_hours must be >= 1")

/-- What one `select` draws: `random()` and the place that `choice` takes. -/
structure Draw where
  random : ℚ
  place : ℕ
  nonneg : 0 ≤ random
  lt_one : random < 1

/-- `choice(items)`. -/
def Draw.choice {α : Type} (draw : Draw) (items : List α) : Except PyError α :=
  match items[draw.place % items.length]? with
  | some item => .ok item
  | none => .error (.indexError "Cannot choose from an empty sequence")

/-! ## The bandit -/

/-- `EpsilonGreedyParameterBandit`. -/
structure EpsilonGreedyParameterBandit where
  candidates : List StrategyParameterSet
  epsilon : ℚ
  rewardSum : Py.Dict StrategyParameterSet ℚ
  rewardCount : Py.Dict StrategyParameterSet ℕ

namespace EpsilonGreedyParameterBandit

/-- `EpsilonGreedyParameterBandit(candidates, epsilon=epsilon)`. -/
def new (candidates : List StrategyParameterSet) (epsilon : ℚ := 1 / 10) :
    Except PyError EpsilonGreedyParameterBandit := do
  raiseIf (candidates = []) (.valueError "candidates cannot be empty")
  raiseIf (¬ (0 ≤ epsilon ∧ epsilon ≤ 1)) (.valueError "epsilon must be within [0, 1]")
  .ok { candidates, epsilon, rewardSum := .ofKeys candidates fun _ => 0, rewardCount := .ofKeys candidates fun _ => 0 }

/-- `set_epsilon`. -/
def setEpsilon (bandit : EpsilonGreedyParameterBandit) (epsilon : ℚ) : Except PyError EpsilonGreedyParameterBandit :=
  if 0 ≤ epsilon ∧ epsilon ≤ 1 then .ok { bandit with epsilon }
  else .error (.valueError "epsilon must be within [0, 1]")

/-- `mean_reward`. -/
def meanReward (bandit : EpsilonGreedyParameterBandit) (params : StrategyParameterSet) : Except PyError ℚ := do
  let count ← getItem bandit.rewardCount params
  if count = 0 then return 0
  let sum ← getItem bandit.rewardSum params
  return sum / count

/-- `max(values)`. -/
def maxValue (values : List ℚ) : Except PyError ℚ :=
  match values.max? with
  | some best => .ok best
  | none => .error (.valueError "max() iterable argument is empty")

/-- One candidate of the comprehension `means`. -/
def addMean (bandit : EpsilonGreedyParameterBandit) (means : Py.Dict StrategyParameterSet ℚ)
    (candidate : StrategyParameterSet) : Except PyError (Py.Dict StrategyParameterSet ℚ) := do
  let mean ← bandit.meanReward candidate
  return means.set candidate mean

/-- `select`. -/
def select (bandit : EpsilonGreedyParameterBandit) (draw : Draw) : Except PyError StrategyParameterSet :=
  if draw.random < bandit.epsilon then draw.choice bandit.candidates
  else do
    let means ← bandit.candidates.foldlM bandit.addMean .empty
    let bestMean ← maxValue means.values
    draw.choice ((means.items.filter fun item => item.2 = bestMean).map Prod.fst)

/-- `update`; a rational reward is finite. -/
def update (bandit : EpsilonGreedyParameterBandit) (params : StrategyParameterSet) (reward : ℚ) :
    Except PyError EpsilonGreedyParameterBandit :=
  match bandit.rewardSum.get? params with
  | none => .error (.valueError "params not in candidate set")
  | some sum => do
    let count ← getItem bandit.rewardCount params
    .ok { bandit with rewardSum := bandit.rewardSum.set params (sum + reward),
                      rewardCount := bandit.rewardCount.set params (count + 1) }

end EpsilonGreedyParameterBandit

/-! ## The return model -/

/-- `_returns`. -/
def returnsOf (closes : List ℚ) : List ℚ :=
  closes.zipWith (fun prev close => if prev = 0 then 0 else (close - prev) / prev) closes.tail

/-- `_stdev`. -/
def stdevOf (sqrt : ℚ → ℚ) (values : List ℚ) : ℚ :=
  if values.length < 2 then 0
  else
    let mean := values.sum / values.length
    sqrt ((values.map fun v => (v - mean) ^ 2).sum / values.length)

/-- `_dot`. -/
def dotOf (a b : List ℚ) : ℚ := (a.zipWith (· * ·) b).sum

/-- `_feature_vector`. -/
def featureVector (sqrt : ℚ → ℚ) (returns : List ℚ) (idx window : ℕ) : List ℚ :=
  let tail := (returns.take (idx + 1)).drop (idx + 1 - window)
  let rNow := returns.getD idx 0
  let momentum := tail.sum / tail.length
  [1, rNow, momentum, stdevOf sqrt tail]

/-- `_OnlineLinearReturnModel`. -/
structure OnlineLinearReturnModel where
  lr : ℚ := 5 / 100
  epochs : ℕ := 5
  weights : List ℚ := [0, 0, 0, 0]

namespace OnlineLinearReturnModel

/-- One sample of `fit`. -/
def learn (model : OnlineLinearReturnModel) (sample : List ℚ × ℚ) : OnlineLinearReturnModel :=
  let err := dotOf model.weights sample.1 - sample.2
  { model with weights := model.weights.zipWith (fun w x => w - model.lr * err * x) sample.1 }

/-- `fit`. -/
def fit (sqrt : ℚ → ℚ) (model : OnlineLinearReturnModel) (closes : List ℚ) (window : ℕ) : OnlineLinearReturnModel :=
  if closes.length < max 6 (window + 2) then model
  else
    let returns := returnsOf closes
    let samples := (List.range' window (returns.length - 1 - window)).map fun i =>
      (featureVector sqrt returns i window, returns.getD (i + 1) 0)
    (List.range model.epochs).foldl (fun model _ => samples.foldl learn model) model

/-- `predict_next_return`. -/
def predictNextReturn (sqrt : ℚ → ℚ) (model : OnlineLinearReturnModel) (closes : List ℚ) (window : ℕ) : ℚ :=
  if closes.length < max 6 (window + 1) then 0
  else
    let returns := returnsOf closes
    dotOf model.weights (featureVector sqrt returns (returns.length - 1) window)

end OnlineLinearReturnModel

/-! ## The controller -/

/-- What the controller reads of a `SentimentSnapshot`. -/
structure SentimentSnapshot where
  score : ℚ
  confidence : ℚ
deriving DecidableEq, Repr

/-- `mode`. -/
inductive AdaptiveMode
  | retune | hold
deriving DecidableEq, Repr

/-- `AdaptiveDecision`. -/
structure AdaptiveDecision where
  selectedParams : StrategyParameterSet
  optimization : StrategyOptimizationResult
  mode : AdaptiveMode
  predictedReturn : Option ℚ
  dynamicEpsilon : Option ℚ
  sentimentScore : Option ℚ
  sentimentConfidence : Option ℚ
deriving DecidableEq, Repr

/-- `AdaptiveParameterController`. Of the sentiment pipeline it keeps whether there is one. -/
structure AdaptiveParameterController where
  candidates : List StrategyParameterSet
  config : AdaptiveStrategyConfig
  optimizer : AutomatedStrategyOptimizer
  bandit : EpsilonGreedyParameterBandit
  eventsSeen : ℕ
  lastSelected : StrategyParameterSet
  lastOptimization : Option StrategyOptimizationResult
  model : Option OnlineLinearReturnModel
  sentimentPipeline : Bool

/-- A call of `step`: the history, the draws, and what the sentiment pipeline answers
when it is asked. -/
structure AdaptiveCall where
  history : List MarketEvent
  draw : Draw
  snapshot : Except PyError SentimentSnapshot

namespace AdaptiveParameterController

/-- `ZeroDivisionError`. -/
def divisionByZero : PyError := .external "division by zero"

/-- `AdaptiveParameterController(symbol, candidates, config, objective, base_qty, sentiment_pipeline)`. -/
def new (symbol : String) (candidates : List StrategyParameterSet) (config : AdaptiveStrategyConfig := {})
    (objective : OptimizationObjective := .netPnl) (baseQty : ℚ := 1) (sentimentPipeline : Bool := false) :
    Except PyError AdaptiveParameterController := do
  config.check
  match candidates with
  | [] => .error (.valueError "candidates cannot be empty")
  | first :: _ =>
    let optimizer ← AutomatedStrategyOptimizer.new symbol baseQty objective
    let bandit ← EpsilonGreedyParameterBandit.new candidates config.epsilon
    .ok { candidates, config, optimizer, bandit, eventsSeen := 0, lastSelected := first, lastOptimization := none,
          model := if config.enableMlAdaptation then some {} else none, sentimentPipeline }

/-- `should_retune`, once the event is counted. -/
def shouldRetune (ctl : AdaptiveParameterController) : Bool :=
  ctl.eventsSeen == 1 || decide ((ctl.eventsSeen : ℤ) % ctl.config.retuneIntervalEvents = 0)

/-- `history[-lookback_events:]`. -/
def windowOf (ctl : AdaptiveParameterController) (history : List MarketEvent) : List MarketEvent :=
  history.rtake ctl.config.lookbackEvents.toNat

/-- The optimization of the step: the cached one in between retunes. -/
def optimization (ctl : AdaptiveParameterController) (window : List MarketEvent) :
    Except PyError StrategyOptimizationResult :=
  match ctl.shouldRetune, ctl.lastOptimization with
  | false, some cached => .ok cached
  | _, _ => ctl.optimizer.optimize window ctl.candidates

/-- `dynamic_epsilon`. -/
def dynamicEpsilon (sqrt : ℚ → ℚ) (ctl : AdaptiveParameterController) (closes : List ℚ) (predictedReturn : ℚ) : ℚ :=
  let vol := stdevOf sqrt (returnsOf closes)
  let confidence := if vol ≤ 1 / 1000000000 then 0 else min 1 (|predictedReturn| / vol)
  ctl.config.epsilonMax - (ctl.config.epsilonMax - ctl.config.epsilonMin) * confidence

/-- The prediction and, at a retune, the new epsilon of the bandit. -/
def adapt (sqrt : ℚ → ℚ) (ctl : AdaptiveParameterController) (closes : List ℚ) :
    Except PyError (Option ℚ × Option ℚ) × AdaptiveParameterController :=
  match ctl.model with
  | none => (.ok (none, none), ctl)
  | some model =>
    let window := ctl.config.mlFeatureWindow.toNat
    let model := model.fit sqrt closes window
    let predictedReturn := model.predictNextReturn sqrt closes window
    let ctl := { ctl with model := some model }
    if ctl.shouldRetune then
      let epsilon := ctl.dynamicEpsilon sqrt closes predictedReturn
      match ctl.bandit.setEpsilon epsilon with
      | .error e => (.error e, ctl)
      | .ok bandit => (.ok (some predictedReturn, some epsilon), { ctl with bandit })
    else (.ok (some predictedReturn, none), ctl)

/-- `params`: the pick of the bandit at a retune, else the last one. -/
def pick (ctl : AdaptiveParameterController) (draw : Draw) : Except PyError StrategyParameterSet :=
  if ctl.shouldRetune then ctl.bandit.select draw else .ok ctl.lastSelected

/-- The score of the parameters in the optimization. -/
def scoreOf (optimization : StrategyOptimizationResult) (params : StrategyParameterSet) : ℚ :=
  if params = optimization.best.params then optimization.best.score
  else
    match optimization.leaderboard.find? fun x => x.params = params with
    | none => 0
    | some matched => matched.score

/-- `fast_window / slow_window`. -/
def aggressiveness (params : StrategyParameterSet) : Except PyError ℚ := do
  raiseIf (params.slowWindow = 0) divisionByZero
  return params.fastWindow / params.slowWindow

/-- `_ml_reward_adjustment`. -/
def mlRewardAdjustment (ctl : AdaptiveParameterController) (predictedReturn : ℚ) (params : StrategyParameterSet) :
    Except PyError ℚ := do
  let aggressive ← aggressiveness params
  let target := min 1 (|predictedReturn| * 150)
  return -ctl.config.mlWeight * |aggressive - target|

/-- `_sentiment_snapshot`. -/
def sentimentSnapshot (ctl : AdaptiveParameterController) (answer : Except PyError SentimentSnapshot) :
    Except PyError (Option SentimentSnapshot) :=
  if !ctl.config.enableSentimentOverlay || !ctl.sentimentPipeline then .ok none else answer.map some

/-- `_sentiment_reward_adjustment`. -/
def sentimentRewardAdjustment (ctl : AdaptiveParameterController) (snapshot : SentimentSnapshot)
    (params : StrategyParameterSet) : Except PyError ℚ := do
  let aggressive ← aggressiveness params
  let target := (snapshot.score + 1) / 2
  return -ctl.config.sentimentWeight * snapshot.confidence * |aggressive - target|

/-- The adjustment by the prediction, when there is one. -/
def predictionAdjustment (ctl : AdaptiveParameterController) (params : StrategyParameterSet) :
    Option ℚ → Except PyError ℚ
  | none => .ok 0
  | some predictedReturn => ctl.mlRewardAdjustment predictedReturn params

/-- The adjustment by the sentiment, when there is one. -/
def snapshotAdjustment (ctl : AdaptiveParameterController) (params : StrategyParameterSet) :
    Option SentimentSnapshot → Except PyError ℚ
  | none => .ok 0
  | some snapshot => ctl.sentimentRewardAdjustment snapshot params

/-- The reward of the parameters, and the sentiment it was adjusted by. -/
def reward (ctl : AdaptiveParameterController) (optimization : StrategyOptimizationResult)
    (predictedReturn : Option ℚ) (answer : Except PyError SentimentSnapshot) (params : StrategyParameterSet) :
    Except PyError (ℚ × Option SentimentSnapshot) := do
  let prediction ← ctl.predictionAdjustment params predictedReturn
  let snapshot ← ctl.sentimentSnapshot answer
  let sentiment ← ctl.snapshotAdjustment params snapshot
  return (scoreOf optimization params + prediction + sentiment, snapshot)

/-- `step`, once the model and the bandit are adapted: the parameters and their reward. -/
def settle (ctl : AdaptiveParameterController) (call : AdaptiveCall) (optimization : StrategyOptimizationResult)
    (predictedReturn epsilon : Option ℚ) : Except PyError (AdaptiveDecision × EpsilonGreedyParameterBandit) := do
  let params ← ctl.pick call.draw
  let (reward, snapshot) ← ctl.reward optimization predictedReturn call.snapshot params
  let bandit ← ctl.bandit.update params reward
  return ({ selectedParams := params, optimization, mode := if ctl.shouldRetune then .retune else .hold,
            predictedReturn, dynamicEpsilon := epsilon, sentimentScore := snapshot.map SentimentSnapshot.score,
            sentimentConfidence := snapshot.map SentimentSnapshot.confidence }, bandit)

/-- `step`, once the optimization is there. -/
def conclude (sqrt : ℚ → ℚ) (ctl : AdaptiveParameterController) (call : AdaptiveCall)
    (optimization : StrategyOptimizationResult) : Except PyError AdaptiveDecision × AdaptiveParameterController :=
  match ctl.adapt sqrt ((ctl.windowOf call.history).map MarketEvent.close) with
  | (.error e, ctl) => (.error e, ctl)
  | (.ok (predictedReturn, epsilon), ctl) =>
    match ctl.settle call optimization predictedReturn epsilon with
    | .error e => (.error e, ctl)
    | .ok (decision, bandit) => (.ok decision, { ctl with bandit, lastSelected := decision.selectedParams })

/-- `step`. -/
def step (sqrt : ℚ → ℚ) (ctl : AdaptiveParameterController) (call : AdaptiveCall) :
    Except PyError AdaptiveDecision × AdaptiveParameterController :=
  if (call.history.length : ℤ) < ctl.config.lookbackEvents then
    (.error (.valueError "insufficient history for adaptive tuning"), ctl)
  else
    let ctl := { ctl with eventsSeen := ctl.eventsSeen + 1 }
    match ctl.optimization (ctl.windowOf call.history) with
    | .error e => (.error e, ctl)
    | .ok optimization => conclude sqrt { ctl with lastOptimization := some optimization } call optimization

/-- The controller as a component that answers `step` calls. -/
def machine (sqrt : ℚ → ℚ) : Run.Machine AdaptiveParameterController AdaptiveCall (Except PyError AdaptiveDecision) :=
  ⟨step sqrt⟩

end AdaptiveParameterController

end CryptoQuant
