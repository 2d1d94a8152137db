import AlgorithmPortfolio.Metrics.Registry
import AlgorithmPortfolio.Schedule.Controlled
import AlgorithmPortfolio.Schedule.RoundRobin
import AlgorithmPortfolio.Settings.Builder
import AlgorithmPortfolio.TokenModel.File

/-!
# Schedules from settings

- `Setup`: a step that may fail and may register metrics.
- `Builder.controlled`, `Builder.roundRobin`: the schedule of merged settings with a controller,
  or with models by identifier.
- `Builder.roundRobinFromFiles`: the same with models from the files that the settings name.
-/

namespace AlgorithmPortfolio

/-- A step that may fail and may register metrics. -/
abbrev Setup := ExceptT PortfolioError (StateM Registry)

variable {σ α : Type} [Arith α]

namespace Setup

/-- The number under which a schedule's metrics are registered. -/
def owner : Nat := 0

/-- The metrics of a configuration, registered if they are to be. -/
def metricsFor (config : Config) (exposed : Bool) : Setup MetricSet := do
  let metrics := MetricSet.fresh config.metricsPrefix
  -- a name that is taken stops the set-up before the schedule is made
  if exposed then ExceptT.mk ((·.register owner metrics) : StateM Registry _)
  return metrics

/-- The models of slots by identifier, the first slot having the given position. A slot without
a model file has an empty model, and of slots with the same identifier the last one counts. -/
def modelsFrom (tree : Storage.Tree) (config : Config) (position : Nat)
    (models : Dict (PathModel α)) : List SlotSpec → Except PortfolioError (Dict (PathModel α))
  | [] => .ok models
  | spec :: rest => do
    let knobs := config.rebalance
    let model ← match config.modelFiles[position]? with
      | some file => TokenModel.load tree file knobs.ngramSize knobs.setBased
      | none => .ok (TokenModel.fresh knobs.ngramSize knobs.setBased)
    modelsFrom tree config (position + 1) (models.insert spec.config model.pathModel) rest

end Setup

open Setup

namespace Builder

/-- The schedule of the settings with a controller. -/
def controlled [Controller σ α] (controller : σ) (builder : Builder) : Setup (Controlled σ α) := do
  let config ← builder.config
  let portfolio ← Portfolio.ofSpecs config.slots
  let metrics ← metricsFor config builder.exposed
  return (← Controlled.start portfolio controller config).withMetrics metrics

/-- The schedule in turn of a configuration. -/
def roundRobinOf [PathSampler σ] (config : Config) (models : Dict (PathModel α)) (sampler : σ)
    (unseeded : Generator) (exposed : Bool) : Setup (RoundRobin σ α) := do
  let portfolio ← Portfolio.ofSpecs config.slots
  let metrics ← metricsFor config exposed
  return (← RoundRobin.start portfolio models sampler config unseeded).withMetrics metrics

/-- The schedule in turn of the settings, with models by identifier. -/
def roundRobin [PathSampler σ] (models : Dict (PathModel α)) (sampler : σ) (unseeded : Generator)
    (builder : Builder) : Setup (RoundRobin σ α) := do
  roundRobinOf (← builder.config) models sampler unseeded builder.exposed

/-- The schedule in turn of the settings, with models from files. -/
def roundRobinFromFiles [PathSampler σ] (tree : Storage.Tree) (sampler : σ) (unseeded : Generator)
    (builder : Builder) : Setup (RoundRobin σ α) := do
  let config ← builder.config
  let models ← modelsFrom tree config 0 Dict.empty config.slots
  roundRobinOf config models sampler unseeded builder.exposed

end Builder

end AlgorithmPortfolio
