import AlgorithmPortfolio.Options
import AlgorithmPortfolio.TargetSet

/-!
# Engines

An engine runs an analysis. It lives outside of the schedule, which knows it by its name and
asks it what is left to cover and how far it got. Several slots may hold the same engine, and
its answers change over time, so they are handed to each operation that asks.

- `EngineReading`: an engine's answers at a moment.
- `Engines`: the answers of all engines at a moment.
- `EngineFactory`: makes an engine from a slot's options.
-/

namespace AlgorithmPortfolio

/-- What an engine answers at a moment. -/
structure EngineReading (α : Type) where
  /-- The targets that are still open; there are none to be had while the engine cannot list
  them. -/
  targets : Option TargetSet
  /-- The part of the engine's work that is done. -/
  progress : α

/-- The answers of all engines at a moment, by name. -/
abbrev Engines (α : Type) := String → EngineReading α

/-- Makes the engine of a slot, given by its identifier and options; `φ` is the state of what is
around. -/
abbrev EngineFactory (φ : Type) := String → Options → φ → Except PortfolioError String × φ

end AlgorithmPortfolio
