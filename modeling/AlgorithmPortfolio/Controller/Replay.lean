import AlgorithmPortfolio.Controller.Basic

/-!
# Replayed decisions

A controller that takes its decisions from a list and keeps all feedback.

- `Replay α`: the decisions left and what the controller was told.
- `Replay.ofDecisions`: a controller before its start.
-/

namespace AlgorithmPortfolio

/-- Decisions to replay, and everything that was reported. -/
structure Replay (α : Type) where
  pending : List Decision
  identifiers : List String
  menu : List Nat
  progressReports : List (α × Nat)
  coverageReports : List (List Nat)
  deriving Repr, Inhabited

namespace Replay

variable {α : Type}

/-- The controller of a list of decisions. -/
def ofDecisions (decisions : List Decision) : Replay α := ⟨decisions, [], [], [], []⟩

/-- The number of decisions left. -/
def remaining (replay : Replay α) : Nat := replay.pending.length

instance : Controller (Replay α) α where
  init ids menu replay := { replay with identifiers := ids, menu := menu.offers }
  hasNext replay := (!replay.pending.isEmpty, replay)
  next replay := (replay.pending.head?, { replay with pending := replay.pending.tail })
  reportProgress progress limit replay :=
    { replay with progressReports := replay.progressReports ++ [(progress, limit)] }
  reportCoverage targets replay :=
    { replay with coverageReports := replay.coverageReports ++ [targets] }

end Replay

end AlgorithmPortfolio
