import AlgorithmPortfolio.Schedule.RoundRobin

/-!
# Descriptions of schedules in turn

- `RoundRobin.describe`: the state of a schedule on one line.
-/

namespace AlgorithmPortfolio

/-- The settings of the pass on one line. -/
def Knobs.describe (knobs : Knobs) : String :=
  Text.record "RebalanceKnobs" [
    ("sample_size", toString knobs.sampleSize),
    ("max_path_length", toString knobs.maxPathLength),
    ("seed", Text.option toString knobs.seed),
    ("ngram_size", toString knobs.ngramSize),
    ("set_based", Text.bool knobs.setBased)]

namespace Rebalance

/-- A reason on one line. -/
def SkipReason.describe (reason : SkipReason) : String :=
  match reason with
  | .firstRound | .noTargets => reason.label
  | .missingProgress slot | .missingTargets slot | .missingModel slot =>
    reason.label ++ "(" ++ idText slot ++ ")"
  | .insufficientBudget budget slots =>
    Text.record reason.label [("budget", toString budget), ("slots", toString slots)]

/-- An outcome on one line. -/
def Outcome.describe : Outcome → String
  | .applied budget limits =>
    Text.record "Applied" [("budget", toString budget), ("limits", Text.list (limits.map toString))]
  | .skipped reason => "Skipped(" ++ reason.describe ++ ")"

end Rebalance

/-- A portfolio on one line. -/
def Portfolio.describe (now : Nat) (portfolio : Portfolio Float) : String :=
  let index := portfolio.index.entries.map fun entry => idText entry.1 ++ ": " ++ toString entry.2
  Text.record "Portfolio" [
    ("slots", Text.list (portfolio.slots.map (Slot.describe now))),
    ("index", "\x7b" ++ ", ".intercalate index ++ "\x7d"),
    ("identifiers", Text.list (portfolio.identifiers.map idText))]

/-- A schedule on one line. -/
def RoundRobin.describe {σ : Type} (now : Nat) (schedule : RoundRobin σ Float) : String :=
  Text.record "AdaptiveScheduler" [
    ("portfolio", schedule.portfolio.describe now),
    ("knobs", schedule.knobs.describe),
    ("round", toString schedule.round),
    ("in_cycle", toString schedule.inCycle),
    ("last_outcome", Text.option Rebalance.Outcome.describe schedule.lastOutcome)]

end AlgorithmPortfolio
