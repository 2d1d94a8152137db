import AlgorithmPortfolio.Dict
import AlgorithmPortfolio.Metrics.Name
import AlgorithmPortfolio.Text.Record

/-!
# Metrics of a schedule

Counters of what a schedule did, and a gauge of the time limit of every slot.

- `MetricSet`: the values.
- `MetricSet.recordDispatch` and its neighbours: the events that are counted.
- `MetricSet.exists_setLimits`: showing limits counts nothing.
- `Metric`: the single metrics of a set, with their names, helps and rows.
-/

namespace AlgorithmPortfolio

/-- The metrics of a schedule. -/
structure MetricSet where
  /-- What all names of the set start with. -/
  start : String
  dispatches : Nat
  rounds : Nat
  applied : Nat
  skipped : Nat
  violations : Nat
  /-- The time limits by slot. -/
  limits : Dict Nat

namespace MetricSet

/-- Metrics without events, whose names start with a word. -/
def fresh (word : String) : MetricSet where
  start := String.ofList (Metrics.sanitize word.toList)
  dispatches := 0
  rounds := 0
  applied := 0
  skipped := 0
  violations := 0
  limits := Dict.empty

/-- What names start with by default. -/
def defaultStart : String := "portfolio"

instance : Inhabited MetricSet := ⟨fresh defaultStart⟩

/-! ## Events -/

/-- A slot has a time limit. -/
def setLimit (slot : String) (limit : Nat) (metrics : MetricSet) : MetricSet :=
  { metrics with limits := metrics.limits.insert slot limit }

/-- Slots have time limits. -/
def setLimits (limits : List (String × Nat)) (metrics : MetricSet) : MetricSet :=
  limits.foldl (fun metrics entry => metrics.setLimit entry.1 entry.2) metrics

/-- Limits are all that showing limits changes. -/
theorem exists_setLimits (limits : List (String × Nat)) (metrics : MetricSet) :
    ∃ shown, metrics.setLimits limits = { metrics with limits := shown } := by
  induction limits generalizing metrics with
  | nil => exact ⟨metrics.limits, rfl⟩
  | cons entry rest ih =>
    obtain ⟨shown, h⟩ := ih (metrics.setLimit entry.1 entry.2)
    exact ⟨shown, h⟩

/-- A slot was handed out with a time limit. -/
def recordDispatch (slot : String) (limit : Nat) (metrics : MetricSet) : MetricSet :=
  { metrics with dispatches := metrics.dispatches + 1 }.setLimit slot limit

/-- A round was completed. -/
def recordRound (metrics : MetricSet) : MetricSet := { metrics with rounds := metrics.rounds + 1 }

/-- A reallocation pass changed the limits or not. -/
def recordRebalance (changed : Bool) (metrics : MetricSet) : MetricSet :=
  if changed then { metrics with applied := metrics.applied + 1 }
  else { metrics with skipped := metrics.skipped + 1 }

/-- A decision named an unknown slot. -/
def recordViolation (metrics : MetricSet) : MetricSet :=
  { metrics with violations := metrics.violations + 1 }

/-- The counters on one line. -/
def describe (metrics : MetricSet) : String :=
  Text.record "PortfolioMetrics" [
    ("dispatches", toString metrics.dispatches),
    ("rounds", toString metrics.rounds),
    ("rebalances_applied", toString metrics.applied),
    ("rebalances_skipped", toString metrics.skipped),
    ("protocol_violations", toString metrics.violations)]

end MetricSet

/-! ## Single metrics -/

/-- The metrics of a set. -/
inductive Metric
  | dispatches
  | rounds
  | applied
  | skipped
  | violations
  | limits
  deriving DecidableEq, Repr

namespace Metric

/-- All metrics in the order in which they are registered. -/
def all : List Metric := [.dispatches, .rounds, .applied, .skipped, .violations, .limits]

/-- The ending of a metric's name. -/
def ending : Metric → String
  | .dispatches => "dispatches"
  | .rounds => "rounds"
  | .applied => "rebalances_applied"
  | .skipped => "rebalances_skipped"
  | .violations => "protocol_violations"
  | .limits => "slot_time_limit"

/-- The name of a metric of a set. -/
def name (metrics : MetricSet) (metric : Metric) : String :=
  String.ofList (Metrics.joinName metrics.start.toList metric.ending.toList)

/-- The help text of a metric. -/
def help : Metric → String
  | .dispatches => "Slots handed out by the scheduler"
  | .rounds => "Completed round-robin rounds"
  | .applied => "Reallocation passes that changed time limits"
  | .skipped => "Reallocation passes aborted by a precondition"
  | .violations => "Controller decisions naming unknown slots"
  | .limits => "Current time limit per slot in seconds"

/-- Whether a metric is a gauge; all others are counters. -/
def isGauge : Metric → Bool
  | .limits => true
  | _ => false

/-- The label that the rows of the gauge have, with a slot's identifier. -/
def slotLabel (slot : String) : String := "slot=" ++ slot

/-- The labels and values of a metric, ascending. -/
def rows (metrics : MetricSet) : Metric → List (String × Nat)
  | .dispatches => [("", metrics.dispatches)]
  | .rounds => [("", metrics.rounds)]
  | .applied => [("", metrics.applied)]
  | .skipped => [("", metrics.skipped)]
  | .violations => [("", metrics.violations)]
  | .limits => metrics.limits.entries.map fun entry => (slotLabel entry.1, entry.2)

end Metric

end AlgorithmPortfolio
