import AlgorithmPortfolio.Error
import AlgorithmPortfolio.Metrics.Basic

/-!
# Registries of metrics

A registry knows which metric of which set a name stands for. No name may be taken twice.

- `MetricRegistry`: what is relied on of a registry.
- `MetricSet.register`: a set's metrics are added one by one up to the first one that is
  refused.
- `Registry`: the metrics by name. Sets are known by numbers, since their values change.
- `Registry.gather`: the values of all metrics at a moment.
-/

namespace AlgorithmPortfolio

/-- A registry with states `ρ`. It refuses a metric if and only if its name is taken. -/
class MetricRegistry (ρ : Type) where
  /-- Whether a metric has the name. -/
  Holds : ρ → String → Prop
  /-- The registry with another metric, which comes with the number of its set. -/
  add : String → Nat × Metric → ρ → Except PortfolioError ρ
  add_fails_iff : ∀ {name : String} {entry : Nat × Metric} {registry : ρ},
    (∃ fault, add name entry registry = .error fault) ↔ Holds registry name
  holds_of_add : ∀ {name : String} {entry : Nat × Metric} {registry after : ρ},
    add name entry registry = .ok after →
    ∀ other, Holds after other ↔ Holds registry other ∨ name = other

namespace MetricSet

variable {ρ : Type} [MetricRegistry ρ]

/-- Add metrics of a set, up to the first one that is refused. -/
def registerAll (owner : Nat) (metrics : MetricSet) (registry : ρ) :
    List Metric → Except PortfolioError Unit × ρ
  | [] => (.ok (), registry)
  | metric :: rest =>
    match MetricRegistry.add (metric.name metrics) (owner, metric) registry with
    | .error fault => (.error fault, registry)
    | .ok next => registerAll owner metrics next rest

/-- Add all metrics of a set. -/
def register (owner : Nat) (metrics : MetricSet) (registry : ρ) : Except PortfolioError Unit × ρ :=
  metrics.registerAll owner registry Metric.all

end MetricSet

/-- Metrics by name, each with the number of its set. -/
structure Registry where
  entries : Dict (Nat × Metric)

/-- The values of a metric at a moment. -/
structure Family where
  name : String
  metric : Metric
  rows : List (String × Nat)
  deriving DecidableEq, Repr

namespace Registry

/-- The registry without metrics. -/
def empty : Registry := ⟨Dict.empty⟩

instance : Inhabited Registry := ⟨empty⟩

/-- The registry with another metric under a name that is not taken. -/
def add (name : String) (entry : Nat × Metric) (registry : Registry) :
    Except PortfolioError Registry :=
  if registry.entries.contains name then .error .duplicateMetric
  else .ok ⟨registry.entries.insert name entry⟩

theorem contains_add {name : String} {entry : Nat × Metric} {registry after : Registry}
    (h : registry.add name entry = .ok after) (other : String) :
    after.entries.contains other ↔ registry.entries.contains other ∨ name = other := by
  rw [add] at h
  split at h
  · cases h
  · cases h
    rw [Dict.contains, Dict.get?_insert]
    by_cases hname : other = name
    · simp [hname]
    · simp [hname, Ne.symm hname, Dict.contains]

instance : MetricRegistry Registry where
  Holds registry name := registry.entries.contains name = true
  add := add
  add_fails_iff {name _ registry} := by
    rw [add]
    by_cases h : registry.entries.contains name = true
    · simp [h]
    · simp [h]
  holds_of_add := contains_add

/-- Add all metrics of a set. -/
def register (owner : Nat) (metrics : MetricSet) (registry : Registry) :
    Except PortfolioError Unit × Registry :=
  metrics.register owner registry

/-- The values of all metrics, names ascending. A metric without rows is left out. -/
def gather (registry : Registry) (setOf : Nat → MetricSet) : List Family :=
  let families := registry.entries.entries.map fun (name, owner, metric) =>
    Family.mk name metric (metric.rows (setOf owner))
  families.filter fun family => !family.rows.isEmpty

end Registry

end AlgorithmPortfolio
