import AlgorithmPortfolio.Metrics.Basic

/-!
# How metrics are made

A metric is declared, and a library makes it or refuses to. A set is made as a whole: nobody
goes on without one of its metrics.

- `Declaration`, `Declaration.WellFormed`: what a metric is declared with, and what a library
  may ask of it.
- `Maker`: a library that makes metrics. `checked` is one that looks at the declaration only.
- `MetricSet.create`: the metrics of a set, each of which is expected to be made.
-/

namespace AlgorithmPortfolio

namespace Metrics

/-! ## Declarations -/

/-- What a metric is declared with. -/
structure Declaration where
  name : String
  help : String
  labels : List String
  isGauge : Bool
  deriving DecidableEq, Repr

/-- Whether characters make up a label: the same as a name, but without colons. -/
def isValidLabel (cs : List Char) : Bool := isValidName cs && !cs.contains ':'

/-- A declaration in which nothing is missing and nothing is malformed. -/
structure Declaration.WellFormed (declaration : Declaration) : Prop where
  name_valid : isValidName declaration.name.toList = true
  help_given : declaration.help ≠ ""
  labels_valid : ∀ label ∈ declaration.labels, isValidLabel label.toList = true
  labels_distinct : declaration.labels.Nodup

instance (declaration : Declaration) : Decidable declaration.WellFormed :=
  decidable_of_iff
    (isValidName declaration.name.toList = true ∧ declaration.help ≠ "" ∧
      (∀ label ∈ declaration.labels, isValidLabel label.toList = true) ∧ declaration.labels.Nodup)
    ⟨fun ⟨hname, hhelp, hlabels, hdistinct⟩ => ⟨hname, hhelp, hlabels, hdistinct⟩,
      fun h => ⟨h.name_valid, h.help_given, h.labels_valid, h.labels_distinct⟩⟩

/-! ## Libraries -/

/-- A library that makes metrics `μ`, or refuses to for a cause `ε`. -/
abbrev Maker (ε μ : Type) := Declaration → Except ε μ

/-- The library that makes of a well-formed declaration the declaration itself, and refuses all
others. -/
def checked : Maker Declaration Declaration := fun declaration =>
  if declaration.WellFormed then .ok declaration else .error declaration

/-- An expectation that was not met ends the program. -/
structure Unmet (ε : Type) where
  expectation : String
  fault : ε
  deriving DecidableEq, Repr

/-- The value of a result that is expected to have one. -/
def expect {ε β : Type} (expectation : String) : Except ε β → Except (Unmet ε) β
  | .ok b => .ok b
  | .error fault => .error ⟨expectation, fault⟩

/-- What is expected whenever a metric is made. -/
def creation : String := "metric creation should not fail"

end Metrics

/-! ## Metrics of a set -/

/-- The labels of a metric's rows. -/
def Metric.labels : Metric → List String
  | .limits => ["slot"]
  | _ => []

/-- How a metric of a set is declared. -/
def Metric.declaration (metrics : MetricSet) (metric : Metric) : Metrics.Declaration where
  name := metric.name metrics
  help := metric.help
  labels := metric.labels
  isGauge := metric.isGauge

open Metrics in
/-- Metrics without events, whose names start with a word, with all of them made by a
library. -/
def MetricSet.create {ε μ : Type} (make : Maker ε μ) (word : String) :
    Except (Unmet ε) (MetricSet × List μ) := do
  let metrics := fresh word
  let made ← Metric.all.mapM fun metric => expect creation (make (metric.declaration metrics))
  return (metrics, made)

end AlgorithmPortfolio
