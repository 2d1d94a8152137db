/-!
# Outcomes of a reallocation pass

A pass gives every slot a new time limit, or finds a reason to leave all limits as they are.

- `SkipReason`: the reasons, with their `message`.
- `Outcome`: the result of a pass.
-/

namespace AlgorithmPortfolio.Rebalance

/-- Why a pass left all limits unchanged. -/
inductive SkipReason
  /-- No round has completed yet. -/
  | firstRound
  /-- A slot reported no progress since the last reset. -/
  | missingProgress (slot : String)
  /-- A slot's engine cannot list its targets. -/
  | missingTargets (slot : String)
  /-- There are not more seconds to distribute than slots. -/
  | insufficientBudget (budget : Int) (slots : Nat)
  /-- A slot with a positive prior has no model to judge paths with. -/
  | missingModel (slot : String)
  /-- No slot has a target left. -/
  | noTargets
  deriving DecidableEq, Repr

/-- The wording of a reason. -/
def SkipReason.message : SkipReason → String
  | .firstRound => "no completed round yet"
  | .missingProgress slot => "slot " ++ slot ++ " has no progress measurement"
  | .missingTargets slot => "slot " ++ slot ++ " has no coverage targets"
  | .insufficientBudget budget slots =>
    "budget of " ++ toString budget ++ "s cannot be split among " ++ toString slots ++ " slots"
  | .missingModel slot => "slot " ++ slot ++ " has no statistical model"
  | .noTargets => "no coverage targets to sample"

/-- The name of a reason's kind. -/
def SkipReason.label : SkipReason → String
  | .firstRound => "FirstRound"
  | .missingProgress _ => "MissingProgress"
  | .missingTargets _ => "MissingCoverageTargets"
  | .insufficientBudget _ _ => "InsufficientBudget"
  | .missingModel _ => "MissingModel"
  | .noTargets => "NoTargets"

/-- The result of a pass; new limits are in the order of the slots. -/
inductive Outcome
  | applied (budget : Int) (limits : List Nat)
  | skipped (reason : SkipReason)
  deriving DecidableEq, Repr

/-- Whether a pass changed the limits. -/
def Outcome.isApplied : Outcome → Bool
  | .applied _ _ => true
  | .skipped _ => false

end AlgorithmPortfolio.Rebalance
