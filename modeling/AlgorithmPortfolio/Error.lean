import AlgorithmPortfolio.Storage.Tree
import AlgorithmPortfolio.Text.Numeral
import AlgorithmPortfolio.Text.Quoted

/-!
# Errors

Everything that can go wrong when a portfolio is set up or run, as causes.

- `SettingsFault`: why merged settings are no configuration.
- `ModelLineFault`: why a line of a model file cannot be read.
- `PortfolioError`, `PortfolioError.message`: the errors and their wording.
-/

namespace AlgorithmPortfolio

/-! ## Settings -/

/-- What is wrong with a setting. -/
inductive SettingsFaultKind
  /-- A document cannot be read. -/
  | unreadable
  /-- A value of the wrong kind. -/
  | wrongType
  /-- A value outside of its range. -/
  | outOfRange
  /-- A name that is none of the choices. -/
  | unknownChoice
  /-- An entry that has to be there is missing. -/
  | missing
  /-- A list with too few items. -/
  | wrongLength
  deriving DecidableEq, Repr

/-- What is wrong with a setting, and the keys that lead to it. -/
structure SettingsFault where
  kind : SettingsFaultKind
  path : List String
  deriving DecidableEq, Repr

/-! ## Model files -/

/-- Why a line of a model file cannot be read. -/
inductive ModelLineFault
  | noTab
  | badCount (count : String) (fault : Text.NumeralFault)
  deriving DecidableEq, Repr

/-- The wording of a line's fault. -/
def ModelLineFault.message : ModelLineFault → String
  | .noTab => "expected \x60token<TAB>count\x60"
  | .badCount count fault => "invalid count " ++ Text.quote count ++ ": " ++ fault.message

/-! ## All errors -/

/-- What can go wrong when a portfolio is set up or run. -/
inductive PortfolioError
  /-- A decision names a slot that is not in the portfolio. -/
  | unknownSlot (slot : String)
  /-- A decision was asked for when there was none left. -/
  | controllerExhausted
  /-- A portfolio without slots. -/
  | emptyPortfolio
  /-- A time menu without a cap or without a granularity. -/
  | invalidTimeMenu (cap granularity : Nat)
  /-- A setting that has to be positive is zero. -/
  | notPositive (key : String)
  /-- Merged settings are no configuration. -/
  | settings (fault : SettingsFault)
  /-- A slot's configuration file cannot be read. -/
  | slotFile (path : String) (fault : Storage.Fault)
  /-- A slot's configuration file is malformed. -/
  | slotSyntax (path : String)
  /-- A model file cannot be read or written. -/
  | modelFile (path : String) (fault : Storage.Fault)
  /-- A line of a model file is malformed; lines count from 1. -/
  | modelLine (path : String) (line : Nat) (fault : ModelLineFault)
  /-- An engine cannot be made or failed. -/
  | engine (text : String)
  /-- A metric of the same name is registered already. -/
  | duplicateMetric
  deriving DecidableEq, Repr

/-- The wording of an error. -/
def PortfolioError.message : PortfolioError → String
  | .unknownSlot slot => "controller returned unknown slot identifier: " ++ slot
  | .controllerExhausted => "controller has no further decisions"
  | .emptyPortfolio => "portfolio contains no slots"
  | .invalidTimeMenu cap granularity =>
    "invalid time distribution: cap " ++ toString cap ++ ", granularity " ++ toString granularity
  | .notPositive key => "invalid configuration: " ++ key ++ " must be positive"
  | .settings fault => "configuration error at " ++ ".".intercalate fault.path
  | .slotFile path fault => "failed to read slot configuration " ++ path ++ ": " ++ fault.message
  | .slotSyntax path => "slot configuration " ++ path ++ " is invalid"
  | .modelFile path fault => "model file " ++ path ++ ": " ++ fault.message
  | .modelLine path line fault =>
    "model file " ++ path ++ ", line " ++ toString line ++ ": " ++ fault.message
  | .engine text => "engine error: " ++ text
  | .duplicateMetric => "metrics error: Duplicate metrics collector registration attempted"

end AlgorithmPortfolio
