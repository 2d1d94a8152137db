import AlgorithmPortfolio.Bits
import AlgorithmPortfolio.Text.Numeral
import AlgorithmPortfolio.Text.Split
import AlgorithmPortfolio.TimeMenu

/-!
# Settings from command lines

Options have long names. A value follows an equals sign or is the next argument, which may then
not start with a hyphen. Slots may be given any number of times and every other option once.

- `Arguments`: the settings that a command line may give.
- `Arguments.Flag`: the options.
- `Arguments.Fault`: why a command line cannot be read.
- `Arguments.read`: the settings of a command line. A value that is an argument of its own is
  checked when the next option or the end is reached.
-/

namespace AlgorithmPortfolio

/-- The settings that a command line may give. -/
structure Arguments where
  slots : List String
  scale : Option Scale
  granularity : Option Nat
  maxTimePerSlot : Option Nat
  sampleSize : Option Nat
  seed : Option Nat
  metricsPrefix : Option String
  deriving DecidableEq, Repr, Inhabited

namespace Arguments

/-- No settings. -/
def empty : Arguments := ⟨[], none, none, none, none, none, none⟩

/-- Why a command line cannot be read. -/
inductive Fault
  /-- An argument that is no option and no option's value. -/
  | unknownArgument
  /-- A missing value, or a name that is none of the choices. -/
  | badValue
  /-- A value that is no number in its range. -/
  | badNumber
  /-- A second value of an option that takes one. -/
  | repeated
  /-- A value of an option that takes none. -/
  | needlessValue
  /-- The help text is asked for. -/
  | help
  deriving DecidableEq, Repr

/-! ## Options -/

/-- The options. -/
inductive Flag
  | slot
  | timeScale
  | granularity
  | maxTimePerSlot
  | sampleSize
  | seed
  | metricsPrefix
  deriving DecidableEq, Repr

namespace Flag

/-- All options. -/
def all : List Flag :=
  [.slot, .timeScale, .granularity, .maxTimePerSlot, .sampleSize, .seed, .metricsPrefix]

/-- The name of an option, without hyphens in front. -/
def name : Flag → String
  | .slot => "portfolio-slot"
  | .timeScale => "portfolio-time-scale"
  | .granularity => "portfolio-granularity"
  | .maxTimePerSlot => "portfolio-max-time-per-slot"
  | .sampleSize => "portfolio-sample-size"
  | .seed => "portfolio-seed"
  | .metricsPrefix => "portfolio-metrics-prefix"

/-- The option of a name. -/
def ofName? (name : List Char) : Option Flag := all.find? fun flag => flag.name.toList == name

/-- Whether an option has its only value already. -/
def isGiven (arguments : Arguments) : Flag → Bool
  | .slot => false
  | .timeScale => arguments.scale.isSome
  | .granularity => arguments.granularity.isSome
  | .maxTimePerSlot => arguments.maxTimePerSlot.isSome
  | .sampleSize => arguments.sampleSize.isSome
  | .seed => arguments.seed.isSome
  | .metricsPrefix => arguments.metricsPrefix.isSome

end Flag

/-! ## Values -/

/-- The greatest number of seconds. -/
def secondsBound : Nat := maxOfBits 32

/-- The greatest number of samples and the greatest seed. -/
def wordBound : Nat := maxOfBits 64

/-- A numeral up to a bound. -/
def number (bound : Nat) (cs : List Char) : Except Fault Nat :=
  match Text.readNumeral bound cs with
  | .ok n => .ok n
  | .error _ => .error .badNumber

/-- A number of seconds. A zero may have a minus sign. -/
def seconds : List Char → Except Fault Nat
  | '-' :: digits => if digits ≠ [] ∧ digits.all (· == '0') then .ok 0 else .error .badNumber
  | cs => number secondsBound cs

/-- The name of a scale. -/
def scaleOf (value : String) : Except Fault Scale :=
  match Scale.ofName? value with
  | some scale => .ok scale
  | none => .error .badValue

/-- The settings with the value of one more option. -/
def give (arguments : Arguments) (flag : Flag) (value : String) : Except Fault Arguments :=
  if flag.isGiven arguments then .error .repeated
  else
    match flag with
    | .slot => .ok { arguments with slots := arguments.slots ++ [value] }
    | .timeScale => return { arguments with scale := some (← scaleOf value) }
    | .granularity => return { arguments with granularity := some (← seconds value.toList) }
    | .maxTimePerSlot => return { arguments with maxTimePerSlot := some (← seconds value.toList) }
    | .sampleSize => return { arguments with sampleSize := some (← number wordBound value.toList) }
    | .seed => return { arguments with seed := some (← number wordBound value.toList) }
    | .metricsPrefix => .ok { arguments with metricsPrefix := some value }

/-! ## Command lines -/

/-- What one argument is by itself. -/
inductive Word
  /-- Two hyphens, after which there are no options. -/
  | separator
  /-- An option, with the value after its equals sign. -/
  | flag (flag : Flag) (value : Option String)
  | help
  /-- The option for help with a value. -/
  | helpWithValue
  /-- Something with a hyphen in front that is no option. -/
  | unknown
  | plain
  deriving DecidableEq, Repr

/-- An option's name, perhaps with an equals sign and a value. -/
def longWord (cs : List Char) : Word :=
  let (name, value) := match Text.splitFirst '=' cs with
    | some (name, value) => (name, some (String.ofList value))
    | none => (cs, none)
  match Flag.ofName? name with
  | some flag => .flag flag value
  | none =>
    if name ≠ "help".toList then .unknown else if value.isSome then .helpWithValue else .help

/-- What an argument is by itself. -/
def wordOf : List Char → Word
  | ['-', '-'] => .separator
  | '-' :: '-' :: name => longWord name
  | '-' :: 'h' :: _ => .help
  | '-' :: _ :: _ => .unknown
  | _ => .plain

/-- A command line while it is read: the settings so far, and the last option with its value if
it was not taken in yet. -/
structure Draft where
  settings : Arguments
  pending : Option (Flag × Option String)

/-- Take in the last option. -/
def Draft.settle (draft : Draft) : Except Fault Arguments :=
  match draft.pending with
  | none => .ok draft.settings
  | some (_, none) => .error .badValue
  | some (flag, some value) => draft.settings.give flag value

/-- The settings of the remaining arguments. -/
def readFrom (draft : Draft) : List String → Except Fault Arguments
  | [] => draft.settle
  | argument :: rest =>
    match wordOf argument.toList with
    | .separator => if rest = [] then draft.settle else .error .unknownArgument
    | .flag flag none => do readFrom ⟨← draft.settle, some (flag, none)⟩ rest
    | .flag flag (some value) => do readFrom ⟨← (← draft.settle).give flag value, none⟩ rest
    | .help => do
      let _ ← draft.settle
      throw .help
    -- the value of the last option is not looked at any more
    | .unknown => .error .unknownArgument
    | .helpWithValue => .error .needlessValue
    | .plain =>
      match draft.pending with
      | some (flag, none) => readFrom ⟨draft.settings, some (flag, some argument)⟩ rest
      | _ => .error .unknownArgument

/-- The settings of a command line. -/
def read (arguments : List String) : Except Fault Arguments := readFrom ⟨empty, none⟩ arguments

end Arguments

end AlgorithmPortfolio
