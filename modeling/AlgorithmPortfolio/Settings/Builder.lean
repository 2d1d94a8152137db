import AlgorithmPortfolio.Document.Yaml
import AlgorithmPortfolio.Settings.Arguments
import AlgorithmPortfolio.Settings.Environment
import AlgorithmPortfolio.Settings.Extract

/-!
# Merging settings

Settings come from defaults, files, environment variables, code and command lines. Every source
is laid over the ones before it: tables are merged key by key, everything else is replaced.

- `Builder`: the settings merged so far.
- `Builder.file`, `Builder.environment`, `Builder.arguments` and one operation for each setting
  made in code: the sources.
- `Builder.config`: the checked configuration.
-/

namespace AlgorithmPortfolio

open Document (Value)

/-! ## Files -/

namespace Settings

/-- The formats of settings files. -/
inductive Format
  | toml
  | json
  | yaml
  deriving DecidableEq, Repr

/-- The format that a path's extension names, in upper or lower case; TOML unless it names
another. -/
def Format.ofPath (path : String) : Format :=
  match (Storage.Path.extension? path).map String.toLower with
  | some "yaml" => .yaml
  | some "yml" => .yaml
  | some "json" => .json
  | _ => .toml

/-- The settings of a text, which has to be a table. -/
def Format.read? : Format → String → Option Value
  | .toml, text => (Document.Toml.withoutMoments <| .table ·) <$> Document.Toml.read text
  | .yaml, text => Value.table <$> Document.Yaml.read text
  | .json, text =>
    match Document.Json.read text with
    | some (.table entries) => some (.table entries)
    | _ => none

/-- The settings of a file. A file that is not there has none: it is looked for at its path
alone, and not in the directories above the working directory. -/
def fileLayer (tree : Storage.Tree) (path : String) : Reading Value :=
  if tree.isFile path then
    match (tree.read path).toOption.bind (Format.ofPath path).read? with
    | some settings => .ok settings.normalize
    | none => fault .unreadable
  else .ok (.table [])

end Settings

/-! ## Builders -/

/-- Settings merged from several sources. -/
structure Builder where
  /-- The settings, or why a source could not be read. -/
  settings : Settings.Reading Value
  /-- The slots that were given one by one, or those of the last command line and the ones after
  it. -/
  slots : List SlotSpec
  /-- Whether the schedule's metrics are to be registered. -/
  exposed : Bool

namespace Builder

/-- The default settings. -/
def start : Builder := ⟨.ok Config.default.toValue, [], false⟩

instance : Inhabited Builder := ⟨start⟩

/-- Lay settings over the ones so far. -/
def layer (settings : Value) (builder : Builder) : Builder :=
  { builder with settings := builder.settings.map fun base => base.overlay settings }

/-- Lay one setting over the ones so far. -/
def set (key : String) (value : Value) : Builder → Builder := layer (.single key value)

/-- Lay a setting of the reallocation pass over the ones so far. -/
def setRebalance (key : String) (value : Value) : Builder → Builder :=
  set "rebalance" (.single key value)

/-! ### Sources -/

/-- Settings of a file. A file that cannot be read makes all settings faulty. -/
def file (tree : Storage.Tree) (path : String) (builder : Builder) : Builder :=
  match Settings.fileLayer tree path with
  | .ok settings => builder.layer settings
  | .error fault => { builder with settings := .error fault }

/-- Settings of environment variables whose names start with a word. -/
def environment (word : String) (values : Dict String) : Builder → Builder :=
  layer (Settings.Environment.layer word values)

/-- One more slot. The slots given this way replace those of other sources. -/
def slot (spec : SlotSpec) (builder : Builder) : Builder :=
  let slots := builder.slots ++ [spec]
  { builder with slots := slots }.set "slots" (specsValue slots)

/-- More slots. -/
def appendSlots (specs : List SlotSpec) (builder : Builder) : Builder :=
  specs.foldl (fun builder spec => builder.slot spec) builder

/-- How the time menu is spaced. -/
def scale (scale : Scale) : Builder → Builder := set "time_scale" (.text scale.name)

/-- The granularity of the time menu. -/
def granularity (seconds : Nat) : Builder → Builder := set "granularity" (.integer seconds)

/-- The greatest limit that a controller may give. -/
def maxTimePerSlot (seconds : Nat) : Builder → Builder := set "max_time_per_slot" (.integer seconds)

/-- The settings of the reallocation pass. -/
def rebalance (knobs : Knobs) : Builder → Builder := set "rebalance" knobs.toValue

/-- The seed of the reallocation pass. -/
def seed (seed : Nat) : Builder → Builder := setRebalance "seed" (.integer seed)

/-- How many targets a reallocation pass samples. -/
def sampleSize (count : Nat) : Builder → Builder := setRebalance "sample_size" (.integer count)

/-- The options that are withheld from engines. -/
def schedulerKeys (keys : List String) : Builder → Builder := set "scheduler_keys" (textsValue keys)

/-- What the names of metrics start with. -/
def metricsPrefix (word : String) : Builder → Builder := set "metrics_prefix" (.text word)

/-- Have the metrics registered. -/
def expose (builder : Builder) : Builder := { builder with exposed := true }

/-- Slots that replace all slots so far, if there are any. -/
def replaceSlots (specs : List SlotSpec) (builder : Builder) : Builder :=
  if specs.isEmpty then builder
  else { builder with slots := specs }.set "slots" (specsValue specs)

/-- Lay an optional setting over the ones so far. -/
def whenGiven {β : Type} (given : Option β) (lay : β → Builder → Builder) (builder : Builder) :
    Builder :=
  match given with
  | some x => lay x builder
  | none => builder

/-- Settings of a command line. -/
def arguments (arguments : Arguments) (builder : Builder) : Builder :=
  builder
    |>.replaceSlots (arguments.slots.map SlotSpec.ofText)
    |> whenGiven arguments.scale scale
    |> whenGiven arguments.granularity granularity
    |> whenGiven arguments.maxTimePerSlot maxTimePerSlot
    |> whenGiven arguments.sampleSize sampleSize
    |> whenGiven arguments.seed seed
    |> whenGiven arguments.metricsPrefix metricsPrefix

/-! ### Result -/

/-- The configuration of the settings, unless one of them is faulty. -/
def extract (builder : Builder) : Settings.Reading Config := do
  Config.ofValue Settings.merged (← builder.settings)

/-- The configuration, unless a setting is faulty or zero where it has to be positive. -/
def config (builder : Builder) : Except PortfolioError Config :=
  match builder.extract with
  | .error fault => .error (.settings fault)
  | .ok config => config.validate.map fun _ => config

end Builder

end AlgorithmPortfolio
