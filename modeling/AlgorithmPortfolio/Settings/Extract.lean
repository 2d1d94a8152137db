import AlgorithmPortfolio.Bits
import AlgorithmPortfolio.Document.Json
import AlgorithmPortfolio.Document.Toml
import AlgorithmPortfolio.Document.Toml.Text
import AlgorithmPortfolio.Settings.Config

/-!
# Configurations from documents

A document's values are checked against what each setting takes. Unknown keys are passed over,
and missing ones have their defaults. The first fault in the order of the document counts.

- `Dialect`: where formats differ in what they take.
- `Config.ofValue`: the configuration of a value, or its first fault.
- `Config.ofJson`, `Config.ofToml`: the configuration of a text.
-/

namespace AlgorithmPortfolio.Settings

open Document (Value)

/-- Where formats differ in what they take. -/
structure Dialect where
  /-- Whether a list of settings may not be longer than the settings. -/
  exactLists : Bool
  /-- Whether a known key may not be repeated. -/
  uniqueKeys : Bool
  /-- Whether a choice written as a table has to be its only key. -/
  soleChoice : Bool
  /-- What may stand under a choice that is written as the key of a table. -/
  choicePayload : Value → Bool

/-- Settings that were merged from several sources. -/
def merged : Dialect where
  exactLists := false
  uniqueKeys := false
  soleChoice := false
  choicePayload
    | .null => true
    | _ => false

/-- Settings of a JSON text. -/
def json : Dialect where
  exactLists := true
  uniqueKeys := true
  soleChoice := true
  choicePayload
    | .null => true
    | _ => false

/-- Settings of a TOML text. -/
def toml : Dialect where
  exactLists := false
  uniqueKeys := false
  soleChoice := true
  choicePayload
    | .table [] => true
    | .list [] => true
    | _ => false

/-! ## Steps -/

/-- The reading of a value, or what is wrong with it. -/
abbrev Reading (β : Type) := Except SettingsFault β

variable {β : Type}

/-- A fault at the value itself. -/
def fault (kind : SettingsFaultKind) : Reading β := .error ⟨kind, []⟩

/-- A reading below a key. -/
def below (key : String) (reading : Reading β) : Reading β :=
  match reading with
  | .ok x => .ok x
  | .error fault => .error { fault with path := key :: fault.path }

/-- A text, which may be a single character. -/
def text : Value → Reading String
  | .text s => .ok s
  | .character c => .ok (String.singleton c)
  | _ => fault .wrongType

/-- A truth value. -/
def bool : Value → Reading Bool
  | .bool b => .ok b
  | _ => fault .wrongType

/-- A number from zero to a bound. An integer of more than 64 bits is no number at all. -/
def natural (bound : Nat) : Value → Reading Nat
  | .integer i =>
    if i + maxOfBits 63 < -1 ∨ maxOfBits 64 < i then fault .wrongType
    else if 0 ≤ i ∧ i ≤ bound then .ok i.toNat
    else fault .outOfRange
  | _ => fault .wrongType

/-- A value that may be null. -/
def optional (reading : Value → Reading β) : Value → Reading (Option β)
  | .null => .ok none
  | v => some <$> reading v

/-- The readings of items, the first of which has the given position. -/
def itemsFrom (reading : Value → Reading β) (position : Nat) : List Value → Reading (List β)
  | [] => .ok []
  | item :: rest => do
    let first ← below (toString position) (reading item)
    return first :: (← itemsFrom reading (position + 1) rest)

/-- A list. -/
def list (reading : Value → Reading β) : Value → Reading (List β)
  | .list items => itemsFrom reading 0 items
  | _ => fault .wrongType

/-- One of several named choices. -/
def choice (dialect : Dialect) (ofName? : String → Option β) : Value → Reading β
  | .text name =>
    match ofName? name with
    | some x => .ok x
    | none => fault .unknownChoice
  | .table entries =>
    match entries with
    | [] => fault .wrongType
    | (name, payload) :: more =>
      if dialect.soleChoice ∧ more ≠ [] then fault .wrongType
      else
        match ofName? name with
        | none => below name (fault .unknownChoice)
        | some x => if dialect.choicePayload payload then .ok x else below name (fault .wrongType)
  | _ => fault .wrongType

/-! ## Records -/

/-- The settings of a record in the order of the document: the key of a path, the setting's name
and its value. A list gives the settings in the order of their names. -/
def visit (dialect : Dialect) (names : List String) :
    Value → Reading (List (String × String × Value))
  | .table entries =>
    let known := (entries.map Prod.fst).filter names.contains
    if dialect.uniqueKeys ∧ ¬known.Nodup then fault .wrongType
    else .ok (entries.map fun entry => (entry.1, entry.1, entry.2))
  | .list items =>
    if dialect.exactLists ∧ names.length < items.length then fault .wrongLength
    else .ok (((List.range items.length).map toString).zip (names.zip items))
  | _ => fault .wrongType

/-- A record from its settings in the order of the document. -/
def record (dialect : Dialect) (names : List String) (set : β → String → Value → Reading β)
    (start : β) (v : Value) : Reading β := do
  (← visit dialect names v).foldlM
    (fun acc (key, name, value) => below key (set acc name value)) start

end Settings

open Settings

/-! ## The settings -/

/-- The names of the settings of a pass. -/
def Knobs.names : List String :=
  ["sample_size", "max_path_length", "seed", "ngram_size", "set_based"]

/-- Knobs with one setting changed. -/
def Knobs.set (knobs : Knobs) (name : String) (v : Document.Value) : Reading Knobs :=
  match name with
  | "sample_size" => return { knobs with sampleSize := ← natural (maxOfBits 64) v }
  | "max_path_length" => return { knobs with maxPathLength := ← natural (maxOfBits 64) v }
  | "seed" => return { knobs with seed := ← optional (natural (maxOfBits 64)) v }
  | "ngram_size" => return { knobs with ngramSize := ← natural (maxOfBits 64) v }
  | "set_based" => return { knobs with setBased := ← bool v }
  | _ => return knobs

/-- The settings of a pass. -/
def Knobs.ofValue (dialect : Dialect) : Document.Value → Reading Knobs :=
  record dialect Knobs.names Knobs.set Knobs.default

/-- The names of the settings of a slot. -/
def SlotSpec.names : List String := ["config", "annotation"]

/-- A slot's specification while it is read: its file may still be missing. -/
def SlotSpec.set (draft : Option String × Option String) (name : String) (v : Document.Value) :
    Reading (Option String × Option String) :=
  match name with
  | "config" => return (some (← text v), draft.2)
  | "annotation" => return (draft.1, ← optional text v)
  | _ => return draft

/-- A slot's specification. -/
def SlotSpec.ofValue (dialect : Dialect) (v : Document.Value) : Reading SlotSpec := do
  match ← record dialect SlotSpec.names SlotSpec.set (none, none) v with
  | (some config, annotation) => return ⟨config, annotation⟩
  | (none, _) =>
    match v with
    | .list _ => fault .wrongLength
    | _ => fault .missing

namespace Config

/-- The names of all settings. -/
def names : List String :=
  ["slots", "time_scale", "granularity", "max_time_per_slot", "rebalance", "scheduler_keys",
    "model_files", "metrics_prefix"]

/-- A configuration with one setting changed. -/
def set (dialect : Dialect) (config : Config) (name : String) (v : Document.Value) :
    Reading Config :=
  match name with
  | "slots" => return { config with slots := ← list (SlotSpec.ofValue dialect) v }
  | "time_scale" => return { config with scale := ← choice dialect Scale.ofName? v }
  | "granularity" => return { config with granularity := ← natural (maxOfBits 32) v }
  | "max_time_per_slot" => return { config with maxTimePerSlot := ← natural (maxOfBits 32) v }
  | "rebalance" => return { config with rebalance := ← Knobs.ofValue dialect v }
  | "scheduler_keys" => return { config with schedulerKeys := ← list text v }
  | "model_files" => return { config with modelFiles := ← list text v }
  | "metrics_prefix" => return { config with metricsPrefix := ← text v }
  | _ => return config

/-- The configuration of a value. -/
def ofValue (dialect : Dialect) : Document.Value → Reading Config :=
  record dialect names (set dialect) Config.default

/-- The settings that are read from a JSON text; unknown ones are passed over. -/
def wanted : Document.Json.Wanted :=
  let all (names : List String) : Document.Json.Wanted := .members (names.map (·, .whole))
  .members (names.map fun name =>
    (name, match name with
      | "slots" => .each (all SlotSpec.names)
      | "rebalance" => all Knobs.names
      | _ => .whole))

/-- The configuration of a JSON text. -/
def ofJson (source : String) : Option Config := do
  (ofValue Settings.json (← Document.Json.readPart wanted source)).toOption

/-- The configuration of a TOML text. -/
def ofToml (source : String) : Option Config := do
  (ofValue Settings.toml
    (Document.Toml.withoutMoments (.table (← Document.Toml.read source)))).toOption

end Config

end AlgorithmPortfolio
