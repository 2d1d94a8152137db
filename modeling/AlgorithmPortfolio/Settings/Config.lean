import AlgorithmPortfolio.Document.Value
import AlgorithmPortfolio.Error
import AlgorithmPortfolio.SlotSpec
import AlgorithmPortfolio.TimeMenu

/-!
# Configurations

- `Knobs`: the settings of the reallocation pass.
- `Config`: all settings of a portfolio, with their defaults.
- `Config.validate`: the settings that have to be positive (`Config.pos_of_mem_positives`).
- `Config.menu`: the time menu of the settings. Valid settings have one (`Config.exists_menu`).
- `Config.toValue`: the settings as a document.
-/

namespace AlgorithmPortfolio

open Document (Value)

/-- Settings of the reallocation pass. -/
structure Knobs where
  /-- How many targets a pass samples. -/
  sampleSize : Nat
  /-- How many tokens of a sampled path count. -/
  maxPathLength : Nat
  /-- The seed of the sampling; without one the stream comes from outside. -/
  seed : Option Nat
  /-- The greatest number of labels in one token of a model. -/
  ngramSize : Nat
  /-- Whether a model counts a token once per path. -/
  setBased : Bool
  deriving DecidableEq, Repr

/-- The default settings of the pass. -/
def Knobs.default : Knobs := ⟨10, 512, none, 1, true⟩

instance : Inhabited Knobs := ⟨Knobs.default⟩

/-- All settings of a portfolio. -/
structure Config where
  slots : List SlotSpec
  scale : Scale
  granularity : Nat
  maxTimePerSlot : Nat
  rebalance : Knobs
  /-- Global options that only concern the scheduler and are withheld from engines. -/
  schedulerKeys : List String
  /-- Model files by the position of their slots. -/
  modelFiles : List String
  metricsPrefix : String
  deriving DecidableEq, Repr

namespace Config

/-- The default settings. -/
def default : Config where
  slots := []
  scale := .uniform
  granularity := 20
  maxTimePerSlot := 100
  rebalance := Knobs.default
  schedulerKeys := ["portfolio.slots", "analysis.usePortfolio"]
  modelFiles := []
  metricsPrefix := "portfolio"

instance : Inhabited Config := ⟨Config.default⟩

/-- The settings that have to be positive, in the order in which they are checked. -/
def positives (config : Config) : List (String × Nat) := [
  ("granularity", config.granularity),
  ("max_time_per_slot", config.maxTimePerSlot),
  ("rebalance.sample_size", config.rebalance.sampleSize),
  ("rebalance.max_path_length", config.rebalance.maxPathLength)]

/-- Refuse settings of zero that have to be positive. -/
def validate (config : Config) : Except PortfolioError Unit :=
  match config.positives.find? fun setting => setting.2 = 0 with
  | some (key, _) => .error (.notPositive key)
  | none => .ok ()

/-- The time menu of the settings. -/
def menu (config : Config) : Except PortfolioError TimeMenu :=
  match TimeMenu.make? config.scale config.maxTimePerSlot config.granularity with
  | some menu => .ok menu
  | none => .error (.invalidTimeMenu config.maxTimePerSlot config.granularity)

/-- Of valid settings those that have to be positive are. -/
theorem pos_of_mem_positives {config : Config} (h : config.validate = .ok ()) :
    ∀ setting ∈ config.positives, 0 < setting.2 := by
  have hnone : config.positives.find? (fun setting => setting.2 = 0) = none := by
    unfold validate at h
    cases hfind : config.positives.find? fun setting => setting.2 = 0 with
    | none => rfl
    | some setting =>
      rw [hfind] at h
      cases h
  intro setting hsetting
  have hzero := List.find?_eq_none.mp hnone setting hsetting
  exact Nat.pos_of_ne_zero fun heq => hzero (decide_eq_true heq)

/-- Valid settings have a menu, which is the one of their scale, cap and granularity. -/
theorem exists_menu {config : Config} (h : config.validate = .ok ()) :
    ∃ menu, config.menu = .ok menu ∧ menu.scale = config.scale ∧ menu.cap = config.maxTimePerSlot ∧
      menu.granularity = config.granularity := by
  have hpositive := pos_of_mem_positives h
  have hgranularity : 0 < config.granularity :=
    hpositive ("granularity", config.granularity) (by simp [positives])
  have hcap : 0 < config.maxTimePerSlot :=
    hpositive ("max_time_per_slot", config.maxTimePerSlot) (by simp [positives])
  refine ⟨⟨config.scale, config.maxTimePerSlot, config.granularity, hcap, hgranularity⟩, ?_,
    rfl, rfl, rfl⟩
  simp only [menu, TimeMenu.make?, dif_pos (And.intro hcap hgranularity)]

end Config

/-! ## Settings as documents -/

/-- A list of texts. -/
def textsValue (texts : List String) : Value := .list (texts.map .text)

/-- A slot's specification; an absent annotation is left out. -/
def SlotSpec.toValue (spec : SlotSpec) : Value :=
  .table ((match spec.annotation with
    | some annotation => [("annotation", .text annotation)]
    | none => []) ++ [("config", .text spec.config)])

/-- The settings of the pass, keys ascending; an absent seed is left out. -/
def Knobs.toValue (knobs : Knobs) : Value :=
  .table ([("max_path_length", .integer knobs.maxPathLength),
    ("ngram_size", .integer knobs.ngramSize), ("sample_size", .integer knobs.sampleSize)] ++
    (match knobs.seed with
    | some seed => [("seed", .integer seed)]
    | none => []) ++ [("set_based", .bool knobs.setBased)])

/-- Slot specifications. -/
def specsValue (specs : List SlotSpec) : Value := .list (specs.map SlotSpec.toValue)

/-- All settings, keys ascending. -/
def Config.toValue (config : Config) : Value :=
  .table [("granularity", .integer config.granularity),
    ("max_time_per_slot", .integer config.maxTimePerSlot),
    ("metrics_prefix", .text config.metricsPrefix),
    ("model_files", textsValue config.modelFiles),
    ("rebalance", config.rebalance.toValue),
    ("scheduler_keys", textsValue config.schedulerKeys),
    ("slots", specsValue config.slots),
    ("time_scale", .text config.scale.name)]

end AlgorithmPortfolio
