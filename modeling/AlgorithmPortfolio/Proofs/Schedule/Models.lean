import AlgorithmPortfolio.Proofs.Portfolio.Index
import AlgorithmPortfolio.Proofs.Schedule.Run
import AlgorithmPortfolio.Schedule.Setup

/-!
# Models from files

Settings name model files by the position of their slots. A set-up reads them in that order and
puts them into a dictionary by identifier, out of which a schedule then takes the models of its
slots.

- `Setup.modelAt`: the model that the settings have for a position.
- `Setup.bind_eq_ok`, `Setup.lift_eq_ok`: what a set-up that succeeds went through.
- `exists_of_modelsFrom`: the dictionary is made of the models of all positions.
- `get?_of_modelsFrom`: it has the model of the last position with an identifier.
- `RoundRobin.ByPosition`: every slot has the model of its own position.
- `models_of_files`: which models a schedule has, and that these are by position exactly if
  repeated identifiers come with models that say the same.
- `models_of_files_twice`: two slots with one identifier and a file for the first one only.
-/

namespace AlgorithmPortfolio

variable {σ α : Type} [Arith α]

/-! ## Set-ups -/

namespace Setup

/-- The model that the settings have for a position: that of its file, or an empty one. -/
def modelAt (tree : Storage.Tree) (config : Config) (position : Nat) :
    Except PortfolioError TokenModel :=
  let knobs := config.rebalance
  match config.modelFiles[position]? with
  | some file => TokenModel.load tree file knobs.ngramSize knobs.setBased
  | none => .ok (TokenModel.fresh knobs.ngramSize knobs.setBased)

/-- A step that succeeds is followed by the next one. -/
theorem bind_eq_ok {β γ : Type} {first : Setup β} {next : β → Setup γ}
    {registry after : Registry} {c : γ} (h : (first >>= next).run registry = (.ok c, after)) :
    ∃ b between, first.run registry = (.ok b, between) ∧ (next b).run between = (.ok c, after) := by
  simp only [bind, ExceptT.bind, ExceptT.run, ExceptT.mk, StateT.bind] at h
  rcases hfirst : first registry with ⟨cause | b, between⟩
  · rw [hfirst] at h
    cases h
  · rw [hfirst] at h
    exact ⟨b, between, hfirst, h⟩

/-- A step that cannot register anything. -/
theorem lift_eq_ok {β : Type} {step : Except PortfolioError β} {registry after : Registry}
    {b : β} (h : (liftM step : Setup β).run registry = (.ok b, after)) :
    step = .ok b ∧ after = registry := by
  cases step with
  | error cause => cases h
  | ok b =>
    cases h
    exact ⟨rfl, rfl⟩

end Setup

open Setup

/-- A schedule from settings with model files starts with the models that were read, whatever
metrics it gets. -/
theorem Builder.of_roundRobinFromFiles [PathSampler σ] {tree : Storage.Tree} {sampler : σ}
    {unseeded : Generator} {builder : Builder} {registry after : Registry}
    {schedule : RoundRobin σ α}
    (h : (builder.roundRobinFromFiles tree sampler unseeded).run registry = (.ok schedule, after)) :
    ∃ config models portfolio, builder.config = .ok config ∧
      modelsFrom tree config 0 Dict.empty config.slots = .ok models ∧
      Portfolio.ofSpecs config.slots = .ok portfolio ∧ schedule.portfolio = portfolio ∧
      schedule.models = portfolio.slots.map fun slot => models.get? slot.id := by
  obtain ⟨config, _, hconfig, h⟩ := bind_eq_ok h
  obtain ⟨models, _, hmodels, h⟩ := bind_eq_ok h
  obtain ⟨portfolio, _, hportfolio, h⟩ := bind_eq_ok h
  obtain ⟨metrics, _, -, h⟩ := bind_eq_ok h
  obtain ⟨started, _, hstarted, h⟩ := bind_eq_ok h
  cases h
  obtain ⟨generator, rfl⟩ := RoundRobin.exists_of_start (lift_eq_ok hstarted).1
  exact ⟨config, models, portfolio, (lift_eq_ok hconfig).1, (lift_eq_ok hmodels).1,
    (lift_eq_ok hportfolio).1, rfl, rfl⟩

/-! ## The dictionary of models -/

theorem modelsFrom_cons (tree : Storage.Tree) (config : Config) (position : Nat)
    (models : Dict (PathModel α)) (spec : SlotSpec) (rest : List SlotSpec) :
    modelsFrom tree config position models (spec :: rest) =
      (modelAt tree config position).bind fun model =>
        modelsFrom tree config (position + 1) (models.insert spec.config model.pathModel) rest := by
  rw [modelsFrom, modelAt]
  cases config.modelFiles[position]? with
  | none => rfl
  | some file => rfl

/-- The models of all positions are read, and put in by identifier. -/
theorem exists_of_modelsFrom {tree : Storage.Tree} {config : Config} {position : Nat}
    {models after : Dict (PathModel α)} {specs : List SlotSpec}
    (h : modelsFrom tree config position models specs = .ok after) :
    ∃ read : List TokenModel,
      read.map Except.ok = (List.range' position specs.length).map (modelAt tree config) ∧
      after = models.insertAll
        ((specs.map SlotSpec.config).zip (read.map TokenModel.pathModel)) := by
  induction specs generalizing position models with
  | nil =>
    cases h
    exact ⟨[], rfl, rfl⟩
  -- the first file that cannot be read ends the loop, so on success all of them are read
  | cons spec rest ih =>
    rw [modelsFrom_cons] at h
    cases hmodel : modelAt tree config position with
    | error cause =>
      rw [hmodel] at h
      cases h
    | ok model =>
      rw [hmodel] at h
      obtain ⟨read, hread, hafter⟩ := ih h
      refine ⟨model :: read, ?_, hafter⟩
      rw [List.map_cons, hread, List.length_cons, List.range'_succ, List.map_cons, hmodel]

/-- Of each identifier there is the model of its last position. -/
theorem get?_of_modelsFrom {tree : Storage.Tree} {config : Config} {models : Dict (PathModel α)}
    (h : modelsFrom tree config 0 Dict.empty config.slots = .ok models) :
    (∀ position, position < config.slots.length →
      ∃ model, modelAt tree config position = .ok model) ∧
      ∀ {id : String} {last : Nat} {model : TokenModel},
        Portfolio.IsLast (config.slots.map SlotSpec.config) id last →
        modelAt tree config last = .ok model → models.get? id = some model.pathModel := by
  obtain ⟨read, hread, rfl⟩ := exists_of_modelsFrom h
  have hlength : read.length = config.slots.length := by
    have hlengths := congrArg List.length hread
    simpa using hlengths
  have hmodel {position : Nat} (hlt : position < config.slots.length) :
      (read[position]?).map Except.ok = some (modelAt tree config position) := by
    rw [← List.getElem?_map, hread, List.getElem?_map, List.getElem?_range' hlt, Nat.zero_add,
      Nat.one_mul]
    rfl
  constructor
  · intro position hlt
    obtain ⟨model, -, hmodel⟩ := Option.map_eq_some_iff.mp (hmodel hlt)
    exact ⟨model, hmodel.symm⟩
  · intro id last model hlast hat
    have hids : (config.slots.map SlotSpec.config).length =
        (read.map (TokenModel.pathModel (α := α))).length := by
      rw [List.length_map, List.length_map, hlength]
    have hlt : last < config.slots.length := by
      have hhere := (List.getElem?_eq_some_iff.mp hlast.here).1
      rwa [List.length_map] at hhere
    have hlast' := hlast
    -- the last slot of a name wins in the map of models
    rw [← List.map_fst_zip (Nat.le_of_eq hids)] at hlast'
    rw [Portfolio.get?_insertAll_of_isLast hlast', List.map_snd_zip (Nat.le_of_eq hids.symm),
      List.getElem?_map]
    obtain ⟨found, hfound, heq⟩ := Option.map_eq_some_iff.mp (hmodel hlt)
    rw [hat] at heq
    cases heq
    rw [hfound]
    rfl

/-! ## The models of a schedule -/

/-- Whether every slot has the model of its own position. -/
def RoundRobin.ByPosition (tree : Storage.Tree) (config : Config) (schedule : RoundRobin σ α) :
    Prop :=
  ∀ position, position < config.slots.length → ∃ model, modelAt tree config position = .ok model ∧
    schedule.models[position]? = some (some model.pathModel)

variable [PathSampler σ]

/-- **Whose model a slot gets.** If a schedule is made from settings with model files, then all
of its model files could be read, and every slot has the model of the last position with its
identifier. So all slots have the models of their own positions exactly if this model says the
same as theirs: always if the identifiers are distinct, but not if a later slot with the same
identifier has another file or none. -/
theorem models_of_files {tree : Storage.Tree} {sampler : σ}
    {unseeded : Generator} {builder : Builder}
    {registry after : Registry} {schedule : RoundRobin σ α}
    (made : (builder.roundRobinFromFiles tree sampler unseeded).run registry =
      (.ok schedule, after)) :
    ∃ config, builder.config = .ok config ∧
      schedule.portfolio.slots = config.slots.map Slot.ofSpec ∧
      (∀ position, position < config.slots.length →
        ∃ model, modelAt tree config position = .ok model) ∧
      (∀ {position last : Nat} {spec : SlotSpec}, config.slots[position]? = some spec →
        Portfolio.IsLast (config.slots.map SlotSpec.config) spec.config last →
          ∃ model, modelAt tree config last = .ok model ∧
            schedule.models[position]? = some (some model.pathModel)) ∧
      (schedule.ByPosition tree config ↔
        ∀ {position last : Nat} {spec : SlotSpec}, config.slots[position]? = some spec →
          Portfolio.IsLast (config.slots.map SlotSpec.config) spec.config last →
            (modelAt tree config position).map (TokenModel.pathModel (α := α)) =
              (modelAt tree config last).map TokenModel.pathModel) ∧
      ((config.slots.map SlotSpec.config).Nodup → schedule.ByPosition tree config) := by
  obtain ⟨config, models, portfolio, hconfig, hmodels, hportfolio, hschedule, hassigned⟩ :=
    Builder.of_roundRobinFromFiles made
  obtain ⟨hread, hlookup⟩ := get?_of_modelsFrom hmodels
  have hslots := (Portfolio.of_ofSlots hportfolio).2.1
  have hlast {position last : Nat} {spec : SlotSpec} (hspec : config.slots[position]? = some spec)
      (hlast : Portfolio.IsLast (config.slots.map SlotSpec.config) spec.config last) :
      ∃ model, modelAt tree config last = .ok model ∧
        schedule.models[position]? = some (some model.pathModel) := by
    -- the map has one model for each name, that of the last slot
    have hlt := (List.getElem?_eq_some_iff.mp hlast.here).1
    rw [List.length_map] at hlt
    obtain ⟨model, hmodel⟩ := hread last hlt
    refine ⟨model, hmodel, ?_⟩
    rw [hassigned, hslots, List.getElem?_map, List.getElem?_map, hspec]
    exact congrArg some (hlookup hlast hmodel)
  have hiff : schedule.ByPosition tree config ↔
      ∀ {position last : Nat} {spec : SlotSpec}, config.slots[position]? = some spec →
        Portfolio.IsLast (config.slots.map SlotSpec.config) spec.config last →
          (modelAt tree config position).map (TokenModel.pathModel (α := α)) =
            (modelAt tree config last).map TokenModel.pathModel := by
    constructor
    · intro hown position last spec hspec hlater
      -- the slot's own model and the last one of its name are both the one assigned
      obtain ⟨own, hmodel, hat⟩ := hown position (List.getElem?_eq_some_iff.mp hspec).1
      obtain ⟨later, hmodel', hat'⟩ := hlast hspec hlater
      rw [hat', Option.some.injEq, Option.some.injEq] at hat
      rw [hmodel, hmodel']
      exact congrArg Except.ok hat.symm
    · intro hsame position hlt
      have hspec := List.getElem?_eq_getElem hlt
      obtain ⟨last, hlater⟩ := Portfolio.exists_isLast
        (List.mem_map_of_mem (List.mem_of_getElem? hspec))
      obtain ⟨own, hmodel⟩ := hread position hlt
      obtain ⟨later, hmodel', hat⟩ := hlast hspec hlater
      have heq := hsame hspec hlater
      rw [hmodel, hmodel'] at heq
      have hpath : (own.pathModel : PathModel α) = later.pathModel := Except.ok.inj heq
      exact ⟨own, hmodel, by rw [hat, hpath]⟩
  refine ⟨config, hconfig, by rw [hschedule, hslots], hread, hlast, hiff, fun distinct =>
    hiff.mpr ?_⟩
  -- without repeated names each slot is the last one of its own
  intro position last spec hspec hlater
  have hid : (config.slots.map SlotSpec.config)[position]? = some spec.config := by
    rw [List.getElem?_map, hspec]
    rfl
  rw [(Portfolio.isLast_of_nodup distinct hid).unique hlater]

/-! ### A file for the first slot only -/

/-- The tokens that the models of a schedule know, by slot. -/
def RoundRobin.vocabularies (schedule : RoundRobin σ α) : List (Option (List String)) :=
  schedule.models.map (Option.map PathModel.vocabulary)

omit [PathSampler σ] [Arith α] in
theorem exists_of_vocabularies {result : Except PortfolioError (RoundRobin σ α) × Registry}
    {tokens : List (Option (List String))}
    (h : result.1.toOption.map RoundRobin.vocabularies = some tokens) :
    ∃ schedule after, result = (.ok schedule, after) ∧ schedule.vocabularies = tokens := by
  obtain ⟨answer, after⟩ := result
  cases answer with
  | error cause => cases h
  | ok schedule => exact ⟨schedule, after, rfl, Option.some.inj h⟩

/-- A file of settings that names one model file, next to that file. -/
def filesOfFirst : Storage.Tree :=
  (Storage.Tree.empty.put ["a.tsv"] (.file (some "T1\t9\n"))).put ["first.toml"]
    (.file (some "model_files = ['a.tsv']\n"))

/-- These settings with slots. -/
def withFirstFile (ids : List String) : Builder :=
  (Builder.start.file filesOfFirst "first.toml").appendSlots (ids.map fun id => ⟨id, none⟩)

/-- Slots with different identifiers: the first one has the model of the file, the second one an
empty model, each by its position. -/
theorem models_of_files_distinct :
    ∃ (schedule : RoundRobin PathFunction Float) (after : Registry) (config : Config),
      ((withFirstFile ["a", "b"]).roundRobinFromFiles filesOfFirst ⟨fun _ _ => []⟩
          (Generator.ofSeed 3)).run Registry.empty = (.ok schedule, after) ∧
        (withFirstFile ["a", "b"]).config = .ok config ∧ schedule.ByPosition filesOfFirst config ∧
        schedule.vocabularies = [some ["T1"], some []] := by
  have hrun :
      (((withFirstFile ["a", "b"]).roundRobinFromFiles filesOfFirst
        (⟨fun _ _ => []⟩ : PathFunction) (Generator.ofSeed 3)).run Registry.empty).1.toOption.map
        (@RoundRobin.vocabularies PathFunction Float) = some [some ["T1"], some []] := by
    decide +kernel
  have hids : (withFirstFile ["a", "b"]).config.toOption.map (fun config =>
      config.slots.map SlotSpec.config) = some ["a", "b"] := by
    decide +kernel
  obtain ⟨schedule, after, made, htokens⟩ := exists_of_vocabularies hrun
  obtain ⟨config, hconfig, -, -, -, -, hdistinct⟩ := models_of_files made
  rw [hconfig] at hids
  have hdifferent : config.slots.map SlotSpec.config = ["a", "b"] := Option.some.inj hids
  have hnodup : (config.slots.map SlotSpec.config).Nodup := by
    rw [hdifferent]
    decide
  exact ⟨schedule, after, config, made, hconfig, hdistinct hnodup, htokens⟩

/-- Twice the same identifier: the file of the first slot is read, but its slot has the empty
model of the second one. -/
theorem models_of_files_twice :
    ∃ (schedule : RoundRobin PathFunction Float) (after : Registry) (config : Config),
      ((withFirstFile ["a", "a"]).roundRobinFromFiles filesOfFirst ⟨fun _ _ => []⟩
          (Generator.ofSeed 3)).run Registry.empty = (.ok schedule, after) ∧
        (withFirstFile ["a", "a"]).config = .ok config ∧
        (modelAt filesOfFirst config 0).toOption.map TokenModel.vocabulary = some ["T1"] ∧
        schedule.vocabularies = [some [], some []] ∧ ¬schedule.ByPosition filesOfFirst config := by
  -- the program is run as it is on the two slots, and the model of the first is empty
  have hrun :
      (((withFirstFile ["a", "a"]).roundRobinFromFiles filesOfFirst
        (⟨fun _ _ => []⟩ : PathFunction) (Generator.ofSeed 3)).run Registry.empty).1.toOption.map
        (@RoundRobin.vocabularies PathFunction Float) = some [some [], some []] := by
    decide +kernel
  have hfile : (withFirstFile ["a", "a"]).config.toOption.map (fun config => (config.slots.length,
      (modelAt filesOfFirst config 0).toOption.map TokenModel.vocabulary)) =
        some (2, some ["T1"]) := by
    decide +kernel
  obtain ⟨schedule, after, made, htokens⟩ := exists_of_vocabularies hrun
  obtain ⟨config, _, _, hconfig, -⟩ := Builder.of_roundRobinFromFiles made
  rw [hconfig] at hfile
  obtain ⟨hlength, hfirst⟩ := Prod.mk.inj (Option.some.inj hfile)
  refine ⟨schedule, after, config, made, hconfig, hfirst, htokens, fun hown => ?_⟩
  obtain ⟨model, hmodel, hat⟩ := hown 0 (by omega)
  rw [hmodel] at hfirst
  have hslot : schedule.vocabularies[0]? = some (some model.vocabulary) := by
    rw [RoundRobin.vocabularies, List.getElem?_map, hat]
    rfl
  have hlearned : model.vocabulary = ["T1"] := Option.some.inj hfirst
  rw [htokens, hlearned] at hslot
  exact absurd hslot (by decide)

end AlgorithmPortfolio
