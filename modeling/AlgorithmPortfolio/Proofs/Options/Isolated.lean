import AlgorithmPortfolio.Options
import AlgorithmPortfolio.Proofs.Dict.Entries

/-!
# The layers of a slot's options

What a slot's file says goes before everything else. Keys of the scheduler are hidden in the
global options only, so a slot may still set them for itself.

- `Layered`: where each option comes from. There is one way to meet it (`layered_iff`).
- `Layered.again`: options that were laid out once are not changed by doing so again.
- `layered_congr`: of the scheduler's keys it only matters which ones they are.
- `isolated_by_layers`: the options of a slot's file, and what becomes of a file that cannot be
  loaded.
-/

namespace AlgorithmPortfolio.Options

/-! ## Layers -/

/-- Options under each key of which stands the slot's own value. Where the slot has none, keys
of the scheduler have no value, and all other keys have the global one. -/
structure Layered (globals : Options) (schedulerKeys : List String) (own options : Options) :
    Prop where
  own_first : ∀ key value, own.get? key = some value → options.get? key = some value
  scheduler_hidden : ∀ key ∈ schedulerKeys, own.get? key = none → options.get? key = none
  global_last : ∀ key, key ∉ schedulerKeys →
    own.get? key = none → options.get? key = globals.get? key

variable {globals own options : Options} {schedulerKeys others : List String}

theorem layered_isolate (globals : Options) (schedulerKeys : List String) (own : Options) :
    Layered globals schedulerKeys own (isolate globals schedulerKeys own) where
  own_first key value hown := by rw [get?_isolate, hown, Option.some_or]
  scheduler_hidden key hkey hown := by rw [get?_isolate, hown, Option.none_or, if_pos hkey]
  global_last key hkey hown := by rw [get?_isolate, hown, Option.none_or, if_neg hkey]

/-- Each layer says what stands under its keys, and every key belongs to one. -/
theorem Layered.unique {options' : Options} (h : Layered globals schedulerKeys own options)
    (h' : Layered globals schedulerKeys own options') : options = options' := by
  refine Dict.ext_get? fun key => ?_
  cases hown : own.get? key with
  | some value => rw [h.own_first key value hown, h'.own_first key value hown]
  | none =>
    by_cases hkey : key ∈ schedulerKeys
    · rw [h.scheduler_hidden key hkey hown, h'.scheduler_hidden key hkey hown]
    · rw [h.global_last key hkey hown, h'.global_last key hkey hown]

theorem layered_iff :
    Layered globals schedulerKeys own options ↔ options = isolate globals schedulerKeys own := by
  constructor
  · intro h
    exact h.unique (layered_isolate globals schedulerKeys own)
  · rintro rfl
    exact layered_isolate globals schedulerKeys own

/-- Laid out once more, the options stay as they are. -/
theorem Layered.again (h : Layered globals schedulerKeys own options) :
    Layered options schedulerKeys own options where
  own_first := h.own_first
  scheduler_hidden := h.scheduler_hidden
  global_last _ _ _ := rfl

/-- Neither the order of the scheduler's keys nor how often they are named matters. -/
theorem layered_congr (same : ∀ key, key ∈ others ↔ key ∈ schedulerKeys) :
    Layered globals others own options ↔ Layered globals schedulerKeys own options := by
  constructor
  · intro h
    exact ⟨h.own_first, fun key hkey => h.scheduler_hidden key ((same key).mpr hkey),
      fun key hkey => h.global_last key (mt (same key).mp hkey)⟩
  · intro h
    exact ⟨h.own_first, fun key hkey => h.scheduler_hidden key ((same key).mp hkey),
      fun key hkey => h.global_last key (mt (same key).mpr hkey)⟩

theorem isolate_isolate (globals : Options) (schedulerKeys : List String) (own : Options) :
    isolate (isolate globals schedulerKeys own) schedulerKeys own =
      isolate globals schedulerKeys own :=
  (layered_iff.mp (layered_isolate globals schedulerKeys own).again).symm

theorem isolate_congr (same : ∀ key, key ∈ others ↔ key ∈ schedulerKeys) :
    isolate globals others own = isolate globals schedulerKeys own :=
  layered_iff.mp ((layered_congr same).mp (layered_isolate globals others own))

/-! ## Options of a file -/

variable {tree : Storage.Tree} {path : String}

theorem isolated_of_load (h : load tree path = .ok own) (globals : Options)
    (schedulerKeys : List String) :
    isolated tree globals schedulerKeys path = .ok (isolate globals schedulerKeys own) := by
  rw [isolated, h]
  rfl

theorem isolated_of_error {error : PortfolioError} (h : load tree path = .error error)
    (globals : Options) (schedulerKeys : List String) :
    isolated tree globals schedulerKeys path = .error error := by
  rw [isolated, h]
  rfl

/-- **The layers of a slot's options.** A file that loads gives options in which its own values
come first, then nothing for keys of the scheduler, then the global values. Isolating these
options once more, with the same keys and the same file, changes nothing. A file that does not
load gives its error, whatever the global options and the keys are. Keys in another order, or
named more often, give the same options or the same error. -/
theorem isolated_by_layers (tree : Storage.Tree) (globals : Options) (schedulerKeys : List String)
    (path : String) :
    (∀ own, load tree path = .ok own → ∃ options,
      isolated tree globals schedulerKeys path = .ok options ∧
      Layered globals schedulerKeys own options ∧
        isolated tree options schedulerKeys path = .ok options) ∧
      (∀ error, load tree path = .error error →
        isolated tree globals schedulerKeys path = .error error) ∧
      ∀ others, (∀ key, key ∈ others ↔ key ∈ schedulerKeys) →
        isolated tree globals others path = isolated tree globals schedulerKeys path := by
  refine ⟨?_, ?_, ?_⟩
  · intro own hload
    refine ⟨_, isolated_of_load hload globals schedulerKeys,
      layered_isolate globals schedulerKeys own, ?_⟩
    rw [isolated_of_load hload, isolate_isolate]
  · intro error hload
    exact isolated_of_error hload globals schedulerKeys
  · -- the file is read first, whatever the keys of the scheduler are
    intro others same
    cases hload : load tree path with
    | error error => rw [isolated_of_error hload, isolated_of_error hload]
    | ok own => rw [isolated_of_load hload, isolated_of_load hload, isolate_congr same]

/-- A file that loads has the options with its entries. -/
theorem exists_of_entries {entries : List (String × String)}
    (h : (load tree path).toOption.map Dict.entries = some entries) :
    ∃ own, load tree path = .ok own ∧ own.entries = entries := by
  cases hload : load tree path with
  | error error =>
    rw [hload] at h
    cases h
  | ok own =>
    rw [hload] at h
    exact ⟨own, rfl, Option.some.inj h⟩

/-- A slot that sets one key of the scheduler and one global key for itself. Another key of the
scheduler is hidden, and naming the keys twice and in another order changes nothing. -/
theorem isolated_by_layers_overlapping :
    let tree := Storage.Tree.empty.put ["a.toml"] (.file (some "[run]\nlimit = 7\nmode = 'own'\n"))
    let globals :=
      Dict.ofList [("log", "info"), ("run.limit", "100"), ("run.mode", "all"), ("run.seed", "3")]
    let keys := ["run.mode", "run.seed", "absent"]
    let others := ["run.seed", "absent", "run.mode", "run.seed"]
    (∃ own, load tree "a.toml" = .ok own ∧ own.get? "run.mode" = some "own" ∧
      own.get? "run.seed" = none) ∧
      (∀ key, key ∈ others ↔ key ∈ keys) ∧
      ∃ options, isolated tree globals others "a.toml" = .ok options ∧
        isolated tree options keys "a.toml" = .ok options ∧ options.get? "run.mode" = some "own" ∧
        options.get? "run.seed" = none ∧ options.get? "log" = some "info" := by
  intro tree globals keys others
  obtain ⟨own, hload, hentries⟩ : ∃ own, load tree "a.toml" = .ok own ∧
      own.entries = [("run.limit", "7"), ("run.mode", "own")] :=
    exists_of_entries (by decide +kernel)
  have hown (key : String) :
      own.get? key = lookup key [("run.limit", "7"), ("run.mode", "own")] := by
    rw [Dict.get?, hentries]
  have hmode : own.get? "run.mode" = some "own" := hown "run.mode"
  have hseed : own.get? "run.seed" = none := hown "run.seed"
  have same : ∀ key, key ∈ others ↔ key ∈ keys := by
    simp only [others, keys, List.mem_cons, List.not_mem_nil]
    grind
  obtain ⟨hlayers, -, hkeys⟩ := isolated_by_layers tree globals keys "a.toml"
  obtain ⟨options, hoptions, hlayered, hagain⟩ := hlayers own hload
  refine ⟨⟨own, hload, hmode, hseed⟩, same, options, (hkeys others same).trans hoptions, hagain,
    ?_, ?_, ?_⟩
  · exact hlayered.own_first "run.mode" "own" hmode
  · exact hlayered.scheduler_hidden "run.seed" (by simp [keys]) hseed
  · exact hlayered.global_last "log" (by simp [keys]) (hown "log")

end AlgorithmPortfolio.Options
