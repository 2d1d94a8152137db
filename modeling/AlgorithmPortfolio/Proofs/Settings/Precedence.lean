import AlgorithmPortfolio.Proofs.Settings.Keys
import AlgorithmPortfolio.Proofs.Settings.Layers

/-!
# The order of sources

A builder lays every source over the ones before it when it is called. The documented order goes
by kinds: files, environment variables, settings made in code, command lines. So it is for the
caller to keep to it.

- `decided`: what stands at a path after calls, by the last of them that says something about
  it.
- `settings_after`: the settings are what the calls decide, and a configuration is read from
  them (`exists_decided`).
- `documented`: the calls in the documented order. It decides by the rank of kinds, `ranked`
  (`decided_documented`).
- `config_of_calls`: every key of a configuration is read from what the last call said, and
  which orders of the calls make the same settings.
- `config_of_calls_late_file`: a file that is named after a setting in code overrides it.
-/

namespace AlgorithmPortfolio.Builder

open Document (Value Shape)

/-! ## The configuration -/

/-- What stands at a path after calls: what the last of them said about it, and else the
default. -/
def decided (tree : Storage.Tree) (values : Dict String) (calls : List Call) (path : List String) :
    Option Shape :=
  (Value.decision path (layersOf tree values [] calls)).getD (Config.default.toValue.shape? path)

/-- The settings after calls that can all be read. -/
theorem settings_after (tree : Storage.Tree) (values : Dict String) {calls : List Call}
    (readable : ∀ call ∈ calls, call.isReadable tree = true) :
    ∃ settings, (after tree values calls).settings = .ok settings ∧ settings.Ordered ∧
      ∀ path, settings.shape? path = decided tree values calls path := by
  have hlayers := ordered_layersOf tree values [] calls
  obtain ⟨slots, hlays⟩ := lays_after tree values readable start
  refine ⟨_, hlays.settings, Value.ordered_foldl_overlay hlayers ordered_default, ?_⟩
  intro path
  exact Value.shape?_foldl_overlay hlayers _ path

/-- A configuration is extracted from settings that could be read. -/
theorem extract_eq_ok_iff {builder : Builder} {config : Config} :
    builder.extract = .ok config ↔
      ∃ settings, builder.settings = .ok settings ∧
        Config.ofValue Settings.merged settings = .ok config := by
  rw [extract]
  cases builder.settings with
  | error fault =>
    constructor
    · intro h
      cases h
    · rintro ⟨settings, h, -⟩
      cases h
  | ok settings =>
    constructor
    · intro h
      exact ⟨settings, rfl, h⟩
    · rintro ⟨settings', h, hread⟩
      cases h
      exact hread

theorem extract_of_config {builder : Builder} {config : Config} (h : builder.config = .ok config) :
    builder.extract = .ok config := by
  rw [Builder.config] at h
  -- to be extracted is the first of two steps, and the second changes nothing
  cases hextract : builder.extract with
  | error fault =>
    rw [hextract] at h
    cases h
  | ok extracted =>
    rw [hextract] at h
    change (extracted.validate.map _) = _ at h
    cases hvalid : extracted.validate with
    | error cause =>
      rw [hvalid] at h
      cases h
    | ok =>
      rw [hvalid] at h
      cases h
      rfl

/-- A configuration is read from the settings that the calls decide. -/
theorem exists_decided {tree : Storage.Tree} {values : Dict String} {calls : List Call}
    {config : Config} (h : (after tree values calls).extract = .ok config) :
    ∃ settings, (after tree values calls).settings = .ok settings ∧ settings.Ordered ∧
      (∀ path, settings.shape? path = decided tree values calls path) ∧
      Config.ofValue Settings.merged settings = .ok config := by
  obtain ⟨settings, hsettings, hread⟩ := extract_eq_ok_iff.mp h
  obtain ⟨settings', hsettings', ordered, hshape⟩ :=
    settings_after tree values (readable_of_settings hsettings).1
  obtain rfl := Except.ok.inj (hsettings.symm.trans hsettings')
  exact ⟨settings, hsettings, ordered, hshape, hread⟩

theorem exists_of_config {builder : Builder} {config : Config} (h : builder.config = .ok config) :
    ∃ settings, builder.settings = .ok settings ∧
      Config.ofValue Settings.merged settings = .ok config :=
  extract_eq_ok_iff.mp (extract_of_config h)

/-- Builders with the same settings have the same configuration. -/
theorem config_congr {builder other : Builder} (h : other.settings = builder.settings) :
    other.config = builder.config := by
  rw [Builder.config, Builder.config, extract, extract, h]

/-! ## The documented order -/

/-- The kinds of sources in the documented order. -/
inductive Kind
  | file
  | environment
  | code
  | commandLine
  deriving DecidableEq, Repr

/-- The kind of source that a call adds. -/
def Call.kind : Call → Kind
  | .file _ => .file
  | .environment _ => .environment
  | .arguments _ => .commandLine
  | _ => .code

/-- The calls in the documented order, those of one kind as they came. -/
def documented (calls : List Call) : List Call :=
  [Kind.file, .environment, .code, .commandLine].flatMap fun kind =>
    calls.filter fun call => call.kind = kind

/-- The calls of the four kinds, one kind after the other. -/
theorem documented_eq (calls : List Call) :
    documented calls = calls.filter (·.kind = .file) ++ (calls.filter (·.kind = .environment) ++
      (calls.filter (·.kind = .code) ++ calls.filter (·.kind = .commandLine))) := by
  simp only [documented, List.flatMap_cons, List.flatMap_nil, List.append_nil]

/-- The documented order has the same calls. -/
theorem documented_perm (calls : List Call) : (documented calls).Perm calls := by
  induction calls with
  | nil => exact .nil
  | cons call rest ih =>
    rw [documented_eq] at ih ⊢
    refine List.Perm.trans ?_ (ih.cons call)
    -- the call comes first among those of its kind, and before those of lower kinds after some
    -- exchanges
    cases hkind : call.kind with
    | file => simp [hkind]
    | environment => simp [hkind, List.perm_middle]
    | code => simpa [hkind] using (List.perm_middle.append_left _).trans List.perm_middle
    | commandLine =>
      simpa [hkind] using
        (((List.perm_middle.append_left _).trans List.perm_middle).append_left _).trans
          List.perm_middle

/-- What the calls of one kind say last about a path. -/
def said (tree : Storage.Tree) (values : Dict String) (calls : List Call) (path : List String)
    (kind : Kind) : Option (Option Shape) :=
  Value.decision path (layersOf tree values [] (calls.filter (·.kind = kind)))

/-- What stands at a path by the rank of kinds: what the highest kind said that said something
about it, and else the default. -/
def ranked (tree : Storage.Tree) (values : Dict String) (calls : List Call) (path : List String) :
    Option Shape :=
  let said := said tree values calls path
  ((said .commandLine).or ((said .code).or ((said .environment).or (said .file)))).getD
    (Config.default.toValue.shape? path)

/-- The slots that are collected after calls. -/
def slotsOf (slots : List SlotSpec) (calls : List Call) : List SlotSpec :=
  calls.foldl Call.slotsAfter slots

theorem layersOf_append (tree : Storage.Tree) (values : Dict String) (slots : List SlotSpec)
    (first second : List Call) :
    layersOf tree values slots (first ++ second) =
      layersOf tree values slots first ++ layersOf tree values (slotsOf slots first) second := by
  induction first generalizing slots with
  | nil => rfl
  | cons call rest ih =>
    rw [List.cons_append, layersOf, layersOf, ih, List.append_assoc]
    rfl

/-- Files and variables collect no slots on the side. -/
theorem slotsOf_of_kind {calls : List Call}
    (h : ∀ call ∈ calls, call.kind = .file ∨ call.kind = .environment) (slots : List SlotSpec) :
    slotsOf slots calls = slots := by
  induction calls with
  | nil => rfl
  | cons call rest ih =>
    obtain ⟨hcall, hrest⟩ := List.forall_mem_cons.mp h
    -- only code and the command line name slots
    have hslots : call.slotsAfter slots = slots := by
      cases call with
      | file path => rfl
      | environment word => rfl
      | _ => rcases hcall with hcall | hcall <;> cases hcall
    rw [slotsOf, List.foldl_cons, hslots]
    exact ih hrest

/-- What command lines lay over the settings is not about the slots before them. -/
theorem layersOf_commandLine (tree : Storage.Tree) (values : Dict String) {calls : List Call}
    (h : ∀ call ∈ calls, call.kind = .commandLine) (slots slots' : List SlotSpec) :
    layersOf tree values slots calls = layersOf tree values slots' calls := by
  induction calls generalizing slots slots' with
  | nil => rfl
  | cons call rest ih =>
    obtain ⟨hcall, hrest⟩ := List.forall_mem_cons.mp h
    cases call with
    | arguments line =>
      rw [layersOf, layersOf, ih hrest _ ((Call.arguments line).slotsAfter slots')]
      rfl
    | _ => cases hcall

/-- The documented order decides by the rank of kinds. -/
theorem decided_documented (tree : Storage.Tree) (values : Dict String) (calls : List Call)
    (path : List String) :
    decided tree values (documented calls) path = ranked tree values calls path := by
  -- the calls are taken kind by kind
  have hkind (kind : Kind) : ∀ call ∈ calls.filter (·.kind = kind), call.kind = kind := by
    intro call hcall
    exact of_decide_eq_true (List.mem_filter.mp hcall).2
  have hfiles : slotsOf [] (calls.filter (·.kind = .file)) = [] := by
    apply slotsOf_of_kind
    intro call hcall
    exact .inl (hkind .file call hcall)
  have hvariables : slotsOf [] (calls.filter (·.kind = .environment)) = [] := by
    apply slotsOf_of_kind
    intro call hcall
    exact .inr (hkind .environment call hcall)
  -- a command line has all its slots in one layer, so the ones before do not matter
  have hlines (slots : List SlotSpec) :
      layersOf tree values slots (calls.filter (·.kind = .commandLine)) =
      layersOf tree values [] (calls.filter (·.kind = .commandLine)) :=
    layersOf_commandLine tree values (hkind .commandLine) slots []
  rw [decided, documented_eq, layersOf_append, layersOf_append, layersOf_append, hfiles,
    hvariables, hlines, Value.decision_append, Value.decision_append, Value.decision_append,
    Option.or_assoc, Option.or_assoc]
  rfl

/-- **The order of the calls decides.** Say a configuration can be extracted after calls. At
every path of its settings stands what the last call said that said anything about this path,
whatever kind of source it added, and the default if there was none; a value there is what the
configuration's key is read from. The same calls in another order make the same settings if and
only if they decide every path alike, and then the configuration is the same. The documented
order decides by the rank of kinds: so the settings are the documented ones if and only if at
every path the last call that said anything about it was of the highest kind that did, or said
the same. -/
theorem config_of_calls {tree : Storage.Tree} {values : Dict String} {calls : List Call}
    {config : Config} (made : (after tree values calls).config = .ok config) :
    ∃ settings, (after tree values calls).settings = .ok settings ∧
      (∀ path, settings.shape? path = decided tree values calls path) ∧
      (∀ (key : Config.Key) value, decided tree values calls [key.name] = some (.leaf value) →
        key.read value = .ok (key.get config)) ∧
      (∀ knob : Knobs.Key,
        (∀ value, decided tree values calls [Config.Key.rebalance.name, knob.name] =
          some (.leaf value) →
            knob.read value = .ok (knob.get config.rebalance)) ∧
          (decided tree values calls [Config.Key.rebalance.name] = some .table →
            decided tree values calls [Config.Key.rebalance.name, knob.name] = none →
              knob.get config.rebalance = knob.get Knobs.default)) ∧
      (∀ others : List Call, others.Perm calls →
        ((after tree values others).settings = .ok settings ↔
            ∀ path, decided tree values others path = decided tree values calls path) ∧
          ((∀ path, decided tree values others path = decided tree values calls path) →
            (after tree values others).config = .ok config)) ∧
      (∀ path, decided tree values (documented calls) path = ranked tree values calls path) ∧
      ((after tree values (documented calls)).settings = .ok settings ↔
        ∀ path, decided tree values calls path = ranked tree values calls path) := by
  obtain ⟨settings, hsettings, hread⟩ := exists_of_config made
  have hreadable := (readable_of_settings hsettings).1
  obtain ⟨settings', hsettings', hordered, hshape⟩ := settings_after tree values hreadable
  rw [hsettings] at hsettings'
  cases hsettings'
  -- the settings are what is decided for all paths, so calls that decide alike are alike
  have hsame : ∀ others : List Call, others.Perm calls →
      ((after tree values others).settings = .ok settings ↔
        ∀ path, decided tree values others path = decided tree values calls path) := by
    intro others hperm
    have hreadable' : ∀ call ∈ others, call.isReadable tree = true := by
      intro call hcall
      exact hreadable call (hperm.mem_iff.mp hcall)
    obtain ⟨others', hothers, hordered', hshape'⟩ := settings_after tree values hreadable'
    constructor
    · intro hsettings path
      rw [hothers] at hsettings
      cases hsettings
      rw [← hshape', ← hshape]
    · intro halike
      -- ordered tables with the same leaves are the same
      have heq : others' = settings := by
        apply hordered'.ext hordered
        intro path
        rw [hshape', hshape, halike]
      rw [hothers, heq]
  refine ⟨settings, hsettings, hshape, ?_, ?_, ?_, decided_documented tree values calls, ?_⟩
  · intro key value h
    rw [← hshape] at h
    exact Config.get_of_shape hordered hread key h
  · intro knob
    simp only [← hshape]
    exact Config.knob_of_shape hordered hread knob
  · intro others hperm
    refine ⟨hsame others hperm, ?_⟩
    intro halike
    rw [← made]
    exact config_congr (((hsame others hperm).mpr halike).trans hsettings.symm)
  · -- the documented order is one of the permutations
    rw [hsame (documented calls) (documented_perm calls)]
    simp only [decided_documented]
    constructor
    · intro halike path
      exact (halike path).symm
    · intro halike path
      exact (halike path).symm

/-- A command line between two settings in code. -/
def callsAround : List Call :=
  [.granularity 30, .arguments { Arguments.empty with granularity := some 40 }, .granularity 25,
    .seed 7]

/-- The setting in code that came last has its way, and the seed is one of the knobs. -/
theorem config_of_calls_later_code :
    ∃ config, (after .empty .empty callsAround).config = .ok config ∧ config.granularity = 25 ∧
      config.rebalance.seed = some 7 ∧ config.rebalance.sampleSize = Knobs.default.sampleSize := by
  have hmade : (after .empty .empty callsAround).config.toOption.isSome = true := by decide +kernel
  cases hconfig : (after .empty .empty callsAround).config with
  | error fault =>
    rw [hconfig] at hmade
    cases hmade
  | ok config =>
    obtain ⟨settings, -, -, hkeys, hknobs, -⟩ := config_of_calls hconfig
    have hgranularity := hkeys .granularity (.integer 25) rfl
    have hseed := (hknobs .seed).1 (.integer 7) rfl
    have hsample := (hknobs .sampleSize).1 (.integer 10) rfl
    exact ⟨config, rfl, (Except.ok.inj hgranularity).symm, (Except.ok.inj hseed).symm,
      (Except.ok.inj hsample).symm⟩

theorem eq_ok_of_toOption {ε β : Type} {result : Except ε β} {x : β}
    (h : result.toOption = some x) : result = .ok x := by
  cases result with
  | error fault => cases h
  | ok found => exact congrArg Except.ok (Option.some.inj h)

/-- A file with slots. -/
def fileWithSlots : Storage.Tree :=
  Storage.Tree.empty.put ["p.toml"] (.file (some "granularity = 15\n[[slots]]\nconfig = 'b'\n"))

/-- Settings in code and then a file. -/
def callsBefore : List Call := [.granularity 30, .slots [⟨"a", none⟩], .file "p.toml"]

/-- The file overrides the settings in code, which it does not if the same calls come in the
documented order. -/
theorem config_of_calls_late_file :
    ∃ config other, (after fileWithSlots .empty callsBefore).config = .ok config ∧
      (after fileWithSlots .empty (documented callsBefore)).config = .ok other ∧
      config.granularity = 15 ∧ other.granularity = 30 ∧
      config.slots = [⟨"b", none⟩] ∧ other.slots = [⟨"a", none⟩] := by
  have hcalls : (after fileWithSlots .empty callsBefore).config.toOption =
      some { Config.default with granularity := 15, slots := [⟨"b", none⟩] } := by
    decide +kernel
  have hdocumented : (after fileWithSlots .empty (documented callsBefore)).config.toOption =
      some { Config.default with granularity := 30, slots := [⟨"a", none⟩] } := by
    decide +kernel
  exact ⟨_, _, eq_ok_of_toOption hcalls, eq_ok_of_toOption hdocumented, rfl, rfl, rfl, rfl⟩

end AlgorithmPortfolio.Builder
