import AlgorithmPortfolio.Proofs.Document.Overlay
import AlgorithmPortfolio.Settings.Builder

/-!
# Calls and their layers

Every call to a builder lays documents over its settings. Slots are collected on the side, so
that what a call lays depends on the slots so far.

- `Builder.Call`, `Builder.after`: the calls that give settings, and what they leave.
- `Call.layers`, `Call.slotsAfter`: the documents that a call lays over the settings, and the
  slots after it; `layersOf` for calls in sequence.
- `Lays`: a builder that laid documents over the settings of another one. A call that can be
  read lays its layers (`lays_apply`), and so do calls in sequence (`lays_after`).
- `readable_of_settings`: settings that are no fault come of calls that can all be read.
- `ordered_layersOf`: all layers are in key order.
-/

namespace AlgorithmPortfolio.Builder

open Document (Value)
open Settings (fileLayer)

/-! ## Calls -/

/-- A call that gives settings. A single slot is a list of one. -/
inductive Call
  | file (path : String)
  | environment (word : String)
  | slots (specs : List SlotSpec)
  | scale (scale : Scale)
  | granularity (seconds : Nat)
  | maxTimePerSlot (seconds : Nat)
  | rebalance (knobs : Knobs)
  | seed (seed : Nat)
  | schedulerKeys (keys : List String)
  | metricsPrefix (word : String)
  | arguments (arguments : Arguments)

variable (tree : Storage.Tree) (values : Dict String)

/-- The builder after a call, with the files and variables that there are. -/
def Call.apply : Call → Builder → Builder
  | .file path => Builder.file tree path
  | .environment word => Builder.environment word values
  | .slots specs => appendSlots specs
  | .scale spacing => Builder.scale spacing
  | .granularity seconds => Builder.granularity seconds
  | .maxTimePerSlot seconds => Builder.maxTimePerSlot seconds
  | .rebalance knobs => Builder.rebalance knobs
  | .seed number => Builder.seed number
  | .schedulerKeys keys => Builder.schedulerKeys keys
  | .metricsPrefix word => Builder.metricsPrefix word
  | .arguments line => Builder.arguments line

/-- The builder after calls. -/
def after (calls : List Call) : Builder :=
  calls.foldl (fun builder call => call.apply tree values builder) start

/-! ## Layers -/

/-- The slots that are collected after a call. -/
def Call.slotsAfter (slots : List SlotSpec) : Call → List SlotSpec
  | .slots specs => slots ++ specs
  | .arguments line => if line.slots = [] then slots else line.slots.map SlotSpec.ofText
  | _ => slots

def slotsLayer (specs : List SlotSpec) : Value := .single "slots" (specsValue specs)

def scaleLayer (spacing : Scale) : Value := .single "time_scale" (.text spacing.name)

def granularityLayer (seconds : Nat) : Value := .single "granularity" (.integer seconds)

def capLayer (seconds : Nat) : Value := .single "max_time_per_slot" (.integer seconds)

def prefixLayer (word : String) : Value := .single "metrics_prefix" (.text word)

/-- A setting of the reallocation pass, which leaves the other ones. -/
def knobLayer (key : String) (number : Nat) : Value :=
  .single "rebalance" (.single key (.integer number))

/-- What slots that come one by one lay over the settings: all slots so far, each time. -/
def slotLayers (slots : List SlotSpec) : List SlotSpec → List Value
  | [] => []
  | spec :: rest => slotsLayer (slots ++ [spec]) :: slotLayers (slots ++ [spec]) rest

/-- What an optional setting lays over the others. -/
def givenLayer {β : Type} (given : Option β) (layer : β → Value) : List Value :=
  (given.map layer).toList

/-- What a command line lays over the settings. -/
def argumentLayers (line : Arguments) : List Value :=
  (if line.slots = [] then [] else [slotsLayer (line.slots.map SlotSpec.ofText)]) ++
    givenLayer line.scale scaleLayer ++ givenLayer line.granularity granularityLayer ++
    givenLayer line.maxTimePerSlot capLayer ++ givenLayer line.sampleSize
      (knobLayer "sample_size") ++
    givenLayer line.seed (knobLayer "seed") ++ givenLayer line.metricsPrefix prefixLayer

/-- What a call lays over the settings. A file that cannot be read lays nothing. -/
def Call.layers (slots : List SlotSpec) : Call → List Value
  | .file path => (fileLayer tree path).toOption.toList
  | .environment word => [Settings.Environment.layer word values]
  | .slots specs => slotLayers slots specs
  | .scale spacing => [scaleLayer spacing]
  | .granularity seconds => [granularityLayer seconds]
  | .maxTimePerSlot seconds => [capLayer seconds]
  | .rebalance knobs => [.single "rebalance" knobs.toValue]
  | .seed number => [knobLayer "seed" number]
  | .schedulerKeys keys => [.single "scheduler_keys" (textsValue keys)]
  | .metricsPrefix word => [prefixLayer word]
  | .arguments line => argumentLayers line

/-- What calls lay over the settings, with the slots before them. -/
def layersOf (slots : List SlotSpec) : List Call → List Value
  | [] => []
  | call :: rest => call.layers tree values slots ++ layersOf (call.slotsAfter slots) rest

/-- Whether a call can be read. -/
def Call.isReadable : Call → Bool
  | .file path => (fileLayer tree path).isOk
  | _ => true

/-! ## What calls leave -/

/-- A builder that laid documents over the settings of another one, with the slots collected
then. -/
structure Lays (layers : List Value) (slots : List SlotSpec) (before after : Builder) : Prop where
  settings : after.settings = before.settings.map fun base => layers.foldl Value.overlay base
  slots : after.slots = slots

theorem Lays.refl (builder : Builder) : Lays [] builder.slots builder builder := by
  refine ⟨?_, rfl⟩
  cases builder.settings with
  | error fault => rfl
  | ok base => rfl

theorem Lays.trans {first second : List Value} {slots slots' : List SlotSpec}
    {before between after : Builder} (h : Lays first slots before between)
    (h' : Lays second slots' between after) : Lays (first ++ second) slots' before after := by
  refine ⟨?_, h'.slots⟩
  rw [h'.settings, h.settings]
  cases before.settings with
  | error fault => rfl
  | ok base => exact congrArg Except.ok List.foldl_append.symm

theorem lays_layer (layer : Value) (builder : Builder) :
    Lays [layer] builder.slots builder (builder.layer layer) :=
  ⟨rfl, rfl⟩

theorem lays_appendSlots (specs : List SlotSpec) (builder : Builder) :
    Lays (slotLayers builder.slots specs) (builder.slots ++ specs) builder
      (builder.appendSlots specs) := by
  -- slot by slot, each layer with the slots before it
  induction specs generalizing builder with
  | nil =>
    rw [List.append_nil]
    exact .refl builder
  | cons spec rest ih =>
    have hfirst : Lays [slotsLayer (builder.slots ++ [spec])] (builder.slots ++ [spec]) builder
        (builder.slot spec) := ⟨rfl, rfl⟩
    have hrest := hfirst.trans (ih (builder.slot spec))
    have hslots : (builder.slot spec).slots ++ rest = builder.slots ++ spec :: rest :=
      List.append_assoc builder.slots [spec] rest
    rw [hslots] at hrest
    exact hrest

theorem lays_replaceSlots (specs : List SlotSpec) (builder : Builder) :
    Lays (if specs = [] then [] else [slotsLayer specs])
      (if specs = [] then builder.slots else specs) builder (builder.replaceSlots specs) := by
  cases specs with
  | nil => exact .refl builder
  | cons spec rest => exact ⟨rfl, rfl⟩

/-- One more step, that lays an optional setting. -/
theorem Lays.whenGiven {β : Type} {first : List Value} {slots : List SlotSpec}
    {before between : Builder} (h : Lays first slots before between) (given : Option β)
    (layer : β → Value) :
    Lays (first ++ givenLayer given layer) slots before
      (between.whenGiven given fun x => Builder.layer (layer x)) := by
  rw [← h.slots]
  cases given with
  | none => exact h.trans (.refl between)
  | some x => exact h.trans (lays_layer (layer x) between)

/-- A command line lays its slots and then each setting that is given. -/
theorem lays_arguments (line : Arguments) (builder : Builder) :
    Lays (argumentLayers line)
      (if line.slots = [] then builder.slots else line.slots.map SlotSpec.ofText)
      builder (builder.arguments line) := by
  have hslots := lays_replaceSlots (line.slots.map SlotSpec.ofText) builder
  simp only [List.map_eq_nil_iff] at hslots
  have hscale := hslots.whenGiven line.scale scaleLayer
  have hgranularity := hscale.whenGiven line.granularity granularityLayer
  have hcap := hgranularity.whenGiven line.maxTimePerSlot capLayer
  have hsample := hcap.whenGiven line.sampleSize (knobLayer "sample_size")
  have hseed := hsample.whenGiven line.seed (knobLayer "seed")
  exact hseed.whenGiven line.metricsPrefix prefixLayer

/-- A call that can be read lays its layers. -/
theorem lays_apply (tree : Storage.Tree) (values : Dict String) {call : Call}
    (readable : call.isReadable tree = true) (builder : Builder) :
    Lays (call.layers tree values builder.slots) (call.slotsAfter builder.slots) builder
      (call.apply tree values builder) := by
  -- only a file can fail to give a layer
  cases call with
  | file path =>
    cases hlayer : fileLayer tree path with
    | error fault =>
      rw [Call.isReadable, hlayer] at readable
      cases readable
    | ok layer =>
      have hfile : Call.apply tree values (.file path) builder = builder.layer layer := by
        rw [Call.apply, Builder.file, hlayer]
      rw [hfile, Call.layers, hlayer]
      exact lays_layer layer builder
  | slots specs => exact lays_appendSlots specs builder
  | arguments line => exact lays_arguments line builder
  | _ => exact lays_layer _ builder

/-- Calls that can all be read lay their layers, one call after the other. -/
theorem lays_after (tree : Storage.Tree) (values : Dict String) {calls : List Call}
    (readable : ∀ call ∈ calls, call.isReadable tree = true) (builder : Builder) :
    ∃ slots, Lays (layersOf tree values builder.slots calls) slots builder
      (calls.foldl (fun builder call => call.apply tree values builder) builder) := by
  induction calls generalizing builder with
  | nil => exact ⟨_, .refl builder⟩
  | cons call rest ih =>
    obtain ⟨hcall, hrest⟩ := List.forall_mem_cons.mp readable
    have hfirst := lays_apply tree values hcall builder
    obtain ⟨slots, hlater⟩ := ih hrest (call.apply tree values builder)
    rw [hfirst.slots] at hlater
    exact ⟨slots, hfirst.trans hlater⟩

/-- Settings that are no fault had none before a call, and none came with the call. -/
theorem readable_of_apply {tree : Storage.Tree} {values : Dict String} {call : Call}
    {builder : Builder} {settings : Value}
    (h : (call.apply tree values builder).settings = .ok settings) :
    call.isReadable tree = true ∧ ∃ before, builder.settings = .ok before := by
  cases hreadable : call.isReadable tree with
  | true =>
    have hlays := (lays_apply tree values hreadable builder).settings
    rw [h] at hlays
    cases hbefore : builder.settings with
    | error fault =>
      rw [hbefore] at hlays
      cases hlays
    | ok before => exact ⟨rfl, before, rfl⟩
  | false =>
    -- only files can be unreadable
    cases call with
    | file path =>
      cases hlayer : fileLayer tree path with
      | error fault =>
        rw [Call.apply, Builder.file, hlayer] at h
        cases h
      | ok layer =>
        rw [Call.isReadable, hlayer] at hreadable
        cases hreadable
    | _ => cases hreadable

theorem readable_of_settings {tree : Storage.Tree} {values : Dict String} {calls : List Call}
    {builder : Builder} {settings : Value}
    (h : (calls.foldl (fun builder call => call.apply tree values builder) builder).settings =
      .ok settings) :
    (∀ call ∈ calls, call.isReadable tree = true) ∧ ∃ before, builder.settings = .ok before := by
  induction calls generalizing builder with
  | nil =>
    refine ⟨?_, settings, h⟩
    intro call hcall
    cases hcall
  | cons call rest ih =>
    obtain ⟨hrest, between, hbetween⟩ := ih h
    obtain ⟨hcall, hbefore⟩ := readable_of_apply hbetween
    exact ⟨List.forall_mem_cons.mpr ⟨hcall, hrest⟩, hbefore⟩

/-! ### Layers are in key order -/

theorem inKeyOrder_of_keys {entries : List (String × Value)}
    (h : (entries.map Prod.fst).Pairwise (· < ·)) : InKeyOrder entries :=
  List.pairwise_map.mp h

theorem ordered_knobs (knobs : Knobs) : knobs.toValue.Ordered := by
  obtain ⟨sampleSize, maxPathLength, seed, ngramSize, setBased⟩ := knobs
  -- the seed is written only if there is one
  cases seed with
  | none =>
    refine .table (inKeyOrder_of_keys ?_) ?_
    · show ["max_path_length", "ngram_size", "sample_size", "set_based"].Pairwise (· < ·)
      decide +kernel
    · intro entry hentry
      simp only [List.mem_append, List.mem_cons, List.not_mem_nil, or_false] at hentry
      rcases hentry with (rfl | rfl | rfl) | rfl
      all_goals exact .leaf rfl
  | some seed =>
    refine .table (inKeyOrder_of_keys ?_) ?_
    · show ["max_path_length", "ngram_size", "sample_size", "seed", "set_based"].Pairwise (· < ·)
      decide +kernel
    · intro entry hentry
      simp only [List.mem_append, List.mem_cons, List.not_mem_nil, or_false] at hentry
      rcases hentry with ((rfl | rfl | rfl) | rfl) | rfl
      all_goals exact .leaf rfl

theorem ordered_default : Config.default.toValue.Ordered := by
  refine .table (inKeyOrder_of_keys ?_) ?_
  · show ["granularity", "max_time_per_slot", "metrics_prefix", "model_files", "rebalance",
      "scheduler_keys", "slots", "time_scale"].Pairwise (· < ·)
    decide +kernel
  · intro entry hentry
    simp only [List.mem_cons, List.not_mem_nil, or_false] at hentry
    rcases hentry with rfl | rfl | rfl | rfl | rfl | rfl | rfl | rfl
    case inr.inr.inr.inr.inl => exact ordered_knobs Knobs.default
    all_goals exact .leaf rfl

theorem ordered_nest {value : Value} (h : value.Ordered) (keys : List String) :
    (Settings.Environment.nest value keys).Ordered := by
  induction keys with
  | nil => exact h
  | cons key rest ih => exact .single key ih

theorem ordered_environment (word : String) (values : Dict String) :
    (Settings.Environment.layer word values).Ordered := by
  have hstart : (Value.table []).Ordered := Value.ordered_nil
  unfold Settings.Environment.layer
  generalize Value.table [] = settings at hstart
  -- each variable that belongs to the prefix lays one more value over those before
  induction values.entries generalizing settings with
  | nil => exact hstart
  | cons entry rest ih =>
    rw [List.foldl_cons]
    refine ih _ ?_
    cases Settings.Environment.keyPath? word entry.1 with
    | none => exact hstart
    | some keys => exact hstart.overlay (ordered_nest (Value.ordered_normalize _) keys)

theorem ordered_fileLayer {tree : Storage.Tree} {path : String} {layer : Value}
    (h : fileLayer tree path = .ok layer) : layer.Ordered := by
  unfold fileLayer at h
  split at h
  · split at h
    · cases h
      exact Value.ordered_normalize _
    · cases h
  · cases h
    exact Value.ordered_nil

theorem ordered_slotLayers (slots specs : List SlotSpec) :
    ∀ layer ∈ slotLayers slots specs, layer.Ordered := by
  induction specs generalizing slots with
  | nil =>
    intro layer hlayer
    cases hlayer
  | cons spec rest ih => exact List.forall_mem_cons.mpr ⟨.single _ (.leaf rfl), ih _⟩

theorem ordered_givenLayer {β : Type} (given : Option β) {layer : β → Value}
    (h : ∀ x, (layer x).Ordered) : ∀ found ∈ givenLayer given layer, found.Ordered := by
  cases given with
  | none =>
    intro layer hlayer
    cases hlayer
  | some x => exact List.forall_mem_singleton.mpr (h x)

theorem ordered_argumentLayers (line : Arguments) :
    ∀ layer ∈ argumentLayers line, layer.Ordered := by
  have hleaf (key : String) {value : Value} (h : value.shape = .leaf value) :
      (Value.single key value).Ordered := .single key (.leaf h)
  have hknob (key : String) (number : Nat) : (knobLayer key number).Ordered :=
    .single _ (hleaf key rfl)
  have hslots :
      ∀ layer ∈ (if line.slots = [] then [] else [slotsLayer (line.slots.map SlotSpec.ofText)]),
        layer.Ordered := by
    split
    · intro layer hlayer
      cases hlayer
    · exact List.forall_mem_singleton.mpr (hleaf _ rfl)
  unfold argumentLayers
  -- a layer for each option of the line, in the order of their fields
  simp only [List.forall_mem_append]
  refine ⟨⟨⟨⟨⟨⟨hslots, ?_⟩, ?_⟩, ?_⟩, ?_⟩, ?_⟩, ?_⟩
  · exact ordered_givenLayer line.scale fun _ => hleaf _ rfl
  · exact ordered_givenLayer line.granularity fun _ => hleaf _ rfl
  · exact ordered_givenLayer line.maxTimePerSlot fun _ => hleaf _ rfl
  · exact ordered_givenLayer line.sampleSize fun _ => hknob _ _
  · exact ordered_givenLayer line.seed fun _ => hknob _ _
  · exact ordered_givenLayer line.metricsPrefix fun _ => hleaf _ rfl

theorem ordered_layers (tree : Storage.Tree) (values : Dict String) (slots : List SlotSpec)
    (call : Call) : ∀ layer ∈ call.layers tree values slots, layer.Ordered := by
  cases call with
  | file path =>
    intro layer hlayer
    rw [Call.layers, Option.mem_toList] at hlayer
    cases hfile : fileLayer tree path with
    | error fault =>
      rw [hfile] at hlayer
      cases hlayer
    | ok found =>
      rw [hfile] at hlayer
      cases hlayer
      exact ordered_fileLayer hfile
  | environment word => exact List.forall_mem_singleton.mpr (ordered_environment word values)
  | slots specs => exact ordered_slotLayers slots specs
  | rebalance knobs => exact List.forall_mem_singleton.mpr (.single _ (ordered_knobs knobs))
  | seed number => exact List.forall_mem_singleton.mpr (.single _ (.single _ (.leaf rfl)))
  | arguments line => exact ordered_argumentLayers line
  | _ => exact List.forall_mem_singleton.mpr (.single _ (.leaf rfl))

theorem ordered_layersOf (tree : Storage.Tree) (values : Dict String) (slots : List SlotSpec)
    (calls : List Call) : ∀ layer ∈ layersOf tree values slots calls, layer.Ordered := by
  induction calls generalizing slots with
  | nil =>
    intro layer hlayer
    cases hlayer
  | cons call rest ih =>
    rw [layersOf, List.forall_mem_append]
    exact ⟨ordered_layers tree values slots call, ih _⟩

end AlgorithmPortfolio.Builder
