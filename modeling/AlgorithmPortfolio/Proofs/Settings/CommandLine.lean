import AlgorithmPortfolio.Proofs.Settings.Precedence
import AlgorithmPortfolio.Proofs.Text.Numeral

/-!
# What a command line overrides

A command line lays one setting over the others for each option that it has, and these are all
that it changes in a configuration. Two of them are knobs, which leave the other knobs as they
are.

- `Arguments.Fits`: numbers that are in the ranges of their options. Those of a command line
  that could be read are (`Arguments.fits_of_read`).
- `Config.overriddenBy`: a configuration with what a command line names.
- `Reads`: settings that a configuration is read from, their knobs in a table. One setting over
  them is one change of the configuration (`Reads.overlay_single`, `Reads.overlay_knob`).
- `Reads.foldl_argumentLayers`, `Reads.foldl_slotLayers`: a whole command line, and slots that
  come one by one.
- `extract_of_arguments`: the configuration after a command line, and after more slots.
-/

namespace AlgorithmPortfolio

open Document (Value Shape)
open Settings
open Builder (givenLayer knobLayer slotsLayer slotLayers argumentLayers)

/-! ## Command lines -/

/-- The numbers of a command line are in the ranges of their options. -/
structure Arguments.Fits (line : Arguments) : Prop where
  granularity : ∀ seconds ∈ line.granularity, seconds ≤ secondsBound
  maxTimePerSlot : ∀ seconds ∈ line.maxTimePerSlot, seconds ≤ secondsBound
  sampleSize : ∀ count ∈ line.sampleSize, count ≤ wordBound
  seed : ∀ seed ∈ line.seed, seed ≤ wordBound

namespace Arguments

theorem le_of_number {bound n : Nat} {cs : List Char} (h : number bound cs = .ok n) :
    n ≤ bound := by
  rw [number] at h
  cases hread : Text.readNumeral bound cs with
  | error fault =>
    rw [hread] at h
    cases h
  | ok found =>
    rw [hread] at h
    cases h
    obtain ⟨digits, -, -, -, hbound⟩ := Text.readNumeral_eq_ok_iff.mp hread
    exact hbound

theorem le_of_seconds {n : Nat} {cs : List Char} (h : seconds cs = .ok n) : n ≤ secondsBound := by
  unfold seconds at h
  split at h
  · split at h
    · cases h
      exact Nat.zero_le _
    · cases h
  · exact le_of_number h

theorem exists_of_bind {ε β γ : Type} {first : Except ε β} {next : β → Except ε γ} {result : γ}
    (h : first >>= next = .ok result) : ∃ x, first = .ok x ∧ next x = .ok result := by
  cases first with
  | error fault => cases h
  | ok x => exact ⟨x, rfl, h⟩

/-- One more option keeps the numbers in their ranges. -/
theorem Fits.give {line after : Arguments} (h : line.Fits) {flag : Flag} {value : String}
    (given : line.give flag value = .ok after) : after.Fits := by
  -- no part but the one that is given changes
  unfold Arguments.give at given
  split at given
  · cases given
  · cases flag with
    | slot =>
      cases given
      exact ⟨h.granularity, h.maxTimePerSlot, h.sampleSize, h.seed⟩
    | timeScale =>
      obtain ⟨scale, -, hafter⟩ := exists_of_bind given
      cases hafter
      exact ⟨h.granularity, h.maxTimePerSlot, h.sampleSize, h.seed⟩
    | granularity =>
      obtain ⟨found, hfound, hafter⟩ := exists_of_bind given
      cases hafter
      refine ⟨?_, h.maxTimePerSlot, h.sampleSize, h.seed⟩
      rintro _ ⟨⟩
      exact le_of_seconds hfound
    | maxTimePerSlot =>
      obtain ⟨found, hfound, hafter⟩ := exists_of_bind given
      cases hafter
      refine ⟨h.granularity, ?_, h.sampleSize, h.seed⟩
      rintro _ ⟨⟩
      exact le_of_seconds hfound
    | sampleSize =>
      obtain ⟨found, hfound, hafter⟩ := exists_of_bind given
      cases hafter
      refine ⟨h.granularity, h.maxTimePerSlot, ?_, h.seed⟩
      rintro _ ⟨⟩
      exact le_of_number hfound
    | seed =>
      obtain ⟨found, hfound, hafter⟩ := exists_of_bind given
      cases hafter
      refine ⟨h.granularity, h.maxTimePerSlot, h.sampleSize, ?_⟩
      rintro _ ⟨⟩
      exact le_of_number hfound
    | metricsPrefix =>
      cases given
      exact ⟨h.granularity, h.maxTimePerSlot, h.sampleSize, h.seed⟩

theorem Fits.settle {draft : Draft} {after : Arguments} (h : draft.settings.Fits)
    (settled : draft.settle = .ok after) : after.Fits := by
  unfold Draft.settle at settled
  split at settled
  · cases settled
    exact h
  · cases settled
  · exact h.give settled

/-- The numbers stay in their ranges to the end of a command line. -/
theorem Fits.readFrom {draft : Draft} {words : List String} {line : Arguments}
    (h : draft.settings.Fits) (read : Arguments.readFrom draft words = .ok line) :
    line.Fits := by
  -- after each word the draft fits; words that are refused end the reading
  induction words generalizing draft with
  | nil => exact h.settle read
  | cons word rest ih =>
    rw [Arguments.readFrom] at read
    split at read
    · split at read
      · exact h.settle read
      · cases read
    -- the option before is taken in when the next one comes
    · obtain ⟨settled, hsettled, hrest⟩ := exists_of_bind read
      exact ih (h.settle hsettled) hrest
    · obtain ⟨settled, hsettled, hmore⟩ := exists_of_bind read
      obtain ⟨more, hgiven, hrest⟩ := exists_of_bind hmore
      exact ih ((h.settle hsettled).give hgiven) hrest
    · obtain ⟨settled, -, hhelp⟩ := exists_of_bind read
      cases hhelp
    · cases read
    · cases read
    · split at read
      · refine ih ?_ read
        exact h
      · cases read

/-- A command line that could be read has its numbers in their ranges. -/
theorem fits_of_read {words : List String} {line : Arguments}
    (read : Arguments.read words = .ok line) : line.Fits := by
  have hempty : Arguments.empty.Fits := by
    constructor
    all_goals
      rintro _ ⟨⟩
  exact hempty.readFrom read

end Arguments

/-- A configuration with what a command line names in place of what it had. -/
def Config.overriddenBy (line : Arguments) (config : Config) : Config where
  slots := if line.slots = [] then config.slots else line.slots.map SlotSpec.ofText
  scale := line.scale.getD config.scale
  granularity := line.granularity.getD config.granularity
  maxTimePerSlot := line.maxTimePerSlot.getD config.maxTimePerSlot
  rebalance := { config.rebalance with
    sampleSize := line.sampleSize.getD config.rebalance.sampleSize
    seed := line.seed.or config.rebalance.seed }
  schedulerKeys := config.schedulerKeys
  modelFiles := config.modelFiles
  metricsPrefix := line.metricsPrefix.getD config.metricsPrefix

/-! ## What is written is read -/

theorem ofValue_toValue (spec : SlotSpec) : SlotSpec.ofValue merged spec.toValue = .ok spec := by
  obtain ⟨config, annotation⟩ := spec
  cases annotation with
  | none => rfl
  | some annotation => rfl

theorem itemsFrom_map_toValue (position : Nat) (specs : List SlotSpec) :
    itemsFrom (SlotSpec.ofValue merged) position (specs.map SlotSpec.toValue) = .ok specs := by
  induction specs generalizing position with
  | nil => rfl
  | cons spec rest ih =>
    rw [List.map_cons, itemsFrom, ofValue_toValue, ih]
    rfl

theorem read_specsValue (specs : List SlotSpec) :
    Config.Key.slots.read (specsValue specs) = .ok specs :=
  itemsFrom_map_toValue 0 specs

theorem read_scale (spacing : Scale) :
    Config.Key.scale.read (.text spacing.name) = .ok spacing := by
  cases spacing with
  | _ => rfl

theorem read_seconds {seconds : Nat} (h : seconds ≤ Arguments.secondsBound) :
    natural (maxOfBits 32) (.integer seconds) = .ok seconds :=
  natural_of_le (by decide) h

theorem read_word {number : Nat} (h : number ≤ Arguments.wordBound) :
    natural (maxOfBits 64) (.integer number) = .ok number :=
  natural_of_le (Nat.le_refl _) h

/-! ## Settings and the configuration that is read from them -/

/-- Settings in key order, with a table of knobs, and the configuration that is read from
them. -/
structure Reads (settings : Value) (config : Config) : Prop where
  ordered : settings.Ordered
  knobs : settings.shape? [Config.Key.rebalance.name] = some .table
  made : Config.ofValue merged settings = .ok config

namespace Reads

variable {settings : Value} {config : Config}

/-- A setting that is no table replaces what stood under its key. -/
theorem overlay_single (h : Reads settings config) (key : Config.Key) (hkey : key ≠ .rebalance)
    (value : Value) (leaf : value.shape = .leaf value) {x : key.Content}
    (hread : key.read value = .ok x) :
    Reads (settings.overlay (.single key.name value)) (key.put x config) := by
  obtain ⟨entries, found, rfl, hlookup, hshape⟩ := Config.exists_lookup_of_shape h.knobs
  have hlayer : (Value.single key.name value).Ordered := .single key.name (.leaf leaf)
  refine ⟨h.ordered.overlay hlayer, ?_, ?_⟩
  -- the knobs stand under another key
  · have hname : Config.Key.rebalance.name ≠ key.name := by
      intro heq
      exact hkey (Config.Key.name_injective heq).symm
    rw [Value.overlay_single, Value.shape?, lookup_insertEntry, if_neg hname]
    exact h.knobs
  · cases h.ordered with
    | leaf hleaf => cases hleaf
    | table inOrder each =>
      refine Config.keyWise.record_overlay Config.ext_get Config.Key.name_injective inOrder
        h.made ?_
      rw [Value.laidUnder_of_shape leaf]
      exact hread

/-- A knob that is laid over the settings leaves the other knobs. -/
theorem overlay_knob (h : Reads settings config) (knob : Knobs.Key) (value : Value)
    (leaf : value.shape = .leaf value) {x : knob.Content} (hread : knob.read value = .ok x) :
    Reads (settings.overlay (.single Config.Key.rebalance.name (.single knob.name value)))
      (Config.Key.rebalance.put (knob.put x config.rebalance) config) := by
  obtain ⟨entries, found, rfl, hlookup, hshape⟩ := Config.exists_lookup_of_shape h.knobs
  obtain ⟨inner, rfl⟩ := Value.eq_table_of_shape (Option.some.inj hshape)
  have hlayer : (Value.single Config.Key.rebalance.name (.single knob.name value)).Ordered :=
    .single _ (.single knob.name (.leaf leaf))
  have hlaid : Value.laidUnder Config.Key.rebalance.name (.single knob.name value) entries =
      (Value.table inner).overlay (.single knob.name value) := by
    rw [Value.laidUnder, hlookup]
  obtain ⟨innerOrder, hknobs⟩ := Config.knobs_of_lookup h.ordered h.made hlookup
  refine ⟨h.ordered.overlay hlayer, ?_, ?_⟩
  -- a table over a table is one
  · rw [Value.overlay_single, hlaid, Value.shape?, lookup_insertEntry, if_pos rfl]
    rfl
  · cases h.ordered with
    | leaf hleaf => cases hleaf
    | table inOrder each =>
      refine Config.keyWise.record_overlay Config.ext_get Config.Key.name_injective inOrder
        h.made ?_
      rw [hlaid]
      refine Knobs.keyWise.record_overlay Knobs.ext_get Knobs.Key.name_injective innerOrder
        hknobs ?_
      rw [Value.laidUnder_of_shape leaf]
      exact hread

/-- An optional setting makes a difference if it is given. -/
theorem foldl_givenLayer {β : Type} (option : Option β) {layer : β → Value}
    (result : Option β → Config) (h : Reads settings (result none))
    (hgiven : ∀ x ∈ option, Reads (settings.overlay (layer x)) (result (some x))) :
    Reads ((givenLayer option layer).foldl Value.overlay settings) (result option) := by
  cases option with
  | none => exact h
  | some x => exact hgiven x rfl

/-- A command line overrides what it names. -/
theorem foldl_argumentLayers (h : Reads settings config) {line : Arguments} (fits : line.Fits) :
    Reads ((argumentLayers line).foldl Value.overlay settings) (config.overriddenBy line) := by
  obtain ⟨slots, scale, granularity, cap, sample, seed, word⟩ := line
  have hslots : Reads
      ((if slots = [] then [] else [slotsLayer (slots.map SlotSpec.ofText)]).foldl Value.overlay
        settings)
      (config.overriddenBy ⟨slots, none, none, none, none, none, none⟩) := by
    by_cases hnone : slots = []
    · subst hnone
      exact h
    · rw [if_neg hnone, Config.overriddenBy, if_neg hnone]
      exact h.overlay_single .slots (by decide) _ rfl (read_specsValue _)
  -- each option is one more of the command line
  have hscale := foldl_givenLayer scale
    (fun scale => config.overriddenBy ⟨slots, scale, none, none, none, none, none⟩) hslots
    fun spacing _ => hslots.overlay_single .scale (by decide) (.text spacing.name) rfl
      (read_scale spacing)
  have hgranularity := foldl_givenLayer granularity
    (fun granularity => config.overriddenBy ⟨slots, scale, granularity, none, none, none, none⟩)
    hscale fun seconds hseconds => hscale.overlay_single .granularity (by decide)
      (.integer seconds) rfl (read_seconds (fits.granularity seconds hseconds))
  have hcap := foldl_givenLayer cap
    (fun cap => config.overriddenBy ⟨slots, scale, granularity, cap, none, none, none⟩) hgranularity
    fun seconds hseconds => hgranularity.overlay_single .maxTimePerSlot (by decide)
      (.integer seconds) rfl (read_seconds (fits.maxTimePerSlot seconds hseconds))
  have hsample := foldl_givenLayer sample
    (fun sample => config.overriddenBy ⟨slots, scale, granularity, cap, sample, none, none⟩) hcap
    fun count hcount => hcap.overlay_knob .sampleSize (.integer count) rfl
      (read_word (fits.sampleSize count hcount))
  have hseed := foldl_givenLayer seed
    (fun seed => config.overriddenBy ⟨slots, scale, granularity, cap, sample, seed, none⟩) hsample
    fun number hnumber => hsample.overlay_knob .seed (.integer number) rfl
      (congrArg (Except.map some) (read_word (fits.seed number hnumber)))
  have hprefix := foldl_givenLayer word
    (fun word => config.overriddenBy ⟨slots, scale, granularity, cap, sample, seed, word⟩) hseed
    fun text _ => hseed.overlay_single .metricsPrefix (by decide) (.text text) rfl rfl
  simp only [← List.foldl_append] at hprefix
  exact hprefix

/-- Slots that come one by one replace the slots in the end by those before them and all of
them. -/
theorem foldl_slotLayers (h : Reads settings config) (slots : List SlotSpec)
    {specs : List SlotSpec} (hne : specs ≠ []) :
    Reads ((slotLayers slots specs).foldl Value.overlay settings)
      { config with slots := slots ++ specs } := by
  -- each specification adds a layer with all slots so far, and the last layer has them all
  induction specs generalizing settings config slots with
  | nil => exact absurd rfl hne
  | cons spec rest ih =>
    have hfirst := h.overlay_single .slots (by decide) _ rfl (read_specsValue (slots ++ [spec]))
    by_cases hrest : rest = []
    · subst hrest
      exact hfirst
    · have hall := ih hfirst (slots ++ [spec]) hrest
      rw [List.append_assoc] at hall
      exact hall

end Reads

namespace Builder

/-! ## The configuration after a command line -/

/-- The slots that are collected after calls that can all be read. -/
theorem slots_after {tree : Storage.Tree} {values : Dict String} {calls : List Call}
    (readable : ∀ call ∈ calls, call.isReadable tree = true) (builder : Builder) :
    (calls.foldl (fun builder call => call.apply tree values builder) builder).slots =
      slotsOf builder.slots calls := by
  induction calls generalizing builder with
  | nil => rfl
  | cons call rest ih =>
    obtain ⟨hcall, hrest⟩ := List.forall_mem_cons.mp readable
    rw [List.foldl_cons, ih hrest, (lays_apply tree values hcall builder).slots]
    rfl

/-- A configuration is extracted from a builder whose settings have the knobs in a table. -/
def Extracts (builder : Builder) (config : Config) : Prop :=
  builder.extract = .ok config ∧
    ∃ settings, builder.settings = .ok settings ∧
      settings.shape? [Config.Key.rebalance.name] = some .table

section

variable {tree : Storage.Tree} {values : Dict String} {calls : List Call} {config : Config}

theorem Extracts.reads (h : (after tree values calls).Extracts config) :
    ∃ settings, (after tree values calls).settings = .ok settings ∧ Reads settings config := by
  obtain ⟨hextract, settings, hsettings, hknobs⟩ := h
  obtain ⟨settings', hsettings', ordered, -, hmade⟩ := exists_decided hextract
  obtain rfl := Except.ok.inj (hsettings.symm.trans hsettings')
  exact ⟨settings, hsettings, ordered, hknobs, hmade⟩

theorem extracts_of_reads {builder : Builder} {settings : Value}
    (hsettings : builder.settings = .ok settings) (h : Reads settings config) :
    builder.Extracts config :=
  ⟨extract_eq_ok_iff.mpr ⟨settings, hsettings, h.made⟩, settings, hsettings, h.knobs⟩

/-- A command line overrides what it names in the configuration. -/
theorem Extracts.append_arguments (h : (after tree values calls).Extracts config)
    {line : Arguments} (fits : line.Fits) :
    (after tree values (calls ++ [.arguments line])).Extracts (config.overriddenBy line) := by
  obtain ⟨settings, hsettings, hreads⟩ := h.reads
  refine extracts_of_reads ?_ (hreads.foldl_argumentLayers fits)
  rw [after, List.foldl_concat]
  exact (lays_arguments line _).settings.trans (congrArg (Except.map _) hsettings)

/-- Slots that come one by one extend the slots that were collected, whatever slots the
configuration had. -/
theorem Extracts.append_slots (h : (after tree values calls).Extracts config)
    {specs : List SlotSpec} (hne : specs ≠ []) :
    (after tree values (calls ++ [.slots specs])).Extracts
      { config with slots := slotsOf [] calls ++ specs } := by
  obtain ⟨settings, hsettings, hreads⟩ := h.reads
  have hslots : (after tree values calls).slots = slotsOf [] calls :=
    slots_after (readable_of_settings hsettings).1 start
  refine extracts_of_reads ?_ (hreads.foldl_slotLayers (slotsOf [] calls) hne)
  rw [after, List.foldl_concat, ← hslots]
  exact (lays_appendSlots specs _).settings.trans (congrArg (Except.map _) hsettings)

/-- **A command line overrides what it names.** Say a configuration is extracted after calls.
After a command line it has what the line names in place of what it had, and is the same in
everything else. Slots that are appended afterwards extend the slots of the command line if it
has some, and else those that the earlier calls collected; they do so after any more calls, with
the slots that these collect in between. -/
theorem extract_of_arguments (made : (after tree values calls).Extracts config) {line : Arguments}
    (fits : line.Fits) :
    (after tree values (calls ++ [.arguments line])).Extracts (config.overriddenBy line) ∧
      ∀ (later : List Call) (specs : List SlotSpec) (reached : Config), specs ≠ [] →
        (after tree values (calls ++ [.arguments line] ++ later)).Extracts reached →
          (after tree values (calls ++ [.arguments line] ++ later ++ [.slots specs])).Extracts
            { reached with
              slots := slotsOf
                (if line.slots = [] then slotsOf [] calls else line.slots.map SlotSpec.ofText)
                  later
                ++ specs } := by
  refine ⟨made.append_arguments fits, ?_⟩
  intro later specs reached hne hreached
  have hcollected : slotsOf [] (calls ++ [.arguments line] ++ later) =
      slotsOf (if line.slots = [] then slotsOf [] calls else line.slots.map SlotSpec.ofText)
        later := by
    rw [slotsOf, List.foldl_append, List.foldl_append]
    rfl
  rw [← hcollected]
  exact hreached.append_slots hne

end

/-- The slots of a command line replace the ones before them and are extended by the ones after
them, and its sample size leaves the seed. -/
theorem extract_of_arguments_replaced_slots :
    let calls := [.slots [⟨"a", none⟩], .seed 7, .granularity 30]
    ∃ line config,
      Arguments.read ["--portfolio-slot", "b", "--portfolio-sample-size=3"] = .ok line ∧
      (after .empty .empty calls).Extracts config ∧
      (after .empty .empty (calls ++ [.arguments line])).Extracts
        { config with
          slots := [⟨"b", none⟩],
          rebalance := { config.rebalance with sampleSize := 3 } } ∧
      (after .empty .empty (calls ++ [.arguments line] ++ [.slots [⟨"c", none⟩]])).Extracts
        { config with
          slots := [⟨"b", none⟩, ⟨"c", none⟩],
          rebalance := { config.rebalance with sampleSize := 3 } } := by
  intro calls
  have hread : Arguments.read ["--portfolio-slot", "b", "--portfolio-sample-size=3"] =
      .ok { Arguments.empty with slots := ["b"], sampleSize := some 3 } := by
    decide +kernel
  have hextract : (after .empty .empty calls).extract.toOption =
      some { Config.default with
        slots := [⟨"a", none⟩], granularity := 30,
        rebalance := { Knobs.default with seed := some 7 } } := by
    decide +kernel
  have hmade : (after .empty .empty calls).Extracts _ := ⟨eq_ok_of_toOption hextract, _, rfl, rfl⟩
  obtain ⟨hline, hslots⟩ := extract_of_arguments hmade (Arguments.fits_of_read hread)
  exact ⟨_, _, hread, hmade, hline, hslots [] [⟨"c", none⟩] _ (List.cons_ne_nil _ _) hline⟩

end Builder

end AlgorithmPortfolio
