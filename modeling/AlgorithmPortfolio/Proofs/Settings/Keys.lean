import AlgorithmPortfolio.Proofs.Document.Overlay
import AlgorithmPortfolio.Settings.Extract

/-!
# The keys of a configuration

Every setting of a configuration is read from what stands under its key, by itself: no other key
has a part in it.

- `natural_of_le`, `toNat_of_natural`: a number within its bound is read, and as itself.
- `KeyWise`: records whose steps write the content of one key each. There the content of a key
  is read from what a look-up finds (`KeyWise.get_of_record`). A record can be made if all its
  keys can be read (`KeyWise.record_of_get`), and something laid over what stands under one key
  is in the content of this key only (`KeyWise.record_overlay`).
- `Config.Key`, `Knobs.Key`: the keys with their contents and how these are read.
- `Config.keyWise`, `Knobs.keyWise`: configurations and knobs are such records.
- `Config.get_of_shape`, `Config.exists_knob_of_shape`, `Config.knob_of_shape`: the contents of
  keys, by what stands in the document.
-/

namespace AlgorithmPortfolio

open Document (Value Shape)
open Settings

/-! ## Numbers -/

theorem toNat_of_natural {bound n : Nat} {i : Int} (h : natural bound (.integer i) = .ok n) :
    i.toNat = n := by
  rw [natural] at h
  split at h
  · cases h
  · split at h
    · exact Except.ok.inj h
    · cases h

theorem toNat_of_optional {bound : Nat} {found : Option Nat} {i : Int}
    (h : optional (natural bound) (.integer i) = .ok found) : found = some i.toNat := by
  change (natural bound (.integer i)).map some = .ok found at h
  cases hread : natural bound (.integer i) with
  | error fault =>
    rw [hread] at h
    cases h
  | ok n =>
    rw [hread] at h
    cases h
    rw [toNat_of_natural hread]

/-- A number within a bound of at most 64 bits is read back. -/
theorem natural_of_le {bound n : Nat} (hword : bound ≤ maxOfBits 64) (h : n ≤ bound) :
    natural bound (.integer n) = .ok n := by
  have hrange : ¬((n : Int) + maxOfBits 63 < -1 ∨ (maxOfBits 64 : Int) < n) := by omega
  rw [natural, if_neg hrange, if_pos (by omega), Int.toNat_natCast]

/-! ## Records -/

/-- Steps that write the content of the key with a name, as it is read, and nothing under other
names. -/
structure KeyWise {β κ : Type} {Content : κ → Type} (set : β → String → Value → Reading β)
    (name : κ → String) (read : (key : κ) → Value → Reading (Content key))
    (get : (key : κ) → β → Content key) (put : (key : κ) → Content key → β → β) : Prop where
  set_name : ∀ key before value, set before (name key) value =
    (read key value).map (put key · before)
  set_unknown : ∀ {word} before value, (∀ key, name key ≠ word) → set before word value = .ok before
  get_put : ∀ key x before, get key (put key x before) = x
  get_put_of_ne : ∀ {key other} x before, key ≠ other →
    get key (put other x before) = get key before

section KeyWise

variable {β κ : Type} {Content : κ → Type} {set : β → String → Value → Reading β}
  {name : κ → String} {read : (key : κ) → Value → Reading (Content key)}
  {get : (key : κ) → β → Content key} {put : (key : κ) → Content key → β → β}

/-- A step under a key's own name writes what it reads. -/
theorem KeyWise.own (h : KeyWise set name read get put) {key : κ} {before after : β} {value : Value}
    (step : set before (name key) value = .ok after) : read key value = .ok (get key after) := by
  rw [h.set_name] at step
  cases hread : read key value with
  | error fault =>
    rw [hread] at step
    cases step
  | ok x =>
    rw [hread] at step
    cases step
    rw [h.get_put]

/-- A step under another name keeps the content of a key. -/
theorem KeyWise.other (h : KeyWise set name read get put) {key : κ} {before after : β}
    {word : String} {value : Value} (hne : name key ≠ word)
    (step : set before word value = .ok after) : get key after = get key before := by
  -- either the word is another key, or it is none and is passed over
  by_cases known : ∃ other, name other = word
  · obtain ⟨other, rfl⟩ := known
    have hkeys : key ≠ other := fun heq => hne (congrArg name heq)
    rw [h.set_name] at step
    cases hread : read other value with
    | error fault =>
      rw [hread] at step
      cases step
    | ok x =>
      rw [hread] at step
      cases step
      exact h.get_put_of_ne x before hkeys
  · rw [h.set_unknown before value (not_exists.mp known)] at step
    cases step
    rfl

/-- The content of a key is read from what a look-up finds, and as in the beginning if that is
nothing. -/
theorem KeyWise.get_of_record (h : KeyWise set name read get put) (key : κ) {names : List String}
    {start result : β} {entries : List (String × Value)} (inOrder : InKeyOrder entries)
    (made : record merged names set start (.table entries) = .ok result) :
    (∀ value, lookup (name key) entries = some value → read key value = .ok (get key result)) ∧
      (lookup (name key) entries = none → get key result = get key start) := by
  -- the record is a fold over the entries, from any start
  have hfold : (entries.map fun entry => (entry.1, entry.1, entry.2)).foldlM
      (fun acc step => below step.1 (set acc step.2.1 step.2.2)) start = .ok result := made
  clear made
  induction entries generalizing start with
  | nil =>
    cases hfold
    constructor
    · intro value hfound
      cases hfound
    · intro _
      rfl
  | cons entry rest ih =>
    obtain ⟨word, value⟩ := entry
    obtain ⟨hfirst, hrest⟩ := List.pairwise_cons.mp inOrder
    rw [List.map_cons, List.foldlM_cons] at hfold
    change (below word (set start word value)).bind _ = _ at hfold
    cases hstep : set start word value with
    | error fault =>
      rw [hstep] at hfold
      cases hfold
    | ok after =>
      rw [hstep] at hfold
      obtain ⟨hfound, hmissing⟩ := ih hrest hfold
      rw [lookup]
      by_cases hword : name key = word
      · -- no later entry has the name, so what was read here stays
        have hnone : lookup (name key) rest = none := by
          apply lookup_eq_none
          intro entry hentry heq
          exact String.lt_irrefl word (by simpa [heq, hword] using hfirst entry hentry)
        rw [if_pos hword]
        subst hword
        constructor
        · intro found hvalue
          cases hvalue
          rw [hmissing hnone]
          exact h.own hstep
        · intro hsome
          cases hsome
      · rw [if_neg hword]
        refine ⟨hfound, ?_⟩
        intro hnone
        rw [hmissing hnone]
        exact h.other hword hstep

/-- A record is made if everything that stands under its keys can be read, and has what is read
there. -/
theorem KeyWise.record_of_get (h : KeyWise set name read get put)
    (same : ∀ {one other : β}, (∀ key, get key one = get key other) → one = other)
    {names : List String} {start result : β} {entries : List (String × Value)}
    (inOrder : InKeyOrder entries)
    (found : ∀ key value, lookup (name key) entries = some value →
      read key value = .ok (get key result))
    (missing : ∀ key, lookup (name key) entries = none → get key result = get key start) :
    record merged names set start (.table entries) = .ok result := by
  show (entries.map fun entry => (entry.1, entry.1, entry.2)).foldlM
    (fun acc step => below step.1 (set acc step.2.1 step.2.2)) start = .ok result
  -- the induction keeps what the entries that are left will write
  induction entries generalizing start with
  | nil => exact congrArg Except.ok (same fun key => (missing key rfl).symm)
  | cons entry rest ih =>
    obtain ⟨word, value⟩ := entry
    obtain ⟨hfirst, hrest⟩ := List.pairwise_cons.mp inOrder
    have hword (key : κ) (hkey : name key = word) : lookup (name key) ((word, value) :: rest) =
        some value :=
      if_pos hkey
    have hother (key : κ) (hkey : name key ≠ word) :
        lookup (name key) ((word, value) :: rest) = lookup (name key) rest :=
      if_neg hkey
    -- no entry fails: the known ones are read and the others are passed over
    have hstep : ∃ after, set start word value = .ok after := by
      by_cases known : ∃ key, name key = word
      · obtain ⟨key, rfl⟩ := known
        rw [h.set_name, found key value (hword key rfl)]
        exact ⟨_, rfl⟩
      · exact ⟨start, h.set_unknown start value (not_exists.mp known)⟩
    obtain ⟨after, hafter⟩ := hstep
    rw [List.map_cons, List.foldlM_cons, hafter]
    refine ih hrest ?_ ?_
    · -- what the later entries are to write is as before
      intro key later hlater
      have hkey : name key ≠ word := by
        intro hkey
        have hlt := hfirst _ (mem_of_lookup hlater)
        rw [hkey] at hlt
        exact String.lt_irrefl word hlt
      exact found key later ((hother key hkey).trans hlater)
    · intro key hnone
      by_cases hkey : name key = word
      · -- what is read under its own name is what the record is to have there
        have hread := found key value (hword key hkey)
        subst hkey
        exact Except.ok.inj (hread.symm.trans (h.own hafter))
      · rw [h.other hkey hafter]
        exact missing key ((hother key hkey).trans hnone)

/-- A record with something laid over what stands under one key has what is read there, and is
the same under all other keys. -/
theorem KeyWise.record_overlay (h : KeyWise set name read get put)
    (same : ∀ {one other : β}, (∀ key, get key one = get key other) → one = other)
    (injective : ∀ {key other}, name key = name other → key = other) {names : List String}
    {start result : β} {entries : List (String × Value)} (inOrder : InKeyOrder entries)
    (made : record merged names set start (.table entries) = .ok result) {key : κ}
    {value : Value} {x : Content key}
    (hread : read key (Value.laidUnder (name key) value entries) = .ok x) :
    record merged names set start ((Value.table entries).overlay (.single (name key) value)) =
      .ok (put key x result) := by
  rw [Value.overlay_single]
  refine h.record_of_get same (inKeyOrder_insertEntry (name key) _ inOrder) ?_ ?_
  · -- the key that is laid over has the new value, and all others what they had
    intro other found hfound
    rw [lookup_insertEntry] at hfound
    by_cases hother : name other = name key
    · obtain rfl := injective hother
      rw [if_pos rfl] at hfound
      cases hfound
      rw [h.get_put]
      exact hread
    · rw [if_neg hother] at hfound
      rw [h.get_put_of_ne x result fun heq => hother (congrArg name heq)]
      exact (h.get_of_record other inOrder made).1 found hfound
  · intro other hnone
    rw [lookup_insertEntry] at hnone
    by_cases hother : name other = name key
    · rw [if_pos hother] at hnone
      cases hnone
    · rw [if_neg hother] at hnone
      rw [h.get_put_of_ne x result fun heq => hother (congrArg name heq)]
      exact (h.get_of_record other inOrder made).2 hnone

end KeyWise

/-! ## Keys -/

/-- The keys below that of the reallocation pass. -/
inductive Knobs.Key
  | sampleSize
  | maxPathLength
  | seed
  | ngramSize
  | setBased
  deriving DecidableEq, Repr

namespace Knobs.Key

def name : Key → String
  | .sampleSize => "sample_size"
  | .maxPathLength => "max_path_length"
  | .seed => "seed"
  | .ngramSize => "ngram_size"
  | .setBased => "set_based"

/-- What a key has. -/
abbrev Content : Key → Type
  | .seed => Option Nat
  | .setBased => Bool
  | _ => Nat

/-- What a key has in knobs. -/
def get : (key : Key) → Knobs → key.Content
  | .sampleSize, knobs => knobs.sampleSize
  | .maxPathLength, knobs => knobs.maxPathLength
  | .seed, knobs => knobs.seed
  | .ngramSize, knobs => knobs.ngramSize
  | .setBased, knobs => knobs.setBased

/-- Knobs with another content of a key. -/
def put : (key : Key) → key.Content → Knobs → Knobs
  | .sampleSize, count, knobs => { knobs with sampleSize := count }
  | .maxPathLength, length, knobs => { knobs with maxPathLength := length }
  | .seed, given, knobs => { knobs with seed := given }
  | .ngramSize, size, knobs => { knobs with ngramSize := size }
  | .setBased, once, knobs => { knobs with setBased := once }

/-- What a key has, read from a value. -/
def read : (key : Key) → Value → Reading key.Content
  | .sampleSize => natural (maxOfBits 64)
  | .maxPathLength => natural (maxOfBits 64)
  | .seed => optional (natural (maxOfBits 64))
  | .ngramSize => natural (maxOfBits 64)
  | .setBased => bool

end Knobs.Key

/-- The keys of a configuration. -/
inductive Config.Key
  | slots
  | scale
  | granularity
  | maxTimePerSlot
  | rebalance
  | schedulerKeys
  | modelFiles
  | metricsPrefix
  deriving DecidableEq, Repr

namespace Config.Key

def name : Key → String
  | .slots => "slots"
  | .scale => "time_scale"
  | .granularity => "granularity"
  | .maxTimePerSlot => "max_time_per_slot"
  | .rebalance => "rebalance"
  | .schedulerKeys => "scheduler_keys"
  | .modelFiles => "model_files"
  | .metricsPrefix => "metrics_prefix"

/-- What a key has. -/
abbrev Content : Key → Type
  | .slots => List SlotSpec
  | .scale => Scale
  | .granularity => Nat
  | .maxTimePerSlot => Nat
  | .rebalance => Knobs
  | .schedulerKeys => List String
  | .modelFiles => List String
  | .metricsPrefix => String

/-- What a key has in a configuration. -/
def get : (key : Key) → Config → key.Content
  | .slots, config => config.slots
  | .scale, config => config.scale
  | .granularity, config => config.granularity
  | .maxTimePerSlot, config => config.maxTimePerSlot
  | .rebalance, config => config.rebalance
  | .schedulerKeys, config => config.schedulerKeys
  | .modelFiles, config => config.modelFiles
  | .metricsPrefix, config => config.metricsPrefix

/-- A configuration with another content of a key. -/
def put : (key : Key) → key.Content → Config → Config
  | .slots, specs, config => { config with slots := specs }
  | .scale, spacing, config => { config with scale := spacing }
  | .granularity, seconds, config => { config with granularity := seconds }
  | .maxTimePerSlot, seconds, config => { config with maxTimePerSlot := seconds }
  | .rebalance, knobs, config => { config with rebalance := knobs }
  | .schedulerKeys, keys, config => { config with schedulerKeys := keys }
  | .modelFiles, files, config => { config with modelFiles := files }
  | .metricsPrefix, word, config => { config with metricsPrefix := word }

/-- What a key has, read from a value. -/
def read : (key : Key) → Value → Reading key.Content
  | .slots => list (SlotSpec.ofValue merged)
  | .scale => choice merged Scale.ofName?
  | .granularity => natural (maxOfBits 32)
  | .maxTimePerSlot => natural (maxOfBits 32)
  | .rebalance => Knobs.ofValue merged
  | .schedulerKeys => list text
  | .modelFiles => list text
  | .metricsPrefix => text

end Config.Key

/-! ## Configurations by their keys -/

theorem Knobs.keyWise : KeyWise Knobs.set Key.name Key.read Key.get Key.put where
  set_name key before value := by
    cases key with
    | _ => rfl
  set_unknown {word} before value unknown := by
    unfold Knobs.set
    split
    · exact absurd rfl (unknown .sampleSize)
    · exact absurd rfl (unknown .maxPathLength)
    · exact absurd rfl (unknown .seed)
    · exact absurd rfl (unknown .ngramSize)
    · exact absurd rfl (unknown .setBased)
    · rfl
  get_put key x before := by
    cases key with
    | _ => rfl
  get_put_of_ne {key other} x before hne := by
    cases key with
    | _ =>
      cases other with
      | _ => first | rfl | exact absurd rfl hne

theorem Config.keyWise : KeyWise (Config.set merged) Key.name Key.read Key.get Key.put where
  set_name key before value := by
    cases key with
    | _ => rfl
  set_unknown {word} before value unknown := by
    unfold Config.set
    split
    · exact absurd rfl (unknown .slots)
    · exact absurd rfl (unknown .scale)
    · exact absurd rfl (unknown .granularity)
    · exact absurd rfl (unknown .maxTimePerSlot)
    · exact absurd rfl (unknown .rebalance)
    · exact absurd rfl (unknown .schedulerKeys)
    · exact absurd rfl (unknown .modelFiles)
    · exact absurd rfl (unknown .metricsPrefix)
    · rfl
  get_put key x before := by
    cases key with
    | _ => rfl
  get_put_of_ne {key other} x before hne := by
    cases key with
    | _ =>
      cases other with
      | _ => first | rfl | exact absurd rfl hne

theorem Knobs.Key.name_injective {key other : Key} (h : key.name = other.name) : key = other := by
  cases key with
  | _ =>
    cases other with
    | _ => first | rfl | simp [name] at h

theorem Config.Key.name_injective {key other : Key} (h : key.name = other.name) : key = other := by
  cases key with
  | _ =>
    cases other with
    | _ => first | rfl | simp [name] at h

/-- Knobs with the same contents are the same. -/
theorem Knobs.ext_get {knobs other : Knobs} (h : ∀ key : Key, key.get knobs = key.get other) :
    knobs = other := by
  cases knobs
  cases other
  rw [Knobs.mk.injEq]
  exact ⟨h .sampleSize, h .maxPathLength, h .seed, h .ngramSize, h .setBased⟩

/-- Configurations with the same contents are the same. -/
theorem Config.ext_get {config other : Config} (h : ∀ key : Key, key.get config = key.get other) :
    config = other := by
  cases config
  cases other
  rw [Config.mk.injEq]
  exact ⟨h .slots, h .scale, h .granularity, h .maxTimePerSlot, h .rebalance, h .schedulerKeys,
    h .modelFiles, h .metricsPrefix⟩

/-! ## By what stands in a document -/

namespace Config

variable {settings : Value} {config : Config}

/-- What stands under a key of a document. -/
theorem exists_lookup_of_shape {key : String} {rest : List String} {shape : Shape}
    (h : settings.shape? (key :: rest) = some shape) :
    ∃ entries value, settings = .table entries ∧ lookup key entries = some value ∧
      value.shape? rest = some shape := by
  cases settings with
  | table entries =>
    obtain ⟨value, hlookup, hshape⟩ := Option.bind_eq_some_iff.mp h
    exact ⟨entries, value, rfl, hlookup, hshape⟩
  | _ => cases h

/-- A value that stands under a key is what the key's content is read from. -/
theorem get_of_shape (ordered : settings.Ordered) (made : ofValue merged settings = .ok config)
    (key : Key) {value : Value} (h : settings.shape? [key.name] = some (.leaf value)) :
    key.read value = .ok (key.get config) := by
  obtain ⟨entries, found, rfl, hlookup, hshape⟩ := exists_lookup_of_shape h
  cases ordered with
  | leaf hleaf => cases hleaf
  | table inOrder each =>
    rw [Value.eq_of_shape (Option.some.inj hshape)] at hlookup
    exact (keyWise.get_of_record key inOrder made).1 value hlookup

/-- The knobs are read from a table under their key. -/
theorem knobs_of_lookup {entries inner : List (String × Value)}
    (ordered : (Value.table entries).Ordered)
    (made : ofValue merged (.table entries) = .ok config)
    (h : lookup Key.rebalance.name entries = some (.table inner)) :
    InKeyOrder inner ∧ Knobs.ofValue merged (.table inner) = .ok config.rebalance := by
  have hinner := ordered.of_lookup h
  cases ordered with
  | leaf hleaf => cases hleaf
  | table inOrder each =>
    cases hinner with
    | leaf hleaf => cases hleaf
    | table inOrder' each' =>
      exact ⟨inOrder', (keyWise.get_of_record Key.rebalance inOrder made).1 _ h⟩

/-- Whatever stands under a knob's key is what the knob is read from. -/
theorem exists_knob_of_shape (ordered : settings.Ordered)
    (made : ofValue merged settings = .ok config) (knob : Knobs.Key) {shape : Shape}
    (h : settings.shape? [Key.rebalance.name, knob.name] = some shape) :
    ∃ value, value.shape = shape ∧ knob.read value = .ok (knob.get config.rebalance) := by
  obtain ⟨entries, found, rfl, hlookup, hshape⟩ := exists_lookup_of_shape h
  obtain ⟨inner, value, rfl, hlookup', hshape'⟩ := exists_lookup_of_shape hshape
  obtain ⟨inOrder, hread⟩ := knobs_of_lookup ordered made hlookup
  exact ⟨value, Option.some.inj hshape',
    (Knobs.keyWise.get_of_record knob inOrder hread).1 value hlookup'⟩

/-- A knob is read from the value that stands under its key, and has its default if nothing
stands there. -/
theorem knob_of_shape (ordered : settings.Ordered) (made : ofValue merged settings = .ok config)
    (knob : Knobs.Key) :
    (∀ value, settings.shape? [Key.rebalance.name, knob.name] = some (.leaf value) →
        knob.read value = .ok (knob.get config.rebalance)) ∧
      (settings.shape? [Key.rebalance.name] = some .table →
        settings.shape? [Key.rebalance.name, knob.name] = none →
          knob.get config.rebalance = knob.get Knobs.default) := by
  constructor
  · intro value h
    obtain ⟨found, hshape, hread⟩ := exists_knob_of_shape ordered made knob h
    rwa [Value.eq_of_shape hshape] at hread
  · -- the knob has no entry of its own, so the record started from the default
    intro htable hnone
    obtain ⟨entries, found, rfl, hlookup, hshape⟩ := exists_lookup_of_shape htable
    obtain ⟨inner, rfl⟩ := Value.eq_table_of_shape (Option.some.inj hshape)
    obtain ⟨inOrder, hread⟩ := knobs_of_lookup ordered made hlookup
    have hmissing : lookup knob.name inner = none := by
      rw [Value.shape?, hlookup] at hnone
      have hbind : (lookup knob.name inner).bind (Value.shape? []) = none := hnone
      cases hfound : lookup knob.name inner with
      | none => rfl
      | some value =>
        rw [hfound] at hbind
        cases hbind
    exact (Knobs.keyWise.get_of_record knob inOrder hread).2 hmissing

end Config

end AlgorithmPortfolio
