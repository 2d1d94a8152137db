import AlgorithmPortfolio.Proofs.Settings.Precedence

/-!
# Knobs that are set together

Knobs are laid over the settings as a table, which has no entry for a seed that they do not
have. So they replace every knob but a seed: knobs without a seed leave the one that stands in
the settings.

- `Knobs.Key.written`: what knobs have under each key as a document.
- `seedAfter`: the seed that calls leave.
- `rebalance_of_knobs`: the knobs of a configuration right after a call that sets them all.
- `rebalance_keeps_seed`: knobs without a seed do not take a seed away.
-/

namespace AlgorithmPortfolio

open Document (Value Shape)

/-! ## Knobs as a document -/

/-- What stands under a key of the document of knobs, which is nothing for a seed that they do
not have. -/
def Knobs.Key.written (knobs : Knobs) : Key → Option Value
  | .sampleSize => some (.integer knobs.sampleSize)
  | .maxPathLength => some (.integer knobs.maxPathLength)
  | .seed => knobs.seed.map fun (seed : Nat) => .integer seed
  | .ngramSize => some (.integer knobs.ngramSize)
  | .setBased => some (.bool knobs.setBased)

theorem Knobs.verdict_toValue (knobs : Knobs) (key : Key) :
    knobs.toValue.verdict [key.name] = (key.written knobs).map fun value => some (.leaf value) := by
  obtain ⟨sampleSize, maxPathLength, seed, ngramSize, setBased⟩ := knobs
  cases seed with
  | none =>
    cases key with
    | _ => rfl
  | some seed =>
    cases key with
    | _ => rfl

/-- What is read from the document of knobs is what they have. -/
theorem Knobs.get_of_written {knobs other : Knobs} {key : Key} {value : Value}
    (h : key.written knobs = some value) (hread : key.read value = .ok (key.get other)) :
    key.get other = key.get knobs := by
  cases key with
  | seed =>
    obtain ⟨seed, hseed, rfl⟩ := Option.map_eq_some_iff.mp h
    exact (toNat_of_optional hread).trans hseed.symm
  | setBased =>
    cases h
    exact (Except.ok.inj hread).symm
  | sampleSize =>
    cases h
    exact (toNat_of_natural hread).symm
  | maxPathLength =>
    cases h
    exact (toNat_of_natural hread).symm
  | ngramSize =>
    cases h
    exact (toNat_of_natural hread).symm

/-- The seed in what stands under its key, if that is a number. -/
def seedIn : Shape → Option Nat
  | .leaf (.integer seed) => some seed.toNat
  | _ => none

theorem eq_seedIn_of_read {value : Value} {seed : Option Nat}
    (h : Knobs.Key.seed.read value = .ok seed) : seed = seedIn value.shape := by
  cases value with
  | null =>
    cases h
    rfl
  | integer i => exact toNat_of_optional h
  | _ => cases h

namespace Builder

/-! ## Knobs after other calls -/

/-- The seed that calls leave, as the last of them that said something about it has it. -/
def seedAfter (tree : Storage.Tree) (values : Dict String) (calls : List Call) : Option Nat :=
  (decided tree values calls [Config.Key.rebalance.name, Knobs.Key.seed.name]).bind seedIn

/-- Knobs decide what they have, and leave the rest. -/
theorem decided_rebalance (tree : Storage.Tree) (values : Dict String) (calls : List Call)
    (knobs : Knobs) (path : List String) :
    decided tree values (calls ++ [.rebalance knobs]) (Config.Key.rebalance.name :: path) =
      (knobs.toValue.verdict path).getD
        (decided tree values calls (Config.Key.rebalance.name :: path)) := by
  have hlayers : layersOf tree values [] (calls ++ [.rebalance knobs]) =
      layersOf tree values [] calls ++ [.single Config.Key.rebalance.name knobs.toValue] :=
    layersOf_append tree values [] calls [.rebalance knobs]
  have hverdict : Value.decision (Config.Key.rebalance.name :: path)
      [.single Config.Key.rebalance.name knobs.toValue] = knobs.toValue.verdict path := rfl
  rw [decided, hlayers, Value.decision_append, hverdict, decided]
  cases knobs.toValue.verdict path with
  | none => rfl
  | some said => rfl

section

variable {tree : Storage.Tree} {values : Dict String} {calls : List Call} {knobs : Knobs}
  {config : Config}

/-- What knobs have is what the configuration has. -/
theorem knob_of_rebalance
    (made : (after tree values (calls ++ [.rebalance knobs])).config = .ok config)
    (key : Knobs.Key) {value : Value} (h : key.written knobs = some value) :
    key.get config.rebalance = key.get knobs := by
  obtain ⟨settings, -, ordered, hshape, hread⟩ := exists_decided (extract_of_config made)
  have hstands : settings.shape? [Config.Key.rebalance.name, key.name] = some (.leaf value) := by
    rw [hshape, decided_rebalance, knobs.verdict_toValue, h]
    rfl
  exact Knobs.get_of_written h ((Config.knob_of_shape ordered hread key).1 value hstands)

/-- Knobs without a seed leave the seed that there was. -/
theorem seed_of_rebalance
    (made : (after tree values (calls ++ [.rebalance knobs])).config = .ok config)
    (h : knobs.seed = none) : config.rebalance.seed = seedAfter tree values calls := by
  obtain ⟨settings, -, ordered, hshape, hread⟩ := exists_decided (extract_of_config made)
  -- the document of the knobs says nothing about the seed, so what stood at its path stays
  have hstands : settings.shape? [Config.Key.rebalance.name, Knobs.Key.seed.name] =
      decided tree values calls [Config.Key.rebalance.name, Knobs.Key.seed.name] := by
    rw [hshape, decided_rebalance, knobs.verdict_toValue, Knobs.Key.written, h]
    rfl
  rw [seedAfter, ← hstands]
  cases hleft : settings.shape? [Config.Key.rebalance.name, Knobs.Key.seed.name] with
  | none =>
    -- nothing stood there: a seed that is missing in a table of knobs is the default one, which
    -- is none
    have htable : settings.shape? [Config.Key.rebalance.name] = some .table := by
      rw [hshape, decided_rebalance]
      rfl
    exact (Config.knob_of_shape ordered hread .seed).2 htable hleft
  | some shape =>
    obtain ⟨value, rfl, hvalue⟩ := Config.exists_knob_of_shape ordered hread .seed hleft
    exact eq_seedIn_of_read hvalue

/-- **Knobs that are set together.** Say a configuration can be extracted right after a call
that sets all knobs, whatever calls came before. It has these knobs, but for the seed: if they
have none, it keeps the one that the earlier calls left. So it has exactly these knobs if and
only if they have a seed or no seed was left. -/
theorem rebalance_of_knobs
    (made : (after tree values (calls ++ [.rebalance knobs])).config = .ok config) :
    config.rebalance = { knobs with seed := knobs.seed.or (seedAfter tree values calls) } ∧
      (config.rebalance = knobs ↔ knobs.seed ≠ none ∨ seedAfter tree values calls = none) := by
  -- a seed that is given is written, and one that is not leaves the one before
  have hseed : config.rebalance.seed = knobs.seed.or (seedAfter tree values calls) := by
    cases hgiven : knobs.seed with
    | some seed =>
      have hwritten : Knobs.Key.seed.written knobs = some (.integer seed) := by
        rw [Knobs.Key.written, hgiven]
        rfl
      exact (knob_of_rebalance made .seed hwritten).trans hgiven
    | none => exact seed_of_rebalance made hgiven
  have hknobs :
      config.rebalance = { knobs with seed := knobs.seed.or (seedAfter tree values calls) } := by
    refine Knobs.ext_get ?_
    intro key
    cases key with
    | seed => exact hseed
    | sampleSize => exact knob_of_rebalance made .sampleSize rfl
    | maxPathLength => exact knob_of_rebalance made .maxPathLength rfl
    | ngramSize => exact knob_of_rebalance made .ngramSize rfl
    | setBased => exact knob_of_rebalance made .setBased rfl
  refine ⟨hknobs, ?_⟩
  rw [hknobs]
  -- the two are the same in all but the seed
  obtain ⟨sampleSize, maxPathLength, given, ngramSize, setBased⟩ := knobs
  cases given with
  | some seed => exact iff_of_true rfl (.inl (Option.some_ne_none seed))
  | none => simp

end

/-- Knobs with a seed replace the seed and the other knobs that were set before. -/
theorem rebalance_of_knobs_seeded :
    let before := [.seed 7, .arguments { Arguments.empty with sampleSize := some 40 }]
    let knobs := ⟨3, 64, some 9, 2, false⟩
    ∃ config, (after .empty .empty (before ++ [.rebalance knobs])).config = .ok config ∧
      config.rebalance = knobs := by
  intro before knobs
  have hmade : (after .empty .empty (before ++ [.rebalance knobs])).config.toOption =
      some { Config.default with rebalance := knobs } := by
    decide +kernel
  have hconfig := eq_ok_of_toOption hmade
  exact ⟨_, hconfig, (rebalance_of_knobs hconfig).2.mpr (.inl (Option.some_ne_none 9))⟩

/-- A seed that was set before stays when all knobs are set to ones without a seed. -/
theorem rebalance_keeps_seed :
    ∃ config, (after .empty .empty [.seed 7, .rebalance Knobs.default]).config = .ok config ∧
      config.rebalance ≠ Knobs.default ∧ config.rebalance.seed = some 7 ∧
      Knobs.default.seed = none := by
  have hmade : (after .empty .empty [.seed 7, .rebalance Knobs.default]).config.toOption =
      some { Config.default with rebalance := { Knobs.default with seed := some 7 } } := by
    decide +kernel
  exact ⟨_, eq_ok_of_toOption hmade, by decide, rfl, rfl⟩

end Builder

end AlgorithmPortfolio
