import AlgorithmPortfolio.Generator
import AlgorithmPortfolio.PathModel
import AlgorithmPortfolio.Portfolio
import AlgorithmPortfolio.Rebalance.Outcome
import AlgorithmPortfolio.Settings.Config

/-!
# The reallocation pass

A pass looks at every slot, divides the seconds above the floors by votes, and sets new limits.
Slots that progressed vote with their models: for sampled paths to open targets, how likely is
each slot to be the one that the path is familiar to? A sole slot that progressed takes
everything.

- `Draws`: the sources of chance, a path sampler and a stream of random numbers.
- `survey`: the measurements and the open targets of all slots, or the first that is missing.
- `voters`, `tally`, `vote`: the slots that vote, and their average votes.
- `elect`: the votes of all slots.
- `pass`: the outcome, and the slots and draws after it. The draws are touched by a vote alone.
-/

namespace AlgorithmPortfolio.Rebalance

variable {α σ : Type} [Arith α]

open Arith

/-! ## Chance -/

/-- The sources of chance of a pass. -/
structure Draws (σ : Type) where
  sampler : σ
  generator : Generator

/-- A path to one of several targets, cut to a length, and the sources after it. -/
def Draws.path [PathSampler σ] (targets : List Nat) (maxLength : Nat) (draws : Draws σ) :
    List String × Draws σ :=
  let (k, generator) := draws.generator.below targets.length
  let (path, sampler) := PathSampler.pathTo (targets.getD k 0) maxLength draws.sampler
  (path.take maxLength, ⟨sampler, generator⟩)

/-! ## Measurements -/

/-- What a pass sees of all slots: progress and limit of each, and all open targets. -/
structure Survey (α : Type) where
  observations : List (α × Nat)
  targets : TargetSet

/-- The survey of slots in their order, or the first measurement that is missing, and the slots
after their engines were asked. -/
def survey (engines : Engines α) : List (Slot α) → Except SkipReason (Survey α) × List (Slot α)
  | [] => (.ok ⟨[], TargetSet.empty⟩, [])
  | slot :: rest =>
    match slot.progress with
    | none => (.error (.missingProgress slot.id), slot :: rest)
    | some progress =>
      match slot.openTargets engines with
      | (none, asked) => (.error (.missingTargets slot.id), asked :: rest)
      | (some targets, asked) =>
        let (seen, rest) := survey engines rest
        (seen.map fun s => ⟨(progress, slot.limit) :: s.observations, targets.union s.targets⟩,
          asked :: rest)

/-! ## Votes -/

/-- A slot that votes. -/
structure Voter (α : Type) where
  prior : α
  model : PathModel α

/-- The logarithm of the chance that the slot is the one for a path, up to a summand that all
slots share. -/
def Voter.logit (vocabulary : Nat) (path : List String) (voter : Voter α) : α :=
  ln voter.prior + voter.model.score vocabulary path

/-- The voters at positions, or the first slot without a model. -/
def voters (slots : List (Slot α)) (models : List (Option (PathModel α))) (prior : List α) :
    List Nat → Except SkipReason (List (Voter α))
  | [] => .ok []
  | position :: rest =>
    match models[position]?.join with
    | none => .error (.missingModel ((slots[position]?.map Slot.id).getD ""))
    | some model => do
      return ⟨prior.getD position zero, model⟩ :: (← voters slots models prior rest)

/-- The votes with those for as many more paths added. -/
def tally [PathSampler σ] (voters : List (Voter α)) (vocabulary : Nat) (targets : List Nat)
    (maxLength : Nat) : Nat → List α → Draws σ → List α × Draws σ
  | 0, votes, draws => (votes, draws)
  | samples + 1, votes, draws =>
    let (path, draws) := draws.path targets maxLength
    let shares := LogSpace.posterior (voters.map (Voter.logit vocabulary path))
    tally voters vocabulary targets maxLength samples (List.zipWith (· + ·) votes shares) draws

/-- The average votes of the voters over all sampled paths, of which there is at least one. -/
def vote [PathSampler σ] (knobs : Knobs) (voters : List (Voter α)) (targets : List Nat)
    (draws : Draws σ) : List α × Draws σ :=
  let samples := max knobs.sampleSize 1
  let vocabulary := vocabularySize (voters.map Voter.model)
  let (votes, draws) := tally voters vocabulary targets knobs.maxPathLength samples
    (voters.map fun _ => zero) draws
  (votes.map (· / ofInt samples), draws)

/-- Shares at positions, and zero everywhere else. -/
def spread (count : Nat) (positions : List Nat) (shares : List α) : List α :=
  (positions.zip shares).foldl (fun votes entry => votes.set entry.1 entry.2)
    (List.replicate count zero)

@[simp] theorem length_spread (count : Nat) (positions : List Nat) (shares : List α) :
    (spread count positions shares).length = count := by
  have (entries : List (Nat × α)) (votes : List α) :
      (entries.foldl (fun votes entry => votes.set entry.1 entry.2) votes).length =
        votes.length := by
    induction entries generalizing votes with
    | nil => rfl
    | cons entry rest ih => simp [ih]
  simp [spread, this]

/-- The votes of all slots, or why there are none, and the draws after them. -/
def elect [PathSampler σ] (knobs : Knobs) (models : List (Option (PathModel α)))
    (slots : List (Slot α)) (seen : Survey α) (draws : Draws σ) :
    Except SkipReason (List α) × Draws σ :=
  let prior := progressPrior seen.observations
  match eligible prior with
  -- a sole slot that progressed needs neither a model nor a draw
  | [sole] => (.ok (spread slots.length [sole] [one]), draws)
  | positions =>
    match voters slots models prior positions with
    | .error reason => (.error reason, draws)
    | .ok voters =>
      if seen.targets.isEmpty then (.error .noTargets, draws)
      else
        let (votes, draws) := vote knobs voters seen.targets.toList draws
        (.ok (spread slots.length positions votes), draws)

/-! ## Limits -/

/-- The slots with the limits of votes for a budget. -/
def reallocate (votes : List α) (budget : Int) (slots : List (Slot α)) : List (Slot α) :=
  List.zipWith (fun slot limit => slot.adapt limit) slots (limitsOfVotes votes budget)

/-- The pass over the slots after `round` completed rounds. -/
def pass [PathSampler σ] (engines : Engines α) (knobs : Knobs) (round : Nat)
    (models : List (Option (PathModel α))) (slots : List (Slot α)) (draws : Draws σ) :
    Outcome × List (Slot α) × Draws σ :=
  if round = 0 then (.skipped .firstRound, slots, draws)
  else
    match survey engines slots with
    | (.error reason, slots) => (.skipped reason, slots, draws)
    | (.ok seen, slots) =>
      -- every slot measured and all targets known: what is there to distribute?
      let budget := distributable (seen.observations.map Prod.snd)
      if budget ≤
        slots.length then (.skipped (.insufficientBudget budget slots.length), slots, draws)
      else
        match elect knobs models slots seen draws with
        | (.error reason, draws) => (.skipped reason, slots, draws)
        | (.ok votes, draws) =>
          let slots := reallocate votes budget slots
          (.applied budget (slots.map Slot.limit), slots, draws)

end AlgorithmPortfolio.Rebalance
