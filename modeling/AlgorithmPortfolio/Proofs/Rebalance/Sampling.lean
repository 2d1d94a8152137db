import AlgorithmPortfolio.Proofs.Exact.Bayes
import AlgorithmPortfolio.Proofs.Rebalance.Skipped

/-!
# What a vote samples

A vote draws a target, asks the path sampler for a path to it and scores the path, as often as
it has samples. A recorder in place of the sampler keeps what it was asked, and the pass does
not notice it.

- `PathSampler.Recorded`: a path sampler with its calls.
- `Draws.calls`, `Draws.after`: the calls for a number of samples, and the sources after them.
- `drawn`: the targets of these calls. The sampler has no part in them (`map_target_calls`), and
  they are targets that were there to choose from (`mem_of_mem_drawn`).
- `vote_recorded`, `elect_recorded`, `rebalance_recorded`: a recorder goes along with votes,
  elections and passes, and has their calls in the end.
- `RoundRobin.Votes`: whether a pass comes to a vote. Otherwise there are no calls
  (`calls_of_votes`, `calls_of_not_votes`).
- `PathModel.AgreesOn`, `rebalance_of_agreesOn`: models matter by their tokens and their scores
  of the paths that were cut to length, and by nothing else.
-/

namespace AlgorithmPortfolio

variable {α σ : Type}

/-! ## Recorders -/

namespace PathSampler

/-- A question to a path sampler, and its answer. -/
structure Call where
  target : Nat
  maxLength : Nat
  path : List String

/-- The part of the answer that was asked for. -/
def Call.scored (call : Call) : List String := call.path.take call.maxLength

/-- A path sampler with the questions that it was asked so far. -/
structure Recorded (σ : Type) where
  inner : σ
  calls : List Call

instance [PathSampler σ] : PathSampler (Recorded σ) where
  pathTo target maxLength recorded :=
    let (path, inner) := pathTo target maxLength recorded.inner
    (path, ⟨inner, recorded.calls ++ [⟨target, maxLength, path⟩]⟩)

end PathSampler

/-- Whether another model knows the same tokens and scores paths the same. -/
structure PathModel.AgreesOn (paths : List (List String)) (model other : PathModel α) : Prop where
  vocabulary : other.vocabulary = model.vocabulary
  score : ∀ path ∈ paths, ∀ size, other.score size path = model.score size path

namespace Rebalance

open PathSampler (Call Recorded)

/-! ## Draws -/

section Draws

/-- The sources of chance with a recorder. -/
def Draws.recorded (calls : List Call) (draws : Draws σ) : Draws (Recorded σ) :=
  ⟨⟨draws.sampler, calls⟩, draws.generator⟩

/-- The targets of a number of samples. -/
def drawn (targets : List Nat) : Nat → Generator → List Nat
  | 0, _ => []
  | samples + 1, generator =>
    targets.getD (generator.below targets.length).1 0 ::
      drawn targets samples (generator.below targets.length).2

/-- Every choice is below the number of targets, so it chooses one of them. -/
theorem mem_of_mem_drawn {targets : List Nat} (hne : targets ≠ []) {samples : Nat}
    {generator : Generator} {target : Nat} (h : target ∈ drawn targets samples generator) :
    target ∈ targets := by
  induction samples generalizing generator with
  | zero => cases h
  | succ samples ih =>
    rw [drawn, List.mem_cons] at h
    rcases h with rfl | hrest
    · have hlt := Generator.below_lt (List.length_pos_iff.mpr hne) generator
      rw [List.getD_eq_getElem?_getD, List.getElem?_eq_getElem hlt]
      exact List.getElem_mem hlt
    · exact ih hrest

variable [PathSampler σ] (targets : List Nat) (maxLength : Nat)

/-- The call of one sample. -/
def Draws.call (draws : Draws σ) : Call :=
  let target := targets.getD (draws.generator.below targets.length).1 0
  ⟨target, maxLength, (PathSampler.pathTo target maxLength draws.sampler).1⟩

/-- The calls of a number of samples. -/
def Draws.calls : Nat → Draws σ → List Call
  | 0, _ => []
  | samples + 1, draws =>
    draws.call targets maxLength :: Draws.calls samples (draws.path targets maxLength).2

/-- The sources of chance after a number of samples. -/
def Draws.after : Nat → Draws σ → Draws σ
  | 0, draws => draws
  | samples + 1, draws => Draws.after samples (draws.path targets maxLength).2

@[simp] theorem Draws.length_calls (samples : Nat) (draws : Draws σ) :
    (draws.calls targets maxLength samples).length = samples := by
  induction samples generalizing draws with
  | zero => rfl
  | succ samples ih => exact congrArg (· + 1) (ih _)

variable {targets maxLength}

theorem Draws.maxLength_of_mem_calls {samples : Nat} {draws : Draws σ} {call : Call}
    (h : call ∈ draws.calls targets maxLength samples) : call.maxLength = maxLength := by
  induction samples generalizing draws with
  | zero => cases h
  | succ samples ih =>
    rcases List.mem_cons.mp h with rfl | hrest
    · rfl
    · exact ih hrest

variable (targets maxLength)

/-- A sample scores the path of its call, and moves on the generator and the sampler. -/
theorem Draws.path_eq (draws : Draws σ) :
    draws.path targets maxLength =
      ((draws.call targets maxLength).scored,
        ⟨(PathSampler.pathTo (draws.call targets maxLength).target maxLength draws.sampler).2,
          (draws.generator.below targets.length).2⟩) := by
  unfold Draws.path Draws.call
  rcases draws.generator.below targets.length with ⟨k, generator⟩
  rfl

/-- The targets are drawn from the generator alone. -/
theorem Draws.map_target_calls (samples : Nat) (draws : Draws σ) :
    (draws.calls targets maxLength samples).map Call.target =
      drawn targets samples draws.generator := by
  induction samples generalizing draws with
  | zero => rfl
  | succ samples ih =>
    rw [Draws.calls, List.map_cons, ih, Draws.path_eq]
    rfl

/-- The paths of a vote are the answers, cut to length. -/
theorem Draws.paths_eq (samples : Nat) (draws : Draws σ) :
    draws.paths targets maxLength samples =
      (draws.calls targets maxLength samples).map Call.scored := by
  induction samples generalizing draws with
  | zero => rfl
  | succ samples ih =>
    unfold Draws.paths
    rw [Draws.calls, List.map_cons, ← ih, Draws.path_eq]

/-- A recorder gets the call of each sample. -/
theorem Draws.path_recorded (calls : List Call) (draws : Draws σ) :
    (draws.recorded calls).path targets maxLength =
      ((draws.path targets maxLength).1,
        (draws.path targets maxLength).2.recorded (calls ++ [draws.call targets maxLength])) := by
  rw [Draws.path_eq, Draws.path_eq]
  rfl

theorem Draws.paths_recorded (samples : Nat) (calls : List Call) (draws : Draws σ) :
    (draws.recorded calls).paths targets maxLength samples =
      draws.paths targets maxLength samples := by
  induction samples generalizing calls draws with
  | zero => rfl
  | succ samples ih =>
    unfold Draws.paths
    simp only [Draws.path_recorded, ih]

theorem Draws.after_recorded (samples : Nat) (calls : List Call) (draws : Draws σ) :
    (draws.recorded calls).after targets maxLength samples =
      (draws.after targets maxLength samples).recorded
        (calls ++ draws.calls targets maxLength samples) := by
  induction samples generalizing calls draws with
  | zero => exact congrArg draws.recorded (List.append_nil calls).symm
  | succ samples ih =>
    rw [Draws.after, Draws.path_recorded, ih, Draws.calls, List.append_assoc]
    rfl

end Draws

/-! ## Votes -/

variable [Arith α] [PathSampler σ]

/-- The votes have no part in what becomes of the sources. -/
theorem snd_tally (voters : List (Voter α)) (vocabulary : Nat) (targets : List Nat)
    (maxLength samples : Nat) (votes : List α) (draws : Draws σ) :
    (tally voters vocabulary targets maxLength samples votes draws).2 =
      draws.after targets maxLength samples := by
  induction samples generalizing votes draws with
  | zero => rfl
  | succ samples ih => exact ih _ _

/-- The calls of a vote over targets. -/
def voteCalls (knobs : Knobs) (targets : List Nat) (draws : Draws σ) : List Call :=
  draws.calls targets knobs.maxPathLength (max knobs.sampleSize 1)

theorem snd_vote (knobs : Knobs) (voters : List (Voter α)) (targets : List Nat) (draws : Draws σ) :
    (vote knobs voters targets draws).2 =
      draws.after targets knobs.maxPathLength (max knobs.sampleSize 1) :=
  snd_tally ..

theorem vote_recorded (knobs : Knobs) (voters : List (Voter α)) (targets : List Nat)
    (calls : List Call) (draws : Draws σ) :
    vote knobs voters targets (draws.recorded calls) =
      ((vote knobs voters targets draws).1,
        (vote knobs voters targets draws).2.recorded (calls ++ voteCalls knobs targets draws)) := by
  refine Prod.ext ?_ ?_
  · simp only [vote, tally_eq_foldl, Draws.paths_recorded]
  · rw [snd_vote, snd_vote, Draws.after_recorded, voteCalls]

/-! ## Models -/

section Models

variable {paths : List (List String)} {models others : List (Option (PathModel α))}

/-- Whether another voter has the same prior, and a model that says the same of paths. -/
def Voter.AgreesOn (paths : List (List String)) (voter other : Voter α) : Prop :=
  other.prior = voter.prior ∧ voter.model.AgreesOn paths other.model

omit [PathSampler σ] [Arith α] in
/-- Models that agree are found at the same positions. -/
theorem lookup_of_agreesOn (h : List.Forall₂ (Option.Rel (PathModel.AgreesOn paths)) models others)
    (position : Nat) :
    Option.Rel (PathModel.AgreesOn paths) models[position]?.join others[position]?.join := by
  induction h generalizing position with
  | nil => exact .none
  | cons hfirst _ ih =>
    cases position with
    | zero => simpa using hfirst
    | succ position => simpa using ih position

/-- Voters with models that agree are voters that agree. -/
theorem voters_of_agreesOn (h : List.Forall₂ (Option.Rel (PathModel.AgreesOn paths)) models others)
    (slots : List (Slot α)) (prior : List α) {positions : List Nat} {found : List (Voter α)}
    (hfound : voters slots models prior positions = .ok found) :
    ∃ found', voters slots others prior positions = .ok found' ∧
      List.Forall₂ (Voter.AgreesOn paths) found found' := by
  induction positions generalizing found with
  | nil =>
    cases hfound
    exact ⟨[], rfl, .nil⟩
  | cons position rest ih =>
    -- the lookups at the position agree: both find a model or neither does
    have hlookup := lookup_of_agreesOn h position
    cases hmodel : models[position]?.join with
    | none =>
      simp only [voters, hmodel] at hfound
      cases hfound
    | some model =>
      -- a missing model anywhere fails the search, so the rest succeeds too
      cases hrest : voters slots models prior rest with
      | error reason =>
        simp only [voters, hmodel, hrest] at hfound
        cases hfound
      | ok foundRest =>
        simp only [voters, hmodel, hrest] at hfound
        cases hfound
        obtain ⟨found', hfound', hagree⟩ := ih hrest
        rw [hmodel] at hlookup
        rcases hother : others[position]?.join with - | other
        · rw [hother] at hlookup
          cases hlookup
        · rw [hother] at hlookup
          cases hlookup with
          | some hmodels =>
            refine ⟨⟨prior.getD position Arith.zero, other⟩ :: found', ?_,
              .cons ⟨rfl, hmodels⟩ hagree⟩
            simp only [voters, hother, hfound']
            rfl

omit [PathSampler σ] [Arith α] in
theorem map_of_agreesOn {β : Type} {found others : List (Voter α)}
    (h : List.Forall₂ (Voter.AgreesOn paths) found others) {f : Voter α → β}
    (hf : ∀ voter other, Voter.AgreesOn paths voter other → f other = f voter) :
    others.map f = found.map f := by
  induction h with
  | nil => rfl
  | cons hfirst _ ih => rw [List.map_cons, List.map_cons, hf _ _ hfirst, ih]

/-- Voters that agree on the sampled paths have the same votes. -/
theorem vote_of_agreesOn (knobs : Knobs) (targets : List Nat) (draws : Draws σ)
    {found others : List (Voter α)}
    (h : List.Forall₂ (Voter.AgreesOn ((voteCalls knobs targets draws).map Call.scored)) found
      others) :
    vote knobs others targets draws = vote knobs found targets draws := by
  -- the vocabularies are the same, so the common size is
  have hvocabulary : vocabularySize (others.map Voter.model) =
      vocabularySize (found.map Voter.model) := by
    have hmap := map_of_agreesOn h (f := fun voter => voter.model.vocabulary) fun _ _ agree =>
      agree.2.vocabulary
    unfold vocabularySize
    rw [List.flatMap_map, List.flatMap_map, List.flatMap_def, hmap, List.flatMap_def]
  -- the scores agree on the paths that are drawn, and no other path is scored
  have hlogits (vocabulary : Nat) (path : List String)
      (hpath : path ∈ draws.paths targets knobs.maxPathLength (max knobs.sampleSize 1)) :
      others.map (Voter.logit vocabulary path) = found.map (Voter.logit vocabulary path) := by
    rw [Draws.paths_eq] at hpath
    refine map_of_agreesOn h fun voter other agree => ?_
    rw [Voter.logit, Voter.logit, agree.1, agree.2.score path hpath]
  have hstart : (others.map fun _ => (Arith.zero : α)) = found.map fun _ => Arith.zero :=
    map_of_agreesOn h fun _ _ _ => rfl
  refine Prod.ext ?_ ?_
  · simp only [vote, tally_eq_foldl, hvocabulary, hstart]
    rw [List.foldl_ext _ _ _ fun votes path hpath => by rw [hlogits _ path hpath]]
  · -- the draws are of the targets alone, whatever the voters are
    rw [snd_vote, snd_vote]

end Models

/-! ## Elections -/

section Elections

variable (knobs : Knobs) (models : List (Option (PathModel α))) (slots : List (Slot α))
  (seen : Survey α) (draws : Draws σ)

/-- The calls of an election: those of its vote, if there is one. -/
def electionCalls : List Call :=
  if seen.mask.length ≠ 1 ∧ seen.mask.find? (isUnmodelled models) = none ∧
    seen.targets.isEmpty = false then
    voteCalls knobs seen.targets.toList draws
  else []

variable {knobs models slots seen draws} in
/-- The election of voters that were found. -/
theorem elect_found (contested : seen.mask.length ≠ 1) {found : List (Voter α)}
    (hfound : voters slots models (progressPrior seen.observations) seen.mask = .ok found)
    (targeted : seen.targets.isEmpty = false) :
    elect knobs models slots seen draws =
      (.ok (spread slots.length seen.mask (vote knobs found seen.targets.toList draws).1),
        (vote knobs found seen.targets.toList draws).2) := by
  rw [elect_contested _ _ _ _ contested, hfound]
  exact if_neg (by simp [targeted])

theorem elect_recorded (calls : List Call) :
    elect knobs models slots seen (draws.recorded calls) =
      ((elect knobs models slots seen draws).1,
        (elect knobs models slots seen draws).2.recorded
          (calls ++ electionCalls knobs models seen draws)) := by
  rcases elect_cases models seen with ⟨position, sole⟩ | ⟨contested, position, first⟩ |
    ⟨contested, modelled, closed⟩ | ⟨contested, modelled, targeted⟩
  · -- the first three elections end before a path is asked for
    have hcalls : electionCalls knobs models seen draws = [] := if_neg (by simp [sole])
    rw [elect_sole _ _ _ _ sole, elect_sole _ _ _ _ sole, hcalls, List.append_nil]
  · have hcalls : electionCalls knobs models seen draws = [] := if_neg (by simp [first])
    rw [elect_unmodelled _ _ _ _ contested first, elect_unmodelled _ _ _ _ contested first, hcalls,
      List.append_nil]
  · have hcalls : electionCalls knobs models seen draws = [] := if_neg (by simp [closed])
    rw [elect_untargeted _ _ _ _ contested modelled closed,
      elect_untargeted _ _ _ _ contested modelled closed, hcalls, List.append_nil]
  · -- a vote asks for as many paths as are to be sampled
    have hcalls : electionCalls knobs models seen draws =
        voteCalls knobs seen.targets.toList draws :=
      if_pos ⟨contested, modelled, targeted⟩
    obtain ⟨found, hfound, -⟩ := voters_of_modelled slots (progressPrior seen.observations) modelled
    rw [elect_found contested hfound targeted, elect_found contested hfound targeted,
      vote_recorded, hcalls]

variable {knobs models draws} in
/-- Models that agree on the sampled paths elect the same votes. -/
theorem elect_of_agreesOn (contested : seen.mask.length ≠ 1)
    (modelled : seen.mask.find? (isUnmodelled models) = none)
    (targeted : seen.targets.isEmpty = false) {others : List (Option (PathModel α))}
    (agree : List.Forall₂
      (Option.Rel
        (PathModel.AgreesOn ((voteCalls knobs seen.targets.toList draws).map Call.scored)))
      models others) :
    elect knobs others slots seen draws = elect knobs models slots seen draws := by
  obtain ⟨found, hfound, -⟩ := voters_of_modelled slots (progressPrior seen.observations) modelled
  obtain ⟨found', hfound', hagree⟩ := voters_of_agreesOn agree slots _ hfound
  rw [elect_found contested hfound' targeted, elect_found contested hfound targeted,
    vote_of_agreesOn knobs _ draws hagree]

end Elections

end Rebalance

/-! ## Passes -/

namespace RoundRobin

open PathSampler (Call Recorded)
open Rebalance (allTargets isUnmodelled Outcome Draws)

/-- The schedule with a recorder in place of its path sampler. -/
def recorded (calls : List Call) (schedule : RoundRobin σ α) : RoundRobin (Recorded σ) α :=
  schedule.withSources schedule.models (schedule.draws.recorded calls)

variable [Arith α] [PathSampler σ]

/-- The calls of a pass: what a recorder has after it. -/
def calls (engines : Engines α) (schedule : RoundRobin σ α) : List Call :=
  ((schedule.recorded []).rebalance engines).2.draws.sampler.calls

/-- Whether a pass comes to a vote: several slots progressed, or none, and there are models and
targets. -/
structure Votes (engines : Engines α) (schedule : RoundRobin σ α) : Prop where
  budget : schedule.HasBudget engines
  contested : schedule.mask.length ≠ 1
  modelled : schedule.mask.find? (isUnmodelled schedule.models) = none
  target : schedule.HasTarget engines

instance (engines : Engines α) (schedule : RoundRobin σ α) : Decidable (schedule.Votes engines) :=
  decidable_of_iff
    (schedule.HasBudget engines ∧ schedule.mask.length ≠ 1 ∧
      (schedule.mask.find? (isUnmodelled schedule.models)).isNone = true ∧
      schedule.HasTarget engines)
    ⟨fun ⟨budget, contested, modelled, target⟩ =>
        ⟨budget, contested, Option.isNone_iff_eq_none.mp modelled, target⟩,
      fun ⟨budget, contested, modelled, target⟩ =>
        ⟨budget, contested, Option.isNone_iff_eq_none.mpr modelled, target⟩⟩

omit [PathSampler σ] in
/-- A schedule with a budget votes exactly if its election does. -/
theorem votes_iff {engines : Engines α} {schedule : RoundRobin σ α}
    (budget : schedule.HasBudget engines) :
    schedule.Votes engines ↔
      let seen := Rebalance.surveyOf engines schedule.portfolio.slots
      seen.mask.length ≠ 1 ∧ seen.mask.find? (isUnmodelled schedule.models) = none ∧
        seen.targets.isEmpty = false := by
  constructor
  · intro votes
    exact ⟨votes.contested, votes.modelled, hasTarget_iff.mp votes.target⟩
  · rintro ⟨contested, modelled, targeted⟩
    exact ⟨budget, contested, modelled, hasTarget_iff.mpr targeted⟩

/-- A recorder in place of the sampler changes nothing. It has the calls of the vote in the end,
if there is one. -/
theorem exists_recorded (engines : Engines α) (schedule : RoundRobin σ α) :
    ∃ calls, (schedule.recorded []).rebalance engines =
        ((schedule.rebalance engines).1, (schedule.rebalance engines).2.recorded calls) ∧
      (¬ schedule.Votes engines → calls = []) ∧
      (schedule.Votes engines →
        calls = Rebalance.voteCalls schedule.knobs
          (allTargets engines schedule.portfolio.slots).toList
          schedule.draws) := by
  rcases Rebalance.pass_cases engines schedule.knobs schedule.round schedule.models
    schedule.portfolio.slots schedule.draws with
    ⟨reason, slots, -, hskipped⟩ | ⟨votes, draws, later, ready, ample, helect, happlied⟩
  · have hpass : schedule.currentPass engines = (.skipped reason, slots, schedule.draws) :=
      hskipped schedule.models schedule.draws rfl
    have hrecorded : (schedule.recorded []).currentPass engines =
        (.skipped reason, slots, schedule.draws.recorded []) := hskipped _ _ rfl
    -- a skipped pass has asked for nothing, and it is no vote
    refine ⟨[], ?_, fun _ => rfl, fun votes => ?_⟩
    · rw [rebalance_of_pass hpass, rebalance_of_pass hrecorded]
      rfl
    · have := reason?_of_verdict (.voted votes.budget votes.contested votes.modelled votes.target)
      rw [rebalance_of_pass hpass] at this
      cases this
  · -- the election is the only part of the pass that asks for paths
    have hpass : schedule.currentPass engines = (.applied _ _, _, draws) := happlied
    have helect' := Rebalance.elect_recorded schedule.knobs schedule.models
      (schedule.portfolio.slots.map (Slot.asked engines))
      (Rebalance.surveyOf engines schedule.portfolio.slots) schedule.draws []
    rw [helect] at helect'
    have hrecorded : (schedule.recorded []).currentPass engines = _ :=
      Rebalance.pass_elected later ready ample helect'
    have budget : schedule.HasBudget engines := ⟨later, ready, ample⟩
    refine ⟨Rebalance.electionCalls schedule.knobs schedule.models
      (Rebalance.surveyOf engines schedule.portfolio.slots) schedule.draws,
      ?_, fun h => ?_, fun h => ?_⟩
    · rw [rebalance_of_pass hpass, rebalance_of_pass hrecorded]
      rfl
    · exact if_neg (mt (votes_iff budget).mpr h)
    · exact if_pos ((votes_iff budget).mp h)

/-- A recorder in place of the sampler changes nothing, and has the calls of the pass in the
end. -/
theorem rebalance_recorded (engines : Engines α) (schedule : RoundRobin σ α) :
    (schedule.recorded []).rebalance engines =
      ((schedule.rebalance engines).1,
        (schedule.rebalance engines).2.recorded (schedule.calls engines)) := by
  obtain ⟨calls, h, -⟩ := exists_recorded engines schedule
  rw [RoundRobin.calls, h]
  rfl

variable {engines : Engines α} {schedule : RoundRobin σ α}

theorem calls_of_not_votes (h : ¬ schedule.Votes engines) : schedule.calls engines = [] := by
  obtain ⟨calls, hrecorded, hnone, -⟩ := exists_recorded engines schedule
  rw [RoundRobin.calls, hrecorded]
  exact hnone h

theorem calls_of_votes (h : schedule.Votes engines) :
    schedule.calls engines =
      Rebalance.voteCalls schedule.knobs (allTargets engines schedule.portfolio.slots).toList
        schedule.draws := by
  obtain ⟨calls, hrecorded, -, hsome⟩ := exists_recorded engines schedule
  rw [RoundRobin.calls, hrecorded]
  exact hsome h

/-- Models that say the same of the paths that were cut to length come to the same pass. -/
theorem rebalance_of_agreesOn (votes : schedule.Votes engines)
    {others : List (Option (PathModel α))}
    (agree : List.Forall₂
      (Option.Rel (PathModel.AgreesOn ((schedule.calls engines).map Call.scored)))
      schedule.models others) :
    (schedule.withSources others schedule.draws).rebalance engines =
      ((schedule.rebalance engines).1,
        (schedule.rebalance engines).2.withSources others
          (schedule.rebalance engines).2.draws) := by
  rw [calls_of_votes votes] at agree
  have targeted := hasTarget_iff.mp votes.target
  let seen := Rebalance.surveyOf engines schedule.portfolio.slots
  let slots := schedule.portfolio.slots.map (Slot.asked engines)
  obtain ⟨found, -, hvoted⟩ := Rebalance.elect_voted schedule.knobs slots seen schedule.draws
    votes.contested votes.modelled targeted
  have hvoted' :=
    (Rebalance.elect_of_agreesOn slots seen votes.contested votes.modelled targeted agree).trans
    hvoted
  -- the same votes give the same pass
  have hpass : schedule.currentPass engines = _ :=
    Rebalance.pass_elected votes.budget.later votes.budget.ready votes.budget.ample hvoted
  have hpass' : (schedule.withSources others schedule.draws).currentPass engines = _ :=
    Rebalance.pass_elected votes.budget.later votes.budget.ready votes.budget.ample hvoted'
  rw [rebalance_of_pass hpass, rebalance_of_pass hpass']
  rfl

end RoundRobin

end AlgorithmPortfolio
