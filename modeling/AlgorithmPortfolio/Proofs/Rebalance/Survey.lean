import AlgorithmPortfolio.Rebalance.Pass
import Mathlib.Data.List.Forall2

/-!
# Surveys and elections, case by case

A reallocation pass first surveys the slots and then elects votes, and both stop at the first
thing that is missing. Here each place where they can stop is an equation.

- `Slot.coverage`: the targets that an engine lists, or those it listed last. Asking stores them
  (`Slot.openTargets_eq`).
- `Slot.isUnready`: whether a slot has no measurement or no targets.
- `survey_of_ready`, `survey_of_unready`: a survey is complete, or stops at the first slot that
  is not ready.
- `Slot.Refreshed`, `refreshed_survey`: a survey stores listed targets and changes nothing else.
- `voters_of_modelled`, `voters_of_unmodelled`: the same for the models of the slots that vote.
- `isUnmodelled_congr`, `elect_of_unelected`: only which slots have a model matters to a failed
  election, and neither what the models say nor the sources of chance.
- `elect_sole`, `elect_unmodelled`, `elect_untargeted`, `elect_voted`: the result of an election
  in each case. `of_unelected` and `spread_of_elected` lead back from failed elections and from
  votes.
-/

namespace AlgorithmPortfolio

variable {α σ : Type}

namespace Slot

/-! ## Coverage -/

/-- The targets that the slot's engine lists, or else those that were listed last. -/
def coverage (engines : Engines α) (slot : Slot α) : Option TargetSet :=
  (slot.engine.bind fun engine => (engines engine).targets).or slot.listed

/-- The slot after its engine was asked for targets. -/
def asked (engines : Engines α) (slot : Slot α) : Slot α :=
  { slot with listed := slot.coverage engines }

/-- Asking for targets gives the coverage, which is stored. -/
theorem openTargets_eq (engines : Engines α) (slot : Slot α) :
    slot.openTargets engines = (slot.coverage engines, slot.asked engines) := by
  unfold openTargets asked coverage
  cases slot.engine.bind fun engine => (engines engine).targets with
  | none => rfl
  | some targets => rfl

/-- Whether a pass cannot judge the slot: its progress or its coverage is not known. -/
def isUnready (engines : Engines α) (slot : Slot α) : Bool :=
  slot.progress.isNone || (slot.coverage engines).isNone

/-- What a slot that is not ready lacks; progress is looked for first. -/
def fault (slot : Slot α) : Rebalance.SkipReason :=
  match slot.progress with
  | none => .missingProgress slot.id
  | some _ => .missingTargets slot.id

/-- A slot whose stored targets may have been renewed by its engine. -/
def Refreshed (engines : Engines α) (before after : Slot α) : Prop :=
  after = before ∨ after = before.asked engines

end Slot

/-! ## Surveys -/

namespace Rebalance

open Arith

/-- The progress and the limit of each slot. -/
def observations [Arith α] (slots : List (Slot α)) : List (α × Nat) :=
  slots.map fun slot => (slot.progress.getD zero, slot.limit)

/-- The targets that any slot covers. -/
def allTargets (engines : Engines α) (slots : List (Slot α)) : TargetSet :=
  slots.foldr (fun slot rest => ((slot.coverage engines).getD TargetSet.empty).union rest)
    TargetSet.empty

theorem mem_allTargets {engines : Engines α} {slots : List (Slot α)} {target : Nat} :
    target ∈ allTargets engines slots ↔
      ∃ slot ∈ slots, ∃ targets, slot.coverage engines = some targets ∧ target ∈ targets := by
  -- the first slot adds what it covers to the union of the rest
  induction slots with
  | nil =>
    constructor
    · intro h
      exact (List.not_mem_nil h).elim
    · rintro ⟨slot, hslot, -⟩
      exact (List.not_mem_nil hslot).elim
  | cons slot rest ih =>
    show target ∈ TargetSet.union _ (allTargets engines rest) ↔ _
    rw [TargetSet.mem_union, ih]
    constructor
    · rintro (h | ⟨other, hother, h⟩)
      · -- a slot that cannot be asked adds nothing
        cases hcoverage : slot.coverage engines with
        | none =>
          rw [hcoverage] at h
          exact nomatch h
        | some targets =>
          rw [hcoverage] at h
          exact ⟨slot, List.mem_cons_self, targets, hcoverage, h⟩
      · exact ⟨other, List.mem_cons_of_mem _ hother, h⟩
    · rintro ⟨other, hother, targets, hcoverage, h⟩
      rcases List.mem_cons.mp hother with rfl | hrest
      · left
        rw [hcoverage]
        exact h
      · exact .inr ⟨other, hrest, targets, hcoverage, h⟩

theorem isEmpty_iff_forall_notMem (set : TargetSet) :
    set.isEmpty = true ↔ ∀ target, target ∉ set := by
  show set.toList.isEmpty = true ↔ ∀ target, target ∉ set.toList
  rw [List.isEmpty_iff, List.eq_nil_iff_forall_not_mem]

/-- The complete survey of slots. -/
def surveyOf [Arith α] (engines : Engines α) (slots : List (Slot α)) : Survey α :=
  ⟨observations slots, allTargets engines slots⟩

/-- Slots that are all ready are surveyed completely. -/
theorem survey_of_ready [Arith α] {engines : Engines α} {slots : List (Slot α)}
    (h : slots.find? (Slot.isUnready engines) = none) :
    survey engines slots = (.ok (surveyOf engines slots), slots.map (Slot.asked engines)) := by
  -- no slot stops the survey, so it goes on to the end
  induction slots with
  | nil => rfl
  | cons slot rest ih =>
    rw [List.find?_eq_none] at h
    have hslot := h slot List.mem_cons_self
    have hrest :=
      ih (List.find?_eq_none.mpr fun other hother => h other (List.mem_cons_of_mem _ hother))
    cases hprogress : slot.progress with
    | none => simp [Slot.isUnready, hprogress] at hslot
    | some progress =>
      cases hcoverage : slot.coverage engines with
      | none => simp [Slot.isUnready, hcoverage] at hslot
      | some targets =>
        simp only [survey, hprogress, Slot.openTargets_eq, hcoverage, hrest]
        simp [Except.map, surveyOf, observations, allTargets, hprogress, hcoverage]

/-- A survey stops at the first slot that is not ready, with what it lacks. -/
theorem survey_of_unready {engines : Engines α} {slots : List (Slot α)} {slot : Slot α}
    (h : slots.find? (Slot.isUnready engines) = some slot) :
    (survey engines slots).1 = .error slot.fault := by
  induction slots with
  | nil => simp at h
  -- the first slot that is not ready ends the survey, and the fault is its own
  | cons first rest ih =>
    rw [List.find?_cons] at h
    cases hprogress : first.progress with
    | none =>
      simp only [Slot.isUnready, hprogress, Option.isNone_none, Bool.true_or,
        Option.some.injEq] at h
      subst h
      simp [survey, hprogress, Slot.fault]
    | some progress =>
      cases hcoverage : first.coverage engines with
      | none =>
        simp only [Slot.isUnready, hcoverage, Option.isNone_none, Bool.or_true,
          Option.some.injEq] at h
        subst h
        simp [survey, hprogress, Slot.openTargets_eq, hcoverage, Slot.fault]
      | some targets =>
        simp only [Slot.isUnready, hprogress, hcoverage, Option.isNone_some, Bool.or_self] at h
        simp only [survey, hprogress, Slot.openTargets_eq, hcoverage, ih h]
        rfl

/-- A survey stores listed targets and changes nothing else. -/
theorem refreshed_survey (engines : Engines α) (slots : List (Slot α)) :
    List.Forall₂ (Slot.Refreshed engines) slots (survey engines slots).2 := by
  induction slots with
  | nil => exact .nil
  | cons slot rest ih =>
    -- what the survey has not come to is as it was
    have same : List.Forall₂ (Slot.Refreshed engines) rest rest :=
      List.forall₂_same.mpr fun _ _ => .inl rfl
    cases hprogress : slot.progress with
    | none =>
      simp only [survey, hprogress]
      exact .cons (.inl rfl) same
    | some progress =>
      cases hcoverage : slot.coverage engines with
      | none =>
        simp only [survey, hprogress, Slot.openTargets_eq, hcoverage]
        exact .cons (.inr rfl) same
      | some targets =>
        simp only [survey, hprogress, Slot.openTargets_eq, hcoverage]
        exact .cons (.inr rfl) ih

/-! ## Voters -/

section Voters

/-- Whether there is no model for the slot at a position. -/
def isUnmodelled (models : List (Option (PathModel α))) (position : Nat) : Bool :=
  models[position]?.join.isNone

/-- Models are looked up for being there alone. -/
theorem isUnmodelled_congr {models others : List (Option (PathModel α))}
    (present : others.map Option.isSome = models.map Option.isSome) :
    isUnmodelled others = isUnmodelled models := by
  funext position
  have lookup (models : List (Option (PathModel α))) :
      isUnmodelled models position = !((models.map Option.isSome)[position]?.getD false) := by
    rw [isUnmodelled, List.getElem?_map]
    rcases models[position]? with - | - | model
    · rfl
    · rfl
    · rfl
  rw [lookup others, lookup models, present]

variable [Arith α]

/-- Positions with models make as many voters. -/
theorem voters_of_modelled (slots : List (Slot α)) {models : List (Option (PathModel α))}
    (prior : List α) {positions : List Nat} (h : positions.find? (isUnmodelled models) = none) :
    ∃ found, voters slots models prior positions = .ok found ∧ found.length = positions.length := by
  -- each position that is asked for has a model, and the rest follows
  induction positions with
  | nil => exact ⟨[], rfl, rfl⟩
  | cons position rest ih =>
    rw [List.find?_eq_none] at h
    have hposition := h position List.mem_cons_self
    obtain ⟨found, hfound, hlength⟩ :=
      ih (List.find?_eq_none.mpr fun other hother => h other (List.mem_cons_of_mem _ hother))
    cases hmodel : models[position]?.join with
    | none => simp [isUnmodelled, hmodel] at hposition
    | some model =>
      refine ⟨⟨prior.getD position zero, model⟩ :: found, ?_, by simp [hlength]⟩
      simp only [voters, hmodel, hfound]
      rfl

/-- The first position without a model is what voting fails by. -/
theorem voters_of_unmodelled (slots : List (Slot α)) {models : List (Option (PathModel α))}
    (prior : List α) {positions : List Nat} {position : Nat}
    (h : positions.find? (isUnmodelled models) = some position) :
    voters slots models prior positions =
      .error (.missingModel ((slots[position]?.map Slot.id).getD "")) := by
  induction positions with
  | nil => simp at h
  | cons first rest ih =>
    -- the first position without a model ends the search
    rw [List.find?_cons] at h
    cases hmodel : models[first]?.join with
    | none =>
      simp only [isUnmodelled, hmodel, Option.isNone_none, Option.some.injEq] at h
      subst h
      simp only [voters, hmodel]
    | some model =>
      simp only [isUnmodelled, hmodel, Option.isNone_some] at h
      simp only [voters, hmodel, ih h]
      rfl

end Voters

/-! ## Elections -/

section Elections

variable [Arith α] [PathSampler σ] (knobs : Knobs) {models : List (Option (PathModel α))}
  (slots : List (Slot α)) (seen : Survey α) (draws : Draws σ)

/-- The positions of the slots that progressed, as a pass sees them. -/
def Survey.mask (seen : Survey α) : List Nat := eligible (progressPrior seen.observations)

/-- A sole slot that progressed takes everything. -/
theorem elect_sole {position : Nat} (sole : seen.mask = [position]) :
    elect knobs models slots seen draws = (.ok (spread slots.length [position] [one]), draws) := by
  rw [Survey.mask] at sole
  simp only [elect, sole]

/-- Several slots that progressed, or none, need models. -/
theorem elect_contested (contested : seen.mask.length ≠ 1) :
    elect knobs models slots seen draws =
      match voters slots models (progressPrior seen.observations) seen.mask with
      | .error reason => (.error reason, draws)
      | .ok found =>
        if seen.targets.isEmpty then (.error .noTargets, draws)
        else
          (.ok (spread slots.length seen.mask (vote knobs found seen.targets.toList draws).1),
            (vote knobs found seen.targets.toList draws).2) := by
  unfold elect
  dsimp only
  rw [← Survey.mask]
  generalize seen.mask = mask at contested ⊢
  match mask, contested with
  | [], _ => rfl
  | [_], contested => exact absurd rfl contested
  | _ :: _ :: _, _ => rfl

theorem elect_unmodelled (contested : seen.mask.length ≠ 1) {position : Nat}
    (first : seen.mask.find? (isUnmodelled models) = some position) :
    elect knobs models slots seen draws =
      (.error (.missingModel ((slots[position]?.map Slot.id).getD "")), draws) := by
  rw [elect_contested knobs slots seen draws contested, voters_of_unmodelled slots _ first]

theorem elect_untargeted (contested : seen.mask.length ≠ 1)
    (modelled : seen.mask.find? (isUnmodelled models) = none)
    (closed : seen.targets.isEmpty = true) :
    elect knobs models slots seen draws = (.error .noTargets, draws) := by
  obtain ⟨found, hfound, -⟩ := voters_of_modelled slots (progressPrior seen.observations) modelled
  rw [elect_contested knobs slots seen draws contested, hfound]
  exact if_pos closed

theorem elect_voted (contested : seen.mask.length ≠ 1)
    (modelled : seen.mask.find? (isUnmodelled models) = none)
    (targeted : seen.targets.isEmpty = false) :
    ∃ found : List (Voter α), found.length = seen.mask.length ∧
      elect knobs models slots seen draws =
        (.ok (spread slots.length seen.mask (vote knobs found seen.targets.toList draws).1),
          (vote knobs found seen.targets.toList draws).2) := by
  obtain ⟨found, hfound, hlength⟩ :=
    voters_of_modelled slots (progressPrior seen.observations) modelled
  refine ⟨found, hlength, ?_⟩
  rw [elect_contested knobs slots seen draws contested, hfound]
  exact if_neg (by simp [targeted])

/-- An election has a sole winner, lacks a model, lacks a target, or is voted on. -/
theorem elect_cases (models : List (Option (PathModel α))) (seen : Survey α) :
    (∃ position, seen.mask = [position]) ∨
      (seen.mask.length ≠ 1 ∧ ∃ position, seen.mask.find? (isUnmodelled models) = some position) ∨
      (seen.mask.length ≠ 1 ∧ seen.mask.find? (isUnmodelled models) = none ∧
        seen.targets.isEmpty = true) ∨
      (seen.mask.length ≠ 1 ∧ seen.mask.find? (isUnmodelled models) = none ∧
        seen.targets.isEmpty = false) := by
  by_cases sole : seen.mask.length = 1
  · exact .inl (List.length_eq_one_iff.mp sole)
  · right
    cases modelled : seen.mask.find? (isUnmodelled models) with
    | some position => exact .inl ⟨sole, position, rfl⟩
    | none =>
      cases closed : seen.targets.isEmpty with
      | true => exact .inr (.inl ⟨sole, rfl, rfl⟩)
      | false => exact .inr (.inr ⟨sole, rfl, rfl⟩)

variable {knobs slots seen draws}

/-- An election that fails leaves the sources of chance alone: several slots progressed, or
none, and the first of them without a model or the lack of targets is to blame. -/
theorem of_unelected {reason : SkipReason} {after : Draws σ}
    (h : elect knobs models slots seen draws = (.error reason, after)) :
    after = draws ∧ seen.mask.length ≠ 1 ∧
      ((∃ position, seen.mask.find? (isUnmodelled models) = some position ∧
          reason = .missingModel ((slots[position]?.map Slot.id).getD "")) ∨
        (seen.mask.find? (isUnmodelled models) = none ∧ seen.targets.isEmpty = true ∧
          reason = .noTargets)) := by
  rcases elect_cases models seen with ⟨position, sole⟩ | ⟨contested, position, first⟩ |
    ⟨contested, modelled, closed⟩ | ⟨contested, modelled, targeted⟩
  · rw [elect_sole knobs slots seen draws sole] at h
    cases h
  · rw [elect_unmodelled knobs slots seen draws contested first] at h
    cases h
    exact ⟨rfl, contested, .inl ⟨position, first, rfl⟩⟩
  · rw [elect_untargeted knobs slots seen draws contested modelled closed] at h
    cases h
    exact ⟨rfl, contested, .inr ⟨modelled, closed, rfl⟩⟩
  · obtain ⟨found, -, hvoted⟩ := elect_voted knobs slots seen draws contested modelled targeted
    rw [hvoted] at h
    cases h

/-- An election that fails, fails for the same reason with other sources and models. -/
theorem elect_of_unelected {τ : Type} [PathSampler τ] {others : List (Option (PathModel α))}
    {after : Draws σ} {reason : SkipReason}
    (unelected : elect knobs models slots seen draws = (.error reason, after))
    (present : others.map Option.isSome = models.map Option.isSome) (sources : Draws τ) :
    elect knobs others slots seen sources = (.error reason, sources) := by
  obtain ⟨-, contested, ⟨position, first, rfl⟩ | ⟨modelled, closed, rfl⟩⟩ := of_unelected unelected
  · rw [← isUnmodelled_congr present] at first
    exact elect_unmodelled knobs slots seen sources contested first
  · rw [← isUnmodelled_congr present] at modelled
    exact elect_untargeted knobs slots seen sources contested modelled closed

/-- Votes are spread shares: all for a sole slot that progressed, or the average votes of those
that did. -/
theorem spread_of_elected {after : Draws σ} {votes : List α}
    (h : elect knobs models slots seen draws = (.ok votes, after)) :
    ∃ shares, votes = spread slots.length seen.mask shares ∧
      ((∃ position, seen.mask = [position] ∧ shares = [one]) ∨
        ∃ found : List (Voter α), found.length = seen.mask.length ∧ seen.mask.length ≠ 1 ∧
          shares = (vote knobs found seen.targets.toList draws).1) := by
  rcases elect_cases models seen with ⟨position, sole⟩ | ⟨contested, position, first⟩ |
    ⟨contested, modelled, closed⟩ | ⟨contested, modelled, targeted⟩
  · rw [elect_sole knobs slots seen draws sole] at h
    cases h
    exact ⟨[one], by rw [sole], .inl ⟨position, sole, rfl⟩⟩
  · rw [elect_unmodelled knobs slots seen draws contested first] at h
    cases h
  · rw [elect_untargeted knobs slots seen draws contested modelled closed] at h
    cases h
  · obtain ⟨found, hlength, hvoted⟩ :=
      elect_voted knobs slots seen draws contested modelled targeted
    rw [hvoted] at h
    cases h
    exact ⟨_, rfl, .inr ⟨found, hlength, contested, rfl⟩⟩

/-- Votes are one for each slot. -/
theorem length_of_elected {after : Draws σ} {votes : List α}
    (h : elect knobs models slots seen draws = (.ok votes, after)) :
    votes.length = slots.length := by
  obtain ⟨shares, rfl, -⟩ := spread_of_elected h
  exact length_spread ..

end Elections

end Rebalance

end AlgorithmPortfolio
