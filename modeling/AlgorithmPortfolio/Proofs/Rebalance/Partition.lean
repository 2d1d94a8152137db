import AlgorithmPortfolio.Proofs.Rebalance.Sampling
import AlgorithmPortfolio.Proofs.Schedule.Turns
import Mathlib.Data.List.Sort

/-!
# Which slot covers a target

A pass puts the targets of all slots into one ascending list before it draws from it. Whose
targets they are, and how many slots cover the same one, is lost by then.

- `TargetSet.ext_mem`: sets with the same targets are the same list.
- `Slot.withoutCoverage`, `RoundRobin.withoutCoverage`: what is left when it is forgotten who
  covers what.
- `RoundRobin.Covers`, `RoundRobin.Covered`: whether some slot covers a target, and whether
  every slot has targets listed.
- `pass_congr`, `rebalance_congr`: schedules that cover the same targets, and else differ in who
  covers them alone, come to the same pass.
- `length_calls_of_run`: in every run of a started schedule a vote asks for as many paths as the
  settings say.
- `vote_samples_union`: what a vote asks the path sampler for, and what it makes of the answers.
-/

namespace AlgorithmPortfolio

/-- Sets with the same targets are equal. -/
theorem TargetSet.ext_mem {a b : TargetSet} (h : ∀ target, target ∈ a ↔ target ∈ b) : a = b :=
  TargetSet.ext (a.ascending.eq_of_mem_iff b.ascending fun {target} => h target)

variable {α σ : Type}

/-! ## Slots without coverage -/

/-- The slot without its engine and its targets. -/
def Slot.withoutCoverage (slot : Slot α) : Slot α := { slot with engine := none, listed := none }

section Frame

variable {β : Type} {f : Slot α → β} {slots others : List (Slot α)}

/-- A function that does not see coverage is the same on slots that differ in nothing else. -/
theorem map_of_withoutCoverage (frame : ∀ slot : Slot α, f slot.withoutCoverage = f slot)
    (same : others.map Slot.withoutCoverage = slots.map Slot.withoutCoverage) :
    others.map f = slots.map f := by
  have hf (slots : List (Slot α)) : slots.map f = (slots.map Slot.withoutCoverage).map f := by
    rw [List.map_map]
    exact List.map_congr_left fun slot _ => (frame slot).symm
  rw [hf others, same, ← hf]

theorem length_of_withoutCoverage
    (same : others.map Slot.withoutCoverage = slots.map Slot.withoutCoverage) :
    others.length = slots.length := by
  simpa using congrArg List.length same

end Frame

namespace Rebalance

variable {engines engines' : Engines α} {slots others : List (Slot α)}

/-- Where all slots have targets, the first one that is not ready is the first without a
measurement. -/
theorem map_find?_isUnready (covered : ∀ slot ∈ slots, (slot.coverage engines).isSome) :
    (slots.find? (Slot.isUnready engines)).map Slot.withoutCoverage =
      (slots.map Slot.withoutCoverage).find? fun slot => slot.progress.isNone := by
  induction slots with
  | nil => rfl
  | cons slot rest ih =>
    have hrest := ih fun other h => covered other (List.mem_cons_of_mem _ h)
    obtain ⟨targets, hcoverage⟩ := Option.isSome_iff_exists.mp (covered slot List.mem_cons_self)
    -- with the coverage known, only a missing measurement can stop the survey
    have hslot : Slot.isUnready engines slot = slot.withoutCoverage.progress.isNone := by
      rw [Slot.isUnready, hcoverage]
      exact Bool.or_false _
    rw [List.map_cons, List.find?_cons, List.find?_cons, hslot]
    cases slot.withoutCoverage.progress.isNone with
    | true => rfl
    | false => exact hrest

theorem map_withoutCoverage_asked :
    (slots.map (Slot.asked engines)).map Slot.withoutCoverage = slots.map Slot.withoutCoverage := by
  rw [List.map_map]
  rfl

theorem budgetOf_congr (same : others.map Slot.withoutCoverage = slots.map Slot.withoutCoverage) :
    budgetOf others = budgetOf slots :=
  congrArg distributable (map_of_withoutCoverage (fun _ => rfl) same)

variable [Arith α]

theorem observations_congr
    (same : others.map Slot.withoutCoverage = slots.map Slot.withoutCoverage) :
    observations others = observations slots :=
  map_of_withoutCoverage (fun _ => rfl) same

theorem map_withoutCoverage_reallocate (votes : List α) (budget : Int) (slots : List (Slot α)) :
    (reallocate votes budget slots).map Slot.withoutCoverage =
      reallocate votes budget (slots.map Slot.withoutCoverage) := by
  rw [reallocate, reallocate, List.map_zipWith, List.zipWith_map_left]
  rfl

/-- Slots are looked at for their identifiers when voters are looked for. -/
theorem voters_congr (same : others.map Slot.id = slots.map Slot.id)
    (models : List (Option (PathModel α))) (prior : List α) (positions : List Nat) :
    voters others models prior positions = voters slots models prior positions := by
  induction positions with
  | nil => rfl
  | cons position rest ih => simp only [voters, ih, ← List.getElem?_map, same]

variable [PathSampler σ]

theorem elect_congr (same : others.map Slot.id = slots.map Slot.id) (knobs : Knobs)
    (models : List (Option (PathModel α))) (seen : Survey α) (draws : Draws σ) :
    elect knobs models others seen draws = elect knobs models slots seen draws := by
  have hlength : others.length = slots.length := by simpa using congrArg List.length same
  unfold elect
  simp only [voters_congr same, hlength]

section Pass

variable (knobs : Knobs) {round : Nat} (models : List (Option (PathModel α))) (draws : Draws σ)
  (same : others.map Slot.withoutCoverage = slots.map Slot.withoutCoverage)
  (union : allTargets engines' others = allTargets engines slots)

include same union

/-- Slots that are ready elect the same votes whoever of them covers which targets. -/
theorem elect_survey_congr :
    elect knobs models (others.map (Slot.asked engines')) (surveyOf engines' others) draws =
      elect knobs models (slots.map (Slot.asked engines)) (surveyOf engines slots) draws := by
  have hseen : surveyOf engines' others = surveyOf engines slots := by
    rw [surveyOf, surveyOf, observations_congr same, union]
  have hids : (others.map (Slot.asked engines')).map Slot.id =
      (slots.map (Slot.asked engines)).map Slot.id := by
    rw [List.map_map, List.map_map]
    exact map_of_withoutCoverage (fun _ => rfl) same
  rw [hseen]
  exact elect_congr hids knobs models _ draws

/-- Slots that are ready come to the same pass whoever of them covers which targets. -/
theorem pass_congr_of_ready (later : round ≠ 0)
    (ready : slots.find? (Slot.isUnready engines) = none)
    (ready' : others.find? (Slot.isUnready engines') = none) :
    let after := pass engines knobs round models slots draws
    let after' := pass engines' knobs round models others draws
    after'.1 = after.1 ∧ after'.2.1.map Slot.withoutCoverage = after.2.1.map Slot.withoutCoverage ∧
      after'.2.2 = after.2.2 := by
  intro after after'
  have hbudget := budgetOf_congr same
  have hlength := length_of_withoutCoverage same
  -- only what the engines list can differ, and it is left out of the comparison
  have hasked : (others.map (Slot.asked engines')).map Slot.withoutCoverage =
      (slots.map (Slot.asked engines)).map Slot.withoutCoverage := by
    rw [map_withoutCoverage_asked, map_withoutCoverage_asked, same]
  by_cases short : budgetOf slots ≤ slots.length
  · have hpass : after = _ := pass_insufficient later ready short
    have hpass' : after' = _ := pass_insufficient later ready' (by rwa [hbudget, hlength])
    rw [hpass, hpass', hbudget, hlength]
    exact ⟨rfl, hasked, rfl⟩
  have ample := Int.not_le.mp short
  have ample' : others.length < budgetOf others := by rwa [hbudget, hlength]
  -- the vote sees the same union of targets, so it ends in the same way
  have helect := elect_survey_congr knobs models draws same union
  rcases hresult : elect knobs models (slots.map (Slot.asked engines)) (surveyOf engines slots)
    draws with ⟨reason | votes, last⟩
  · have hpass : after = _ := pass_unelected later ready ample hresult
    have hpass' : after' = _ := pass_unelected later ready' ample' (helect.trans hresult)
    rw [hpass, hpass']
    exact ⟨rfl, hasked, rfl⟩
  · have hpass : after = _ := pass_elected later ready ample hresult
    have hpass' : after' = _ := pass_elected later ready' ample' (helect.trans hresult)
    have hslots : (reallocate votes (budgetOf slots) (others.map (Slot.asked engines'))).map
        Slot.withoutCoverage =
          (reallocate votes (budgetOf slots) (slots.map (Slot.asked engines))).map
            Slot.withoutCoverage := by
      rw [map_withoutCoverage_reallocate, hasked, map_withoutCoverage_reallocate]
    rw [hpass, hpass', hbudget]
    exact ⟨congrArg (Outcome.applied _) (map_of_withoutCoverage (fun _ => rfl) hslots), hslots, rfl⟩

/-- Slots that all have targets come to the same pass whoever of them covers which targets, as
long as the targets of all together are the same. -/
theorem pass_congr (round : Nat) (covered : ∀ slot ∈ slots, (slot.coverage engines).isSome)
    (covered' : ∀ slot ∈ others, (slot.coverage engines').isSome) :
    let after := pass engines knobs round models slots draws
    let after' := pass engines' knobs round models others draws
    after'.1 = after.1 ∧ after'.2.1.map Slot.withoutCoverage = after.2.1.map Slot.withoutCoverage ∧
      after'.2.2 = after.2.2 := by
  intro after after'
  -- the cases are those of the pass, in its order
  by_cases later : round = 0
  · have hpass : after = _ := pass_firstRound later
    have hpass' : after' = _ := pass_firstRound later
    rw [hpass, hpass']
    exact ⟨rfl, same, rfl⟩
  -- the surveys find faults at the same slot
  have hfind := map_find?_isUnready covered
  rw [← same, ← map_find?_isUnready covered'] at hfind
  cases hunready : slots.find? (Slot.isUnready engines) with
  | none =>
    rw [hunready, Option.map_none, eq_comm, Option.map_eq_none_iff] at hfind
    exact pass_congr_of_ready knobs models draws same union later hunready hfind
  | some slot =>
    rw [hunready, Option.map_some, eq_comm, Option.map_eq_some_iff] at hfind
    obtain ⟨slot', hunready', hslot⟩ := hfind
    have hpass : after = _ := pass_unready later hunready
    have hpass' : after' = _ := pass_unready later hunready'
    -- the fault is one of progress, for the coverage is known on both sides
    have hfault : slot'.fault = slot.fault := by
      show slot'.withoutCoverage.fault = slot.withoutCoverage.fault
      rw [hslot]
    have hrefreshed := map_refreshed (fun _ _ => rfl) (f := Slot.withoutCoverage)
      (refreshed_survey engines slots)
    have hrefreshed' := map_refreshed (fun _ _ => rfl) (f := Slot.withoutCoverage)
      (refreshed_survey engines' others)
    rw [hpass, hpass']
    exact ⟨congrArg Outcome.skipped hfault, (hrefreshed'.trans same).trans hrefreshed.symm, rfl⟩

end Pass

end Rebalance

/-! ## Schedules without coverage -/

namespace RoundRobin

open Rebalance (allTargets)
open PathSampler (Call)

/-- The schedule without the engines and the targets of its slots. -/
def withoutCoverage (schedule : RoundRobin σ α) : RoundRobin σ α :=
  { schedule with portfolio := schedule.portfolio.mapSlots Slot.withoutCoverage }

/-- Whether some slot covers a target. -/
def Covers (engines : Engines α) (schedule : RoundRobin σ α) (target : Nat) : Prop :=
  ∃ slot ∈ schedule.portfolio.slots, ∃ targets, slot.coverage engines = some targets ∧
    target ∈ targets

theorem covers_iff {engines : Engines α} {schedule : RoundRobin σ α} {target : Nat} :
    schedule.Covers engines target ↔ target ∈ allTargets engines schedule.portfolio.slots :=
  Rebalance.mem_allTargets.symm

/-- Whether every slot has targets listed. -/
def Covered (engines : Engines α) (schedule : RoundRobin σ α) : Prop :=
  ∀ slot ∈ schedule.portfolio.slots, (slot.coverage engines).isSome

/-- A recorder in place of the sampler is no difference in coverage. -/
theorem withoutCoverage_recorded (calls : List Call) (schedule : RoundRobin σ α) :
    (schedule.recorded calls).withoutCoverage = schedule.withoutCoverage.recorded calls :=
  rfl

/-- What a pass leaves is the same whether the coverage is forgotten before the pass or after
it. -/
theorem withoutCoverage_afterPass (outcome : Rebalance.Outcome) (slots : List (Slot α))
    (draws : Rebalance.Draws σ) (schedule : RoundRobin σ α) :
    (schedule.afterPass outcome slots draws).withoutCoverage =
      schedule.withoutCoverage.afterPass outcome (slots.map Slot.withoutCoverage) draws := by
  have hlimits : ({ schedule.portfolio with slots := slots.map Slot.withoutCoverage } :
      Portfolio α).limitsById = ({ schedule.portfolio with slots } : Portfolio α).limitsById := by
    rw [Portfolio.limitsById, Portfolio.limitsById, List.map_map]
    rfl
  unfold afterPass withoutCoverage Portfolio.mapSlots
  dsimp only
  rw [hlimits]

variable [Arith α] [PathSampler σ]

/-- Schedules that differ in who covers which targets come to the same pass, as long as every
slot has targets and those of all together are the same. -/
theorem rebalance_congr {engines engines' : Engines α} {schedule other : RoundRobin σ α}
    (same : other.withoutCoverage = schedule.withoutCoverage) (covered : schedule.Covered engines)
    (covered' : other.Covered engines')
    (union : ∀ target, other.Covers engines' target ↔ schedule.Covers engines target) :
    (other.rebalance engines').1 = (schedule.rebalance engines).1 ∧
      (other.rebalance engines').2.withoutCoverage =
        (schedule.rebalance engines).2.withoutCoverage := by
  -- beside what the engines list, the two states are the same
  have hslots : other.portfolio.slots.map Slot.withoutCoverage =
      schedule.portfolio.slots.map Slot.withoutCoverage :=
    (congrArg (fun schedule => schedule.portfolio.slots) same :)
  have hunion : allTargets engines' other.portfolio.slots =
      allTargets engines schedule.portfolio.slots :=
    TargetSet.ext_mem fun target => by rw [← covers_iff, ← covers_iff, union]
  have hknobs : other.knobs = schedule.knobs := (congrArg RoundRobin.knobs same :)
  have hround : other.round = schedule.round := (congrArg RoundRobin.round same :)
  have hmodels : other.models = schedule.models := (congrArg RoundRobin.models same :)
  have hdraws : other.draws = schedule.draws := (congrArg RoundRobin.draws same :)
  have key := Rebalance.pass_congr schedule.knobs schedule.models schedule.draws hslots hunion
    schedule.round covered covered'
  rcases hpass : schedule.currentPass engines with ⟨outcome, slots, draws⟩
  rcases hpass' : other.currentPass engines' with ⟨outcome', slots', draws'⟩
  rw [rebalance_of_pass hpass, rebalance_of_pass hpass']
  -- so the passes are of the same settings and the same draws
  rw [currentPass] at hpass
  rw [currentPass, hknobs, hround, hmodels, hdraws] at hpass'
  rw [hpass, hpass'] at key
  obtain ⟨houtcome : outcome' = outcome, hafter : slots'.map Slot.withoutCoverage = slots.map _,
    hsources : draws' = draws⟩ := key
  refine ⟨houtcome, ?_⟩
  rw [withoutCoverage_afterPass, withoutCoverage_afterPass, same, houtcome, hafter, hsources]

/-- Targets that are asked for are covered. -/
theorem covers_of_mem_calls {engines : Engines α} {schedule : RoundRobin σ α}
    (votes : schedule.Votes engines) {call : Call} (h : call ∈ schedule.calls engines) :
    schedule.Covers engines call.target := by
  have hne : (allTargets engines schedule.portfolio.slots).toList ≠ [] := by
    have := hasTarget_iff.mp votes.target
    intro hnil
    rw [TargetSet.isEmpty, hnil] at this
    cases this
  have hdrawn := List.mem_map_of_mem (f := Call.target) h
  rw [calls_of_votes votes, Rebalance.voteCalls, Rebalance.Draws.map_target_calls] at hdrawn
  exact covers_iff.mpr (Rebalance.mem_of_mem_drawn hne hdrawn)

/-- With valid settings a vote asks the path sampler as often as they say. -/
theorem length_calls_of_votes {engines : Engines α} {schedule : RoundRobin σ α}
    (votes : schedule.Votes engines) (valid : 0 < schedule.knobs.sampleSize) :
    (schedule.calls engines).length = schedule.knobs.sampleSize := by
  rw [calls_of_votes votes, Rebalance.voteCalls, Rebalance.Draws.length_calls]
  omega

/-- Started schedules have valid settings, so this is what every vote does in any of their
runs. -/
theorem length_calls_of_run {portfolio : Portfolio α} {models : Dict (PathModel α)} {sampler : σ}
    {config : Config} {unseeded : Generator} {schedule : RoundRobin σ α}
    (started : start portfolio models sampler config unseeded = .ok schedule)
    (events : List (Event α)) {engines : Engines α} (votes : (run events schedule).Votes engines) :
    ((run events schedule).calls engines).length = config.rebalance.sampleSize := by
  have hknobs : schedule.knobs = config.rebalance := by
    obtain ⟨generator, rfl⟩ := exists_of_start started
    rfl
  rw [length_calls_of_votes votes (sampleSize_pos_of_run started events), knobs_run, hknobs]

/-- **A vote samples the union of all targets.** With valid settings, which started schedules
always have (`length_calls_of_run`), it asks the path sampler as often as they say, each time
for a path of the greatest length that they allow, and for a target that some slot covers. A
recorder has these calls in the end, and the pass does not notice it. What is scored of an
answer is a prefix with at most that length: models that agree on these prefixes come to the
same pass, whatever they say of other paths. Schedules that differ in who covers which targets
alone, where all slots cover some set and the union of these sets is the same, make the same
calls in the same order and come to the same outcome and limits, whether there is a vote or
not. -/
theorem vote_samples_union (engines : Engines α) {schedule : RoundRobin σ α}
    (valid : 0 < schedule.knobs.sampleSize) :
    (schedule.Votes engines →
      (schedule.recorded []).rebalance engines =
          ((schedule.rebalance engines).1,
            (schedule.rebalance engines).2.recorded (schedule.calls engines)) ∧
        (schedule.calls engines).length = schedule.knobs.sampleSize ∧
        (∀ call ∈ schedule.calls engines, call.maxLength = schedule.knobs.maxPathLength ∧
          schedule.Covers engines call.target ∧
          call.scored.length ≤ schedule.knobs.maxPathLength ∧ call.scored <+: call.path) ∧
        ∀ models, List.Forall₂
            (Option.Rel (PathModel.AgreesOn ((schedule.calls engines).map Call.scored)))
            schedule.models models →
          (schedule.withSources models schedule.draws).rebalance engines =
            ((schedule.rebalance engines).1,
              (schedule.rebalance engines).2.withSources models
                (schedule.rebalance engines).2.draws)) ∧
      ∀ (engines' : Engines α) (other : RoundRobin σ α),
        other.withoutCoverage = schedule.withoutCoverage → schedule.Covered engines →
        other.Covered engines' →
        (∀ target, other.Covers engines' target ↔ schedule.Covers engines target) →
          other.calls engines' = schedule.calls engines ∧
            (other.rebalance engines').1 = (schedule.rebalance engines).1 ∧
            (other.rebalance engines').2.portfolio.limits =
              (schedule.rebalance engines).2.portfolio.limits ∧
            (other.rebalance engines').2.withoutCoverage =
              (schedule.rebalance engines).2.withoutCoverage := by
  constructor
  · intro votes
    refine ⟨rebalance_recorded engines schedule, ?_, fun call hcall => ?_,
      fun models agree => rebalance_of_agreesOn votes agree⟩
    · exact length_calls_of_votes votes valid
    · -- the target is one of the union, and the path is cut at the length that was asked for
      have hcovers := covers_of_mem_calls votes hcall
      rw [calls_of_votes votes] at hcall
      have hmaxLength := Rebalance.Draws.maxLength_of_mem_calls hcall
      refine ⟨hmaxLength, hcovers, ?_, List.take_prefix _ _⟩
      rw [Call.scored, hmaxLength, List.length_take]
      exact Nat.min_le_left _ _
  · intro engines' other same covered covered' union
    obtain ⟨houtcome, hafter⟩ := rebalance_congr same covered covered' union
    -- with recorders in both, what they have in the end is part of the state that is compared
    have hsame : (other.recorded []).withoutCoverage = (schedule.recorded []).withoutCoverage := by
      rw [withoutCoverage_recorded, same, withoutCoverage_recorded]
    obtain ⟨-, hrecorded⟩ := rebalance_congr hsame covered covered' union
    have hcalls : other.calls engines' = schedule.calls engines :=
      (congrArg (fun after => after.draws.sampler.calls) hrecorded :)
    have hslots := (congrArg (fun after => after.portfolio.slots) hafter :)
    exact ⟨hcalls, houtcome, map_of_withoutCoverage (fun _ => rfl) hslots, hafter⟩

/-- Two slots that vote over two targets, which both of them cover in one state, and one of them
alone in the other. -/
theorem vote_samples_union_two :
    let model : PathModel Float := .ofStatistic ["x"] fun _ => ⟨1, 3, [("x", 1)]⟩
    let knobs : Knobs := ⟨3, 2, none, 1, true⟩
    let draws : Rebalance.Draws PathFunction :=
      ⟨⟨fun target _ => [toString target, "x", "y"]⟩, Generator.ofSeed 5⟩
    let a : Slot Float := Slot.tried "a" 20 (some 0.5)
    let b : Slot Float := Slot.tried "b" 20 (some 0.25)
    let engines : Engines Float := fun _ => ⟨some (TargetSet.ofList [1, 2]), 0.0⟩
    let silent : Engines Float := fun _ => ⟨none, 0.0⟩
    let schedule := { afterFirstRound [a, b] [some model, some model] with knobs, draws }
    let other := {
      afterFirstRound [{ a with listed := some (TargetSet.ofList [1, 2]) },
        { b with listed := some TargetSet.empty }] [some model, some model] with knobs, draws }
    0 < schedule.knobs.sampleSize ∧ schedule.Votes engines ∧
      other.withoutCoverage = schedule.withoutCoverage ∧ schedule.Covered engines ∧
      other.Covered silent ∧
      (∀ target, other.Covers silent target ↔ schedule.Covers engines target) ∧
      (schedule.calls engines).length = 3 ∧ other.calls silent = schedule.calls engines ∧
      (other.rebalance silent).1 = (schedule.rebalance engines).1 := by
  intro model knobs draws a b engines silent schedule other
  have valid : 0 < schedule.knobs.sampleSize := Nat.succ_pos 2
  have votes : schedule.Votes engines := by decide +kernel
  have same : other.withoutCoverage = schedule.withoutCoverage := rfl
  have covered : schedule.Covered engines :=
    List.forall_mem_cons.mpr ⟨rfl, List.forall_mem_singleton.mpr rfl⟩
  have covered' : other.Covered silent :=
    List.forall_mem_cons.mpr ⟨rfl, List.forall_mem_singleton.mpr rfl⟩
  have union (target : Nat) : other.Covers silent target ↔ schedule.Covers engines target := by
    rw [covers_iff, covers_iff]
    rfl
  obtain ⟨hvotes, hpartition⟩ := vote_samples_union engines valid
  obtain ⟨-, hlength, -⟩ := hvotes votes
  obtain ⟨hcalls, houtcome, -⟩ := hpartition silent other same covered covered' union
  exact ⟨valid, votes, same, covered, covered', union, hlength, hcalls, houtcome⟩

end RoundRobin

end AlgorithmPortfolio
