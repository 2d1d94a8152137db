import AlgorithmPortfolio.Proofs.Rebalance.Pass
import AlgorithmPortfolio.Schedule.RoundRobin

/-!
# What a pass is decided by

Six things can keep a reallocation pass from changing limits. They are looked for in a fixed
order, two of them slot by slot and two of them only where no single slot takes everything.

- `Verdict engines schedule reason?`: a reason to skip the pass, or none, read off the state of
  a schedule. One constructor for each case, in the order in which they are looked for.
- `exists_verdict`: every state has a verdict.
- `rebalance_decides`: a pass is skipped for exactly the reason of the verdict and applied if
  there is none. Applied limits are those that the slots have afterwards, and the outcome is
  kept.
-/

namespace AlgorithmPortfolio

open Rebalance (SkipReason Outcome Draws isUnmodelled)

variable {α σ : Type} [Arith α]

/-- Why a pass was skipped, unless it was applied. -/
def Rebalance.Outcome.reason? : Outcome → Option SkipReason
  | .applied _ _ => none
  | .skipped reason => some reason

namespace RoundRobin

/-- The positions of the slots with a positive prior. -/
def mask (schedule : RoundRobin σ α) : List Nat :=
  eligible (progressPrior (Rebalance.observations schedule.portfolio.slots))

/-- The first slot without a measurement or without coverage, in the order of the portfolio. -/
def firstUnready (engines : Engines α) (schedule : RoundRobin σ α) : Option (Slot α) :=
  schedule.portfolio.slots.find? (Slot.isUnready engines)

/-- Whether every slot was measured and has coverage, and there are more seconds above the
floors than slots. -/
structure HasBudget (engines : Engines α) (schedule : RoundRobin σ α) : Prop where
  later : schedule.round ≠ 0
  ready : schedule.firstUnready engines = none
  ample : schedule.portfolio.size < distributable schedule.portfolio.limits

instance (engines : Engines α) (schedule : RoundRobin σ α) :
    Decidable (schedule.HasBudget engines) :=
  decidable_of_iff
    (schedule.round ≠ 0 ∧ (schedule.firstUnready engines).isNone = true ∧
      schedule.portfolio.size < distributable schedule.portfolio.limits)
    ⟨fun ⟨later, ready, ample⟩ => ⟨later, Option.isNone_iff_eq_none.mp ready, ample⟩,
      fun ⟨later, ready, ample⟩ => ⟨later, Option.isNone_iff_eq_none.mpr ready, ample⟩⟩

/-- Whether some slot covers a target. -/
def HasTarget (engines : Engines α) (schedule : RoundRobin σ α) : Prop :=
  ∃ slot ∈ schedule.portfolio.slots, ∃ targets, slot.coverage engines = some targets ∧
    ∃ target, target ∈ targets

/-- The reason to skip a pass in a state, or none. -/
inductive Verdict (engines : Engines α) (schedule : RoundRobin σ α) : Option SkipReason → Prop
  | firstRound (first : schedule.round = 0) : Verdict engines schedule (some .firstRound)
  | missingProgress {slot : Slot α} (later : schedule.round ≠ 0)
    (first : schedule.firstUnready engines = some slot) (unmeasured : slot.progress = none) :
    Verdict engines schedule (some (.missingProgress slot.id))
  | missingTargets {slot : Slot α} (later : schedule.round ≠ 0)
    (first : schedule.firstUnready engines = some slot) (measured : slot.progress ≠ none)
    (uncovered : slot.coverage engines = none) :
    Verdict engines schedule (some (.missingTargets slot.id))
  | insufficientBudget (later : schedule.round ≠ 0) (ready : schedule.firstUnready engines = none)
    (short : distributable schedule.portfolio.limits ≤ schedule.portfolio.size) :
    Verdict engines schedule
      (some (.insufficientBudget (distributable schedule.portfolio.limits) schedule.portfolio.size))
  | missingModel {position : Nat} {slot : Slot α} (budget : schedule.HasBudget engines)
    (contested : schedule.mask.length ≠ 1)
    (first : schedule.mask.find? (isUnmodelled schedule.models) = some position)
    (voting : schedule.portfolio.get? position = some slot) :
    Verdict engines schedule (some (.missingModel slot.id))
  | noTargets (budget : schedule.HasBudget engines) (contested : schedule.mask.length ≠ 1)
    (modelled : schedule.mask.find? (isUnmodelled schedule.models) = none)
    (closed : ¬ schedule.HasTarget engines) : Verdict engines schedule (some .noTargets)
  | sole (budget : schedule.HasBudget engines) (sole : schedule.mask.length = 1) :
    Verdict engines schedule none
  | voted (budget : schedule.HasBudget engines) (contested : schedule.mask.length ≠ 1)
    (modelled : schedule.mask.find? (isUnmodelled schedule.models) = none)
    (target : schedule.HasTarget engines) : Verdict engines schedule none

/-! ## Every state has a verdict -/

omit [Arith α] in
theorem uncovered_of_firstUnready {engines : Engines α} {schedule : RoundRobin σ α} {slot : Slot α}
    (first : schedule.firstUnready engines = some slot) (measured : slot.progress ≠ none) :
    slot.coverage engines = none := by
  have h := List.find?_some first
  rw [Slot.isUnready, Bool.or_eq_true, Option.isNone_iff_eq_none, Option.isNone_iff_eq_none] at h
  exact h.resolve_left measured

/-- Positions of the mask are positions of slots. -/
theorem exists_slot_of_mem_mask {schedule : RoundRobin σ α} {position : Nat}
    (h : position ∈ schedule.mask) : ∃ slot, schedule.portfolio.get? position = some slot := by
  have hlt := lt_length_of_mem_eligible h
  rw [length_progressPrior, Rebalance.observations, List.length_map] at hlt
  exact ⟨_, List.getElem?_eq_getElem hlt⟩

/-- Every state has a verdict. -/
theorem exists_verdict (engines : Engines α) (schedule : RoundRobin σ α) :
    ∃ reason?, Verdict engines schedule reason? := by
  -- each question is asked only when those before it gave no reason to skip
  by_cases later : schedule.round = 0
  · exact ⟨_, .firstRound later⟩
  cases ready : schedule.firstUnready engines with
  | some slot =>
    by_cases measured : slot.progress = none
    · exact ⟨_, .missingProgress later ready measured⟩
    · exact ⟨_, .missingTargets later ready measured (uncovered_of_firstUnready ready measured)⟩
  | none =>
    by_cases short : distributable schedule.portfolio.limits ≤ schedule.portfolio.size
    · exact ⟨_, .insufficientBudget later ready short⟩
    have budget : schedule.HasBudget engines := ⟨later, ready, Int.not_le.mp short⟩
    by_cases sole : schedule.mask.length = 1
    · exact ⟨_, .sole budget sole⟩
    cases modelled : schedule.mask.find? (isUnmodelled schedule.models) with
    | some position =>
      obtain ⟨slot, hslot⟩ := exists_slot_of_mem_mask (List.mem_of_find?_eq_some modelled)
      exact ⟨_, .missingModel budget sole modelled hslot⟩
    | none =>
      by_cases target : schedule.HasTarget engines
      · exact ⟨_, .voted budget sole modelled target⟩
      · exact ⟨_, .noTargets budget sole modelled target⟩

/-! ## A pass follows the verdict -/

omit [Arith α] in
/-- There is a target exactly if the union of all coverage is not empty. -/
theorem hasTarget_iff {engines : Engines α} {schedule : RoundRobin σ α} :
    schedule.HasTarget engines ↔
      (Rebalance.allTargets engines schedule.portfolio.slots).isEmpty = false := by
  rw [← Bool.not_eq_true, Rebalance.isEmpty_iff_forall_notMem]
  constructor
  · rintro ⟨slot, hslot, targets, hcoverage, target, htarget⟩ hnone
    exact hnone target (Rebalance.mem_allTargets.mpr ⟨slot, hslot, targets, hcoverage, htarget⟩)
  · intro hsome
    rw [not_forall] at hsome
    obtain ⟨target, htarget⟩ := hsome
    obtain ⟨slot, hslot, targets, hcoverage, h⟩ := Rebalance.mem_allTargets.mp (not_not.mp htarget)
    exact ⟨slot, hslot, targets, hcoverage, target, h⟩

instance (engines : Engines α) (schedule : RoundRobin σ α) :
    Decidable (schedule.HasTarget engines) :=
  decidable_of_iff _ hasTarget_iff.symm

variable [PathSampler σ]

/-- The pass that a schedule runs. -/
def currentPass (engines : Engines α) (schedule : RoundRobin σ α) :=
  Rebalance.pass engines schedule.knobs schedule.round schedule.models schedule.portfolio.slots
    schedule.draws

/-- The state that a pass leaves, by the outcome, the slots and the sources that it has in the
end. -/
def afterPass (outcome : Outcome) (slots : List (Slot α)) (draws : Draws σ)
    (schedule : RoundRobin σ α) : RoundRobin σ α :=
  let portfolio := { schedule.portfolio with slots }
  { schedule with
    portfolio
    draws
    applied := if outcome.isApplied then schedule.applied + 1 else schedule.applied
    lastOutcome := some outcome
    metrics := metricsAfter outcome portfolio.limitsById schedule.metrics }

theorem rebalance_of_pass {engines : Engines α} {schedule : RoundRobin σ α} {outcome : Outcome}
    {slots : List (Slot α)} {draws : Draws σ}
    (h : schedule.currentPass engines = (outcome, slots, draws)) :
    schedule.rebalance engines = (outcome, schedule.afterPass outcome slots draws) := by
  rw [currentPass] at h
  rw [rebalance, h]
  rfl

theorem fst_rebalance (engines : Engines α) (schedule : RoundRobin σ α) :
    (schedule.rebalance engines).1 = (schedule.currentPass engines).1 := rfl

theorem slots_rebalance (engines : Engines α) (schedule : RoundRobin σ α) :
    (schedule.rebalance engines).2.portfolio.slots = (schedule.currentPass engines).2.1 := rfl

theorem lastOutcome_rebalance (engines : Engines α) (schedule : RoundRobin σ α) :
    (schedule.rebalance engines).2.lastOutcome = some (schedule.rebalance engines).1 := rfl

/-- A pass of a state with a verdict is skipped for its reason, or applied. -/
theorem reason?_of_verdict {engines : Engines α} {schedule : RoundRobin σ α}
    {reason? : Option SkipReason} (h : Verdict engines schedule reason?) :
    (schedule.rebalance engines).1.reason? = reason? := by
  rw [fst_rebalance, currentPass]
  -- the verdict names the first reason, and the pass stops there
  cases h with
  | firstRound first =>
    rw [Rebalance.pass_firstRound first]
    rfl
  | missingProgress later first unmeasured =>
    rw [Rebalance.pass_unready later first, Slot.fault, unmeasured]
    rfl
  | missingTargets later first measured uncovered =>
    obtain ⟨progress, hprogress⟩ := Option.ne_none_iff_exists'.mp measured
    rw [Rebalance.pass_unready later first, Slot.fault, hprogress]
    rfl
  | insufficientBudget later ready short =>
    rw [Rebalance.pass_insufficient later ready short]
    rfl
  | @missingModel position slot budget contested first voting =>
    rw [Rebalance.pass_unelected budget.later budget.ready budget.ample
      (Rebalance.elect_unmodelled _ _ (Rebalance.surveyOf engines _) _ contested first)]
    -- the mask is of positions of slots, so the message has the name of one
    have hslot : schedule.portfolio.slots[position]? = some slot := voting
    rw [List.getElem?_map, hslot]
    rfl
  | noTargets budget contested modelled closed =>
    have closed' := (Bool.not_eq_false _).mp fun h => closed (hasTarget_iff.mpr h)
    rw [Rebalance.pass_unelected budget.later budget.ready budget.ample
      (Rebalance.elect_untargeted _ _ (Rebalance.surveyOf engines _) _ contested modelled closed')]
    rfl
  | sole budget sole =>
    obtain ⟨position, hposition⟩ := List.length_eq_one_iff.mp sole
    rw [Rebalance.pass_elected budget.later budget.ready budget.ample
      (Rebalance.elect_sole _ _ (Rebalance.surveyOf engines _) _ hposition)]
    rfl
  | voted budget contested modelled target =>
    obtain ⟨found, -, hvoted⟩ := Rebalance.elect_voted schedule.knobs
      (schedule.portfolio.slots.map (Slot.asked engines))
      (Rebalance.surveyOf engines schedule.portfolio.slots) schedule.draws contested modelled
      (hasTarget_iff.mp target)
    rw [Rebalance.pass_elected budget.later budget.ready budget.ample hvoted]
    rfl

/-- A pass after a completed round is not the first. -/
theorem ne_firstRound {engines : Engines α} {schedule : RoundRobin σ α}
    (later : schedule.round ≠ 0) : (schedule.rebalance engines).1 ≠ .skipped .firstRound := by
  intro h
  obtain ⟨reason?, verdict⟩ := exists_verdict engines schedule
  have hreason := reason?_of_verdict verdict
  rw [h] at hreason
  subst hreason
  cases verdict with
  | firstRound first => exact later first

/-- Applied limits are made from the seconds above the floors, and the slots have them
afterwards. -/
theorem limits_of_applied {engines : Engines α} {schedule : RoundRobin σ α} {budget : Int}
    {limits : List Nat} (h : (schedule.rebalance engines).1 = .applied budget limits) :
    budget = distributable schedule.portfolio.limits ∧
      limits = (schedule.rebalance engines).2.portfolio.limits := by
  show _ ∧ limits = (schedule.rebalance engines).2.portfolio.slots.map Slot.limit
  rw [slots_rebalance]
  rw [fst_rebalance] at h
  rcases Rebalance.pass_cases engines schedule.knobs schedule.round schedule.models
    schedule.portfolio.slots schedule.draws with
    ⟨reason, after, -, hpass⟩ | ⟨votes, after, -, -, -, -, hpass⟩
  · rw [currentPass, hpass schedule.models schedule.draws rfl] at h
    cases h
  · rw [currentPass, hpass] at h ⊢
    cases h
    exact ⟨rfl, rfl⟩

/-- **A pass decides exactly by its preconditions, in order**: it is skipped for the reason of
the verdict, and applied exactly if the verdict gives none. Applied limits are those that the
slots have afterwards in the order of the portfolio, and the outcome is kept as the last one. -/
theorem rebalance_decides (engines : Engines α) (schedule : RoundRobin σ α) :
    (∀ reason?, (schedule.rebalance engines).1.reason? = reason? ↔
      Verdict engines schedule reason?) ∧
      (∀ budget limits, (schedule.rebalance engines).1 = .applied budget limits →
        budget = distributable schedule.portfolio.limits ∧
          limits = (schedule.rebalance engines).2.portfolio.limits) ∧
      (schedule.rebalance engines).2.lastOutcome = some (schedule.rebalance engines).1 := by
  refine ⟨fun reason? => ⟨?_, reason?_of_verdict⟩, fun _ _ => limits_of_applied,
    lastOutcome_rebalance engines schedule⟩
  rintro rfl
  obtain ⟨reason?, verdict⟩ := exists_verdict engines schedule
  rwa [reason?_of_verdict verdict]

end RoundRobin

end AlgorithmPortfolio
