import AlgorithmPortfolio.Proofs.Binary64.Whole
import AlgorithmPortfolio.Proofs.Rebalance.Partition
import AlgorithmPortfolio.Proofs.Schedule.Turns

/-!
# A sole slot that progressed

If one slot alone has a positive prior, a pass gives it the whole budget and every other slot
the floor. There is no vote, so neither the models nor the sources of chance are asked. The next
vote draws by the same random numbers as it would without the pass, and so it draws the same
targets if the same ones are open. They need not be: every pass stores the targets that engines
list, and a later pass falls back on them.

- `Event.Votes`, `Quiet`: whether a call of a run comes to a vote, and runs without one.
- `draws_of_quiet`: sources of chance stay as they are in runs without a vote.
- `targets_of_quiet`: the targets that the vote after such a run draws.
- `limits_of_sole`: all of a budget that floating point holds exactly goes to one slot.
- `exists_rebalance_of_sole`: the pass for any models and sources of chance.
- `sole_takes_all`: what a pass does with a sole slot, and what it means for the next vote.
- `sole_pass_stores_targets`: a vote after the pass that draws other targets than it would
  without the pass.
-/

namespace AlgorithmPortfolio

variable {α σ : Type} [Arith α] [PathSampler σ]

/-! ## Limits -/

/-- All of a budget for one slot, and the floor for every other one. -/
theorem Rebalance.limits_of_sole (slots : List (Slot α)) {budget : Int} (hbudget : 0 < budget)
    (hone : Arith.nearest (Arith.one * Arith.ofInt budget : α) = budget)
    (hzero : Arith.nearest (Arith.zero * Arith.ofInt budget : α) = 0) (winner : Nat) :
    (reallocate (spread slots.length [winner] [(Arith.one : α)]) budget slots).map Slot.limit =
      (List.replicate slots.length limitFloor).set winner
        (min (limitFloor + budget) limitCeiling).toNat := by
  have hspread : spread slots.length [winner] [(Arith.one : α)] =
      (List.replicate slots.length Arith.zero).set winner Arith.one := rfl
  have hceiling : limitFloor ≤ limitCeiling := by decide
  -- the winner gets the floor and all that is above it, as far as the ceiling allows
  have hwinner : Slot.clampLimit (limitFloor + budget) =
      (min (limitFloor + budget) limitCeiling).toNat := by
    unfold Slot.clampLimit
    omega
  have hother : Slot.clampLimit (limitFloor + 0) = limitFloor := by decide
  rw [map_limit_reallocate budget (length_spread ..), hspread, List.map_set, List.map_replicate,
    hone, hzero, hwinner, hother]

/-- Floating point holds budgets below 2 ^ 53 exactly, so all of it is all of it and nothing is
nothing. -/
theorem Binary64.nearest_mul_ofInt {budget : Int} (hbudget : 0 ≤ budget) (exact : budget < 2 ^ 53) :
    Arith.nearest (Arith.one * Arith.ofInt budget : Float) = budget ∧
      Arith.nearest (Arith.zero * Arith.ofInt budget : Float) = 0 := by
  obtain ⟨n, rfl⟩ := Int.eq_ofNat_of_zero_le hbudget
  have hn : n < 2 ^ 53 := by omega
  have hbudget := holds_ofInt hn
  have hone : Holds Arith.one 1 := holds_ofInt (by decide)
  have hzero : Holds Arith.zero 0 := holds_ofInt (by decide)
  -- one times the budget and nothing times the budget are exact below 2 ^ 53
  constructor
  · have := (hone.mul hbudget (by omega)).nearest (by omega)
    rwa [Nat.one_mul] at this
  · have := (hzero.mul hbudget (by omega)).nearest (by omega)
    rwa [Nat.zero_mul] at this

namespace RoundRobin

open PathSampler (Call)
open Rebalance (Draws allTargets drawn spread reallocate)

/-! ## Runs without a vote -/

/-- The pass over a sole slot that progressed. -/
theorem currentPass_of_sole {engines : Engines α} {schedule : RoundRobin σ α} {winner : Nat}
    (budget : schedule.HasBudget engines) (sole : schedule.mask = [winner]) :
    let slots := reallocate (spread schedule.portfolio.size [winner] [(Arith.one : α)])
      (distributable schedule.portfolio.limits) (schedule.portfolio.slots.map (Slot.asked engines))
    schedule.currentPass engines =
      (.applied (distributable schedule.portfolio.limits) (slots.map Slot.limit), slots,
        schedule.draws) := by
  have helect : Rebalance.elect schedule.knobs schedule.models _ _ schedule.draws = _ :=
    Rebalance.elect_sole schedule.knobs (schedule.portfolio.slots.map (Slot.asked engines))
      (Rebalance.surveyOf engines schedule.portfolio.slots) schedule.draws sole
  rw [List.length_map] at helect
  exact Rebalance.pass_elected budget.later budget.ready budget.ample helect

/-- A pass that does not come to a vote leaves the sources of chance alone. -/
theorem draws_of_not_votes {engines : Engines α} {schedule : RoundRobin σ α}
    (h : ¬ schedule.Votes engines) : (schedule.rebalance engines).2.draws = schedule.draws := by
  obtain ⟨reason?, verdict⟩ := exists_verdict engines schedule
  cases hresult : schedule.rebalance engines with
  | mk outcome after =>
    cases outcome with
    | skipped reason =>
      obtain ⟨⟨slots, -, rfl⟩, -⟩ := rebalance_of_skipped engines hresult
      rfl
    -- without a skip no fault was found, which leaves the vote and the sole slot
    | applied budget limits =>
      have hreason := reason?_of_verdict verdict
      rw [hresult] at hreason
      subst hreason
      cases verdict with
      | voted budget contested modelled target =>
        exact absurd ⟨budget, contested, modelled, target⟩ h
      -- a sole slot is elected without a draw
      | sole budget sole =>
        obtain ⟨winner, hwinner⟩ := List.length_eq_one_iff.mp sole
        rw [rebalance_of_pass (currentPass_of_sole budget hwinner)] at hresult
        cases hresult
        rfl

/-- Whether a call of a run comes to a vote. -/
def Event.Votes (schedule : RoundRobin σ α) : Event α → Prop
  | .next engines => schedule.inCycle = schedule.portfolio.size ∧ schedule.counted.Votes engines
  | .rebalance engines => schedule.Votes engines
  | _ => False

/-- Whether no call of a run comes to a vote. -/
def Quiet : List (Event α) → RoundRobin σ α → Prop
  | [], _ => True
  | event :: rest, schedule => ¬ event.Votes schedule ∧ Quiet rest (event.step schedule)

/-- Sources of chance are touched by votes alone. -/
theorem draws_step {schedule : RoundRobin σ α} {event : Event α} (h : ¬ event.Votes schedule) :
    (event.step schedule).draws = schedule.draws := by
  cases event with
  | next engines =>
    -- only the pass at the end of a round can draw
    have hturn : (schedule.atTurn engines).draws = schedule.draws := by
      by_cases full : schedule.inCycle = schedule.portfolio.size
      · rw [atTurn, if_pos full]
        exact draws_of_not_votes fun votes => h ⟨full, votes⟩
      · rw [atTurn, if_neg full]
    show (schedule.next engines).2.draws = schedule.draws
    cases hslot : (schedule.atTurn engines).portfolio.get? (schedule.atTurn engines).cursor with
    | some slot =>
      rw [next_of_slot hslot]
      exact hturn
    | none =>
      rw [next_of_none hslot]
      exact hturn
  | rebalance engines => exact draws_of_not_votes h
  | setModel id model => rfl
  | setMetrics metrics => rfl
  | operate position operation => rfl

theorem draws_of_quiet {events : List (Event α)} {schedule : RoundRobin σ α}
    (quiet : Quiet events schedule) : (run events schedule).draws = schedule.draws := by
  induction events generalizing schedule with
  | nil => rfl
  | cons event rest ih =>
    obtain ⟨hevent, hrest⟩ := quiet
    exact (ih hrest).trans (draws_step hevent)

/-- The vote after a run without one draws from the targets that are open then, by the random
numbers from before the run. -/
theorem targets_of_quiet {events : List (Event α)} {schedule : RoundRobin σ α}
    (quiet : Quiet events schedule) {engines : Engines α}
    (votes : (run events schedule).Votes engines) :
    ((run events schedule).calls engines).map Call.target =
      drawn (allTargets engines (run events schedule).portfolio.slots).toList
        (max schedule.knobs.sampleSize 1) schedule.draws.generator := by
  rw [calls_of_votes votes, Rebalance.voteCalls, Rebalance.Draws.map_target_calls,
    draws_of_quiet quiet, knobs_run]

/-! ## A sole slot -/

omit [PathSampler σ] in
/-- The pass comes to the same whatever the models and the sources of chance are. -/
theorem exists_rebalance_of_sole {engines : Engines Float} {schedule : RoundRobin σ Float}
    {winner : Nat} (budget : schedule.HasBudget engines) (sole : schedule.mask = [winner])
    (exact : distributable schedule.portfolio.limits < 2 ^ 53) :
    let total := distributable schedule.portfolio.limits
    let limits := (List.replicate schedule.portfolio.size limitFloor).set winner
      (min (limitFloor + total) limitCeiling).toNat
    ∃ slots : List (Slot Float), slots.map Slot.limit = limits ∧
      ∀ {τ : Type} [PathSampler τ] (models : List (Option (PathModel Float))) (draws : Draws τ),
        (schedule.withSources models draws).rebalance engines =
          (.applied total limits,
            (schedule.withSources models draws).afterPass (.applied total limits) slots draws) := by
  intro total limits
  have hpositive : 0 < total := Int.lt_of_le_of_lt (Int.natCast_nonneg _) budget.ample
  obtain ⟨hone, hzero⟩ := Binary64.nearest_mul_ofInt hpositive.le exact
  let asked := schedule.portfolio.slots.map (Slot.asked engines)
  let slots :=
    reallocate (spread schedule.portfolio.size [winner] [(Arith.one : Float)]) total asked
  -- on one slot the shares are one and zeros, and neither product is rounded
  have hslots : slots.map Slot.limit = limits := by
    have := Rebalance.limits_of_sole asked hpositive hone hzero winner
    rwa [List.length_map] at this
  refine ⟨slots, hslots, fun models draws => rebalance_of_pass ?_⟩
  rw [← hslots]
  exact currentPass_of_sole ⟨budget.later, budget.ready, budget.ample⟩ sole

/-- **A sole slot that progressed takes everything.** The pass gives it the whole budget on top
of the floor, up to the ceiling, and every other slot the floor. It asks for no path, leaves the
models and the sources of chance as they are, and has the same outcome with any others. The next
vote then draws the same targets as it would without the pass, in the same order, if it finds
the same targets open. -/
theorem sole_takes_all (engines : Engines Float) {schedule : RoundRobin σ Float} {winner : Nat}
    (budget : schedule.HasBudget engines) (sole : schedule.mask = [winner])
    (exact : distributable schedule.portfolio.limits < 2 ^ 53) :
    let total := distributable schedule.portfolio.limits
    let limits := (List.replicate schedule.portfolio.size limitFloor).set winner
      (min (limitFloor + total) limitCeiling).toNat
    let after := (schedule.rebalance engines).2
    winner < schedule.portfolio.size ∧ (schedule.rebalance engines).1 = .applied total limits ∧
      after.portfolio.limits = limits ∧ after.draws = schedule.draws ∧
      after.models = schedule.models ∧
      schedule.calls engines = [] ∧
      (∀ {τ : Type} [PathSampler τ] (models : List (Option (PathModel Float))) (draws : Draws τ),
        (schedule.withSources models draws).rebalance engines =
          (.applied total limits, after.withSources models draws)) ∧
      ∀ (events events' : List (Event Float)) (later later' : Engines Float), Quiet events after →
        Quiet events' schedule → (run events after).Votes later →
          (run events' schedule).Votes later' →
        (∀ target, (run events after).Covers later target ↔
          (run events' schedule).Covers later' target) →
          ((run events after).calls later).map Call.target =
            ((run events' schedule).calls later').map Call.target := by
  intro total limits after
  -- the pass is written without the models and the draws, so that it reads neither
  obtain ⟨slots, hslots, hany⟩ := exists_rebalance_of_sole budget sole exact
  have hrebalance : schedule.rebalance engines =
      (.applied total limits, schedule.afterPass (.applied total limits) slots schedule.draws) :=
    hany schedule.models schedule.draws
  have hafter : after = schedule.afterPass (.applied total limits) slots schedule.draws :=
    congrArg Prod.snd hrebalance
  refine ⟨?_, congrArg Prod.fst hrebalance, ?_, ?_, ?_, ?_, ?_, ?_⟩
  · obtain ⟨slot, hslot⟩ := exists_slot_of_mem_mask (sole ▸ List.mem_singleton_self winner)
    exact (List.getElem?_eq_some_iff.mp hslot).1
  · rw [hafter]
    exact hslots
  · rw [hafter]
    rfl
  · rw [hafter]
    rfl
  · exact calls_of_not_votes fun votes => votes.contested (congrArg List.length sole)
  · intro τ _ models draws
    rw [hany, hafter]
    rfl
  · -- a vote draws from the union of the targets alone, and here both have the same one
    intro events events' later later' quiet quiet' votes votes' union
    have htargets : allTargets later (run events after).portfolio.slots =
        allTargets later' (run events' schedule).portfolio.slots :=
      TargetSet.ext_mem fun target => by rw [← covers_iff, ← covers_iff, union]
    rw [targets_of_quiet quiet votes, targets_of_quiet quiet' votes', htargets, hafter]
    rfl

/-! ### Two slots, one of which progressed -/

/-- Two slots with models, the first of which progressed. An engine listed one target for each
before. -/
def oneProgressed : RoundRobin PathFunction Float :=
  let listed := some (TargetSet.ofList [1])
  afterFirstRound
    [{ Slot.tried "a" 20 (some 0.5) with listed }, { Slot.tried "b" 20 (some 0.0) with listed }]
    (List.replicate 2 (some (.ofStatistic [] fun _ => default)))

/-- Engines that list the same targets, if they list any. -/
def listing (targets : Option TargetSet) : Engines Float := fun _ => ⟨targets, 0.0⟩

/-- The second slot progresses too. -/
def secondProgresses : List (Event Float) := [.operate 1 (.setProgress 0.5)]

/-- Measuring a slot is not a vote. -/
theorem quiet_secondProgresses (schedule : RoundRobin PathFunction Float) :
    Quiet secondProgresses schedule :=
  ⟨id, trivial⟩

/-- The first of two slots takes all 20 seconds. Both vote over one target then, with and
without the pass. -/
theorem sole_takes_all_first :
    let engines := listing (some (TargetSet.ofList [3]))
    let after := (oneProgressed.rebalance engines).2
    oneProgressed.HasBudget engines ∧ oneProgressed.mask = [0] ∧
      distributable oneProgressed.portfolio.limits < 2 ^ 53 ∧
      (oneProgressed.rebalance engines).1 = .applied 20 [30, 10] ∧
      after.draws = oneProgressed.draws ∧
      Quiet secondProgresses after ∧ Quiet secondProgresses oneProgressed ∧
      (run secondProgresses after).Votes engines ∧
      (run secondProgresses oneProgressed).Votes engines ∧
      (∀ target, (run secondProgresses after).Covers engines target ↔
        (run secondProgresses oneProgressed).Covers engines target) ∧
      ((run secondProgresses after).calls engines).map Call.target =
        ((run secondProgresses oneProgressed).calls engines).map Call.target := by
  intro engines after
  have budget : oneProgressed.HasBudget engines := by decide +kernel
  have sole : oneProgressed.mask = [0] := by decide +kernel
  have exact : distributable oneProgressed.portfolio.limits < 2 ^ 53 := by decide
  have quiet := quiet_secondProgresses after
  have quiet' := quiet_secondProgresses oneProgressed
  have votes : (run secondProgresses after).Votes engines := by decide +kernel
  have votes' : (run secondProgresses oneProgressed).Votes engines := by decide +kernel
  have hopen : allTargets engines (run secondProgresses after).portfolio.slots =
      allTargets engines (run secondProgresses oneProgressed).portfolio.slots := by decide +kernel
  have union (target : Nat) : (run secondProgresses after).Covers engines target ↔
      (run secondProgresses oneProgressed).Covers engines target := by
    rw [covers_iff, covers_iff, hopen]
  obtain ⟨-, houtcome, -, hdraws, -, -, -, htargets⟩ := sole_takes_all engines budget sole exact
  exact ⟨budget, sole, exact, houtcome, hdraws, quiet, quiet', votes, votes', union,
    htargets _ _ _ _ quiet quiet' votes votes' union⟩

/-- The engines list another target during the pass, and nothing later. The pass stores that
target, so the next vote draws it. Without the pass the vote draws the target that was listed
before. -/
theorem sole_pass_stores_targets :
    let engines := listing (some (TargetSet.ofList [3]))
    let after := (oneProgressed.rebalance engines).2
    oneProgressed.HasBudget engines ∧ oneProgressed.mask = [0] ∧
      distributable oneProgressed.portfolio.limits < 2 ^ 53 ∧
      Quiet secondProgresses after ∧ Quiet secondProgresses oneProgressed ∧
      (run secondProgresses after).Votes (listing none) ∧
      (run secondProgresses oneProgressed).Votes (listing none) ∧
      ((run secondProgresses after).calls (listing none)).map Call.target = List.replicate 10 3 ∧
      ((run secondProgresses oneProgressed).calls (listing none)).map Call.target =
        List.replicate 10 1 := by
  intro engines after
  have quiet := quiet_secondProgresses after
  have quiet' := quiet_secondProgresses oneProgressed
  have votes : (run secondProgresses after).Votes (listing none) := by decide +kernel
  have votes' : (run secondProgresses oneProgressed).Votes (listing none) := by decide +kernel
  -- after the pass the target is the one that it asked for
  have hopen : (allTargets (listing none) (run secondProgresses after).portfolio.slots).toList =
      [3] := by
    decide +kernel
  -- without the pass it is the one of the slot's own list
  have hopen' :
      (allTargets (listing none) (run secondProgresses oneProgressed).portfolio.slots).toList =
        [1] := by
    decide +kernel
  have hdrawn : drawn [3] (max after.knobs.sampleSize 1) after.draws.generator =
      List.replicate 10 3 := by
    decide +kernel
  have hdrawn' : drawn [1] 10 (Generator.ofSeed 3) = List.replicate 10 1 := by decide +kernel
  refine ⟨by decide +kernel, by decide +kernel, by decide, quiet, quiet', votes, votes', ?_, ?_⟩
  · rw [targets_of_quiet quiet votes, hopen, hdrawn]
  · rw [targets_of_quiet quiet' votes', hopen']
    exact hdrawn'

end RoundRobin

end AlgorithmPortfolio
