import AlgorithmPortfolio.Proofs.Rebalance.Verdict

/-!
# Skipped passes

A pass can be given up on at several places: before it looks at any slot, in the middle of the
slots, over the budget, or over the models and targets. Wherever that is, nothing was changed by
then but targets that engines listed, and neither a path nor a random number was drawn.

- `Slot.tried`, `RoundRobin.afterFirstRound`: slots and schedules as a first round leaves them.
- `RoundRobin.withSources`: a schedule with other models and sources of chance.
- `rebalance_of_skipped`: what a skipped pass leaves of a schedule.
-/

namespace AlgorithmPortfolio

/-! ## Schedules at the end of a round -/

section Tried

variable {α : Type}

/-- A slot with an engine that was handed out once, by its limit and what was measured. -/
def Slot.tried (config : String) (limit : Nat) (progress : Option α) : Slot α where
  config
  reuse := Reuse.nothing
  limit
  stopwatch := Stopwatch.fresh
  progress
  progressed := []
  engine := some "engine"
  listed := none
  dispatches := 1

/-- A schedule whose first round ends, over slots with the same engine and without any paths. -/
def RoundRobin.afterFirstRound (slots : List (Slot α)) (models : List (Option (PathModel α))) :
    RoundRobin PathFunction α where
  portfolio :=
    let named := Portfolio.indexFrom 0 Dict.empty [] slots
    ⟨slots, named.1, named.2⟩
  models
  draws := ⟨⟨fun _ _ => []⟩, Generator.ofSeed 3⟩
  knobs := Knobs.default
  cursor := 0
  inCycle := slots.length
  round := 1
  current := some (slots.length - 1)
  applied := 0
  lastOutcome := none
  metrics := default

end Tried

variable {α σ τ : Type} [Arith α] [PathSampler σ] [PathSampler τ]

/-! ## Skipped passes -/

namespace RoundRobin

open Rebalance (SkipReason Outcome Draws)

/-- The schedule with other models and other sources of chance. -/
def withSources (models : List (Option (PathModel α))) (draws : Draws τ)
    (schedule : RoundRobin σ α) : RoundRobin τ α :=
  { schedule with models, draws }

/-- **A skipped pass is a no-op.** Every slot stays as it is or had its listed targets renewed
by its engine, and apart from that the outcome is kept as the last one and counted as skipped.
Limits, measurements, counters, the sources of chance and the limits that the metrics show are
what they were. Neither the sources nor the models were asked: with any others in their place,
the pass is skipped for the same reason and leaves the same state. -/
theorem rebalance_of_skipped (engines : Engines α) {schedule after : RoundRobin σ α}
    {reason : SkipReason} (skipped : schedule.rebalance engines = (.skipped reason, after)) :
    (∃ slots, List.Forall₂ (Slot.Refreshed engines) schedule.portfolio.slots slots ∧
      after = { schedule with
        portfolio := { schedule.portfolio with slots }
        lastOutcome := some (.skipped reason)
        metrics := { schedule.metrics with skipped := schedule.metrics.skipped + 1 } }) ∧
      ∀ {τ : Type} [PathSampler τ] (draws : Draws τ) (models : List (Option (PathModel α))),
        models.map Option.isSome = schedule.models.map Option.isSome →
          (schedule.withSources models draws).rebalance engines =
            (.skipped reason, after.withSources models draws) := by
  rcases Rebalance.pass_cases engines schedule.knobs schedule.round schedule.models
    schedule.portfolio.slots schedule.draws with
    ⟨cause, slots, hrefreshed, hskipped⟩ | ⟨votes, draws, -, -, -, -, happlied⟩
  · have hpass : schedule.currentPass engines = (.skipped cause, slots, schedule.draws) :=
      hskipped schedule.models schedule.draws rfl
    rw [rebalance_of_pass hpass] at skipped
    cases skipped
    -- a skip is decided by which models there are, before any of them is read
    refine ⟨⟨slots, hrefreshed, rfl⟩, fun draws models present => ?_⟩
    have hother : (schedule.withSources models draws).currentPass engines =
        (.skipped reason, slots, draws) := hskipped models draws present
    rw [rebalance_of_pass hother]
    rfl
  · -- an applied pass is not skipped
    have hpass : schedule.currentPass engines = (.applied _ _, _, draws) := happlied
    rw [rebalance_of_pass hpass] at skipped
    cases skipped

/-- A pass over two slots, the second of which was not measured. -/
theorem rebalance_of_skipped_unmeasured :
    let engines : Engines Float := fun _ => ⟨some (TargetSet.ofList [1]), 0.0⟩
    let schedule :=
      afterFirstRound [Slot.tried "a" 20 (some 0.5), Slot.tried "b" 20 none] [none, none]
    ∃ after, schedule.rebalance engines = (.skipped (.missingProgress "b"), after) ∧
      ∃ slots, List.Forall₂ (Slot.Refreshed engines) schedule.portfolio.slots slots ∧
        after = { schedule with
          portfolio := { schedule.portfolio with slots }
          lastOutcome := some (.skipped (.missingProgress "b"))
          metrics := { schedule.metrics with skipped := schedule.metrics.skipped + 1 } } :=
  ⟨_, rfl, (rebalance_of_skipped _ rfl).1⟩

end RoundRobin

end AlgorithmPortfolio
