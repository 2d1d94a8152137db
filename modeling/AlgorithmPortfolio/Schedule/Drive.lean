import AlgorithmPortfolio.Schedule.Scheduler

/-!
# Driving a schedule

A runner runs the slots that a scheduler hands out, until one has the answer, the scheduler has
nothing left, something fails or a number of runs is spent. Every run is timed on its slot's
stopwatch.

- `RunStatus`: what a run ends with.
- `Runner ρ α`: what a type `ρ` of runner states has to offer.
- `drive`: the loop.
-/

namespace AlgorithmPortfolio

/-- What a run ends with. -/
inductive RunStatus
  /-- The slot used its time. -/
  | unfinished
  /-- The slot has the final answer. -/
  | done
  deriving DecidableEq, Repr

/-- A runner of slots with progress of type `α`. -/
class Runner (ρ : Type) (α : outParam Type) where
  /-- What engines answer at the moment. -/
  engines : ρ → Engines α
  /-- The time of day. -/
  now : ρ → Nat
  /-- Run a slot, which is changed by what its run reports. -/
  run : Slot α → ρ → Except PortfolioError RunStatus × Slot α × ρ

/-- What came of driving a schedule. -/
structure DriveSummary where
  dispatches : Nat
  /-- The slot that had the final answer. -/
  finishedBy : Option String
  deriving DecidableEq, Repr

namespace Schedule

variable {σ ρ α : Type} [Scheduler σ α] [Runner ρ α]

/-- Run a slot that was handed out, with its timer running, and write it back. The slot is the
one that the runner left. -/
def runTurn (turn : Turn α) (scheduler : σ) (runner : ρ) :
    Except PortfolioError RunStatus × Slot α × σ × ρ :=
  let (status, slot, runner) := Runner.run (turn.slot.startTimer (Runner.now runner)) runner
  -- the timer stops and the slot is written back even if the run failed
  let slot := slot.stopTimer (Runner.now runner)
  (status, slot, Scheduler.update turn.position (fun _ => slot) scheduler, runner)

/-- Drive a schedule for at most `budget` more runs, after `count` runs. -/
def driveFrom (count : Nat) : Nat → σ → ρ → Except PortfolioError DriveSummary × σ × ρ
  | 0, scheduler, runner => (.ok ⟨count, none⟩, scheduler, runner)
  | budget + 1, scheduler, runner =>
    match Scheduler.hasNext scheduler with
    | (false, scheduler) => (.ok ⟨count, none⟩, scheduler, runner)
    | (true, scheduler) =>
      match Scheduler.next (Runner.engines runner) scheduler with
      | (.error e, scheduler) => (.error e, scheduler, runner)
      | (.ok turn, scheduler) =>
        match runTurn turn scheduler runner with
        | (.error e, _, scheduler, runner) => (.error e, scheduler, runner)
        | (.ok .done, slot, scheduler, runner) => (.ok ⟨count + 1, some slot.id⟩, scheduler, runner)
        | (.ok .unfinished, _, scheduler, runner) => driveFrom (count + 1) budget scheduler runner

/-- Drive a schedule for at most `maxDispatches` runs. -/
def drive (maxDispatches : Nat) (scheduler : σ) (runner : ρ) :
    Except PortfolioError DriveSummary × σ × ρ :=
  driveFrom 0 maxDispatches scheduler runner

end Schedule

end AlgorithmPortfolio
