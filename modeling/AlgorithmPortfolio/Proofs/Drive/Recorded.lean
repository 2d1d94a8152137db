import AlgorithmPortfolio.Proofs.Drive.Course

/-!
# Recorded schedulers and runners

A recorder passes every question on and keeps it with its answer. What driving asks of a
scheduler and of a runner is what it leaves in their recorders.

- `Scheduler.Recorded`: a scheduler with its calls.
- `Runner.Run`, `Runner.Recorded`: a runner with its runs.
- `Drives.recorded`: recorders go along with a course and keep its calls and runs.
- `drive_recorded`: driving recorders comes to the same as driving what they record.
-/

namespace AlgorithmPortfolio

variable {σ ρ α : Type}

/-! ## Recorders -/

/-- A scheduler with the questions that it was asked so far. -/
structure Scheduler.Recorded (σ α : Type) where
  inner : σ
  calls : List (Scheduler.Call α)

open Scheduler in
instance [Scheduler σ α] : Scheduler (Scheduler.Recorded σ α) α where
  portfolio recorded := portfolio recorded.inner
  setPortfolio slots recorded := { recorded with inner := setPortfolio slots recorded.inner }
  current recorded := current recorded.inner
  hasNext recorded :=
    let (answer, inner) := hasNext recorded.inner
    (answer, ⟨inner, recorded.calls ++ [.hasNext answer]⟩)
  next engines recorded :=
    let (answer, inner) := next engines recorded.inner
    (answer, ⟨inner, recorded.calls ++ [.next answer]⟩)
  report now recorded := report now recorded.inner

/-- A run: when it began, the slot that the runner was given, how it ended, and the slot that it
left. -/
structure Runner.Run (α : Type) where
  began : Nat
  given : Slot α
  status : Except PortfolioError RunStatus
  left : Slot α

/-- A runner with its runs so far. -/
structure Runner.Recorded (ρ α : Type) where
  inner : ρ
  runs : List (Runner.Run α)

open Runner in
instance [Runner ρ α] : Runner (Runner.Recorded ρ α) α where
  engines recorded := engines recorded.inner
  now recorded := now recorded.inner
  run slot recorded :=
    let (status, left, inner) := run slot recorded.inner
    (status, left, ⟨inner, recorded.runs ++ [⟨now recorded.inner, slot, status, left⟩]⟩)

/-- The run of a stint. Its slot is the one that was handed out, with its timer started. -/
def Stint.run (stint : Stint α) : Runner.Run α where
  began := stint.began
  given := stint.turn.slot.startTimer stint.began
  status := stint.status
  left := stint.left

/-! ## Recorded courses -/

namespace Schedule

variable [Scheduler σ α] [Runner ρ α]

open Scheduler (Call hasNext next)

section Answers

variable {scheduler asked : σ} {runner later : ρ} {turn : Turn α}

@[simp] theorem now_recorded (runner : ρ) (runs : List (Runner.Run α)) :
    Runner.now (⟨runner, runs⟩ : Runner.Recorded ρ α) = Runner.now runner :=
  rfl

@[simp] theorem writeBack_recorded (position : Nat) (left : Slot α) (runner : ρ) (scheduler : σ)
    (runs : List (Runner.Run α)) (calls : List (Call α)) :
    writeBack position left (⟨runner, runs⟩ : Runner.Recorded ρ α)
        (⟨scheduler, calls⟩ : Scheduler.Recorded σ α) =
      ⟨writeBack position left runner scheduler, calls⟩ :=
  rfl

theorem hasNext_recorded {answered : Bool} (calls : List (Call α))
    (question : hasNext scheduler = (answered, asked)) :
    hasNext (⟨scheduler, calls⟩ : Scheduler.Recorded σ α) =
      (answered, ⟨asked, calls ++ [.hasNext answered]⟩) := by
  simp only [hasNext] at question ⊢
  rw [question]

theorem next_recorded {answered : Except PortfolioError (Turn α)} (calls : List (Call α))
    (runs : List (Runner.Run α))
    (answer : next (Runner.engines runner) scheduler = (answered, asked)) :
    next (Runner.engines (⟨runner, runs⟩ : Runner.Recorded ρ α))
        (⟨scheduler, calls⟩ : Scheduler.Recorded σ α) =
      (answered, ⟨asked, calls ++ [.next answered]⟩) := by
  simp only [next, Runner.engines] at answer ⊢
  rw [answer]

theorem runOf_recorded {status : Except PortfolioError RunStatus} {left : Slot α}
    (runs : List (Runner.Run α)) (ran : runOf turn runner = (status, left, later)) :
    runOf turn (⟨runner, runs⟩ : Runner.Recorded ρ α) =
      (status, left, ⟨later, runs ++ [(Stint.mk turn (Runner.now runner) status left).run]⟩) := by
  simp only [runOf, Runner.run, Runner.now] at ran ⊢
  rw [ran]
  rfl

end Answers

/-- Recorders go along with a course, and keep its calls and its runs. -/
theorem Drives.recorded {count budget : Nat} {scheduler : σ} {runner : ρ} {stints : List (Stint α)}
    {closing : List (Call α)} {result : Except PortfolioError DriveSummary × σ × ρ}
    (h : Drives count budget scheduler runner stints closing result) (calls : List (Call α))
    (runs : List (Runner.Run α)) :
    Drives count budget (⟨scheduler, calls⟩ : Scheduler.Recorded σ α)
      (⟨runner, runs⟩ : Runner.Recorded ρ α) stints closing
      (result.1, ⟨result.2.1, calls ++ (stints.flatMap Stint.calls ++ closing)⟩,
        ⟨result.2.2, runs ++ stints.map Stint.run⟩) := by
  -- what was recorded before is generalized, as each round starts from a longer record
  induction h generalizing calls runs with
  | spent count scheduler runner =>
    simpa using Drives.spent count (⟨scheduler, calls⟩ : Scheduler.Recorded σ α)
      (⟨runner, runs⟩ : Runner.Recorded ρ α)
  | idle question => simpa using Drives.idle (hasNext_recorded calls question)
  | refused question answer =>
    have question := hasNext_recorded calls question
    have answer := next_recorded (calls ++ [.hasNext true]) runs answer
    simpa using Drives.refused question answer
  | failed question answer ran =>
    have question := hasNext_recorded calls question
    have answer := next_recorded (calls ++ [.hasNext true]) runs answer
    have ran := runOf_recorded runs ran
    simpa [Stint.calls] using Drives.failed question answer ran
  | done question answer ran =>
    have question := hasNext_recorded calls question
    have answer := next_recorded (calls ++ [.hasNext true]) runs answer
    have ran := runOf_recorded runs ran
    simpa [Stint.calls] using Drives.done question answer ran
  | unfinished question answer ran _ ih =>
    have question := hasNext_recorded calls question
    have answer := next_recorded (calls ++ [.hasNext true]) runs answer
    have ran := runOf_recorded runs ran
    simpa [Stint.calls] using Drives.unfinished question answer ran (ih _ _)

/-- Driving recorders comes to the same as driving what they record, and leaves a course in
them. -/
theorem drive_recorded (maxDispatches : Nat) (scheduler : σ) (runner : ρ) :
    ∃ stints closing, Drives 0 maxDispatches scheduler runner stints closing
        (drive maxDispatches scheduler runner) ∧
      drive maxDispatches (⟨scheduler, []⟩ : Scheduler.Recorded σ α)
          (⟨runner, []⟩ : Runner.Recorded ρ α) =
        ((drive maxDispatches scheduler runner).1,
          ⟨(drive maxDispatches scheduler runner).2.1, stints.flatMap Stint.calls ++ closing⟩,
          ⟨(drive maxDispatches scheduler runner).2.2, stints.map Stint.run⟩) := by
  obtain ⟨stints, closing, course⟩ := exists_drives 0 maxDispatches scheduler runner
  exact ⟨stints, closing, course, driveFrom_eq (course.recorded [] [])⟩

end Schedule

end AlgorithmPortfolio
