import AlgorithmPortfolio.Controller.Replay
import AlgorithmPortfolio.Schedule.Controlled
import AlgorithmPortfolio.Schedule.Drive

/-!
# The course of driving a schedule

Driving a schedule is a sequence of stints: the scheduler says that there is another slot and
hands it out, and the runner runs it. Every stint but the last ends without an answer, and the
calls after the last one tell why there are no more.

- `Stint`: a slot that was handed out, and its run.
- `Scheduler.Call`: a question to the scheduler and its answer.
- `Drives`: driving as a relation between the states before, the stints, the calls after them
  and what comes of it. It has one rule for each way to end and one for a stint that is not the
  last.
- `exists_drives`, `driveFrom_eq`: the relation is what the loop computes.
- `Drives.append`: a course whose runs are all spent goes on where it ended.
- `drive_add`: a number of runs and then another number is both numbers of runs at once.
- `Scripted`: a runner that goes by a list.
-/

namespace AlgorithmPortfolio

variable {σ ρ α : Type}

/-- A question to a scheduler, with its answer. -/
inductive Scheduler.Call (α : Type)
  | hasNext (answer : Bool)
  | next (answer : Except PortfolioError (Turn α))

/-- A slot that was handed out, and its run: when it began, how it ended, and the slot that it
left. -/
structure Stint (α : Type) where
  turn : Turn α
  began : Nat
  status : Except PortfolioError RunStatus
  left : Slot α

/-- The calls of the scheduler that belong to a stint. -/
def Stint.calls (stint : Stint α) : List (Scheduler.Call α) :=
  [.hasNext true, .next (.ok stint.turn)]

/-- The summary of a number of runs and of those after them. -/
def DriveSummary.after (earlier : Nat) (summary : DriveSummary) : DriveSummary :=
  ⟨earlier + summary.dispatches, summary.finishedBy⟩

namespace Schedule

variable [Scheduler σ α] [Runner ρ α]

open Scheduler (Call hasNext next update)

/-- The run of a slot that was handed out. -/
def runOf (turn : Turn α) (runner : ρ) : Except PortfolioError RunStatus × Slot α × ρ :=
  Runner.run (turn.slot.startTimer (Runner.now runner)) runner

/-- The scheduler after a run, whose slot has its timer stopped. -/
def writeBack (position : Nat) (left : Slot α) (runner : ρ) (scheduler : σ) : σ :=
  update position (fun _ => left.stopTimer (Runner.now runner)) scheduler

/-- The course of driving a schedule for at most `budget` more runs after `count` runs: its
stints, the calls after them, and what comes of it. -/
inductive Drives : Nat → Nat → σ → ρ → List (Stint α) → List (Call α) →
    Except PortfolioError DriveSummary × σ × ρ → Prop
  /-- All runs are spent, and nobody asks for more. -/
  | spent (count : Nat) (scheduler : σ) (runner : ρ) :
    Drives count 0 scheduler runner [] [] (.ok ⟨count, none⟩, scheduler, runner)
  /-- The scheduler has nothing left. -/
  | idle {count budget : Nat} {scheduler asked : σ} {runner : ρ}
    (question : hasNext scheduler = (false, asked)) :
    Drives count (budget + 1) scheduler runner [] [.hasNext false]
      (.ok ⟨count, none⟩, asked, runner)
  /-- The scheduler fails. -/
  | refused {count budget : Nat} {scheduler asked after : σ} {runner : ρ} {cause : PortfolioError}
    (question : hasNext scheduler = (true, asked))
    (answer : next (Runner.engines runner) asked = (.error cause, after)) :
    Drives count (budget + 1) scheduler runner [] [.hasNext true, .next (.error cause)]
      (.error cause, after, runner)
  /-- The runner fails. -/
  | failed {count budget : Nat} {scheduler asked handed : σ} {runner later : ρ} {turn : Turn α}
    {cause : PortfolioError} {left : Slot α} (question : hasNext scheduler = (true, asked))
    (answer : next (Runner.engines runner) asked = (.ok turn, handed))
    (ran : runOf turn runner = (.error cause, left, later)) :
    Drives count (budget + 1) scheduler runner [⟨turn, Runner.now runner, .error cause, left⟩] []
      (.error cause, writeBack turn.position left later handed, later)
  /-- A slot has the final answer. -/
  | done {count budget : Nat} {scheduler asked handed : σ} {runner later : ρ} {turn : Turn α}
    {left : Slot α} (question : hasNext scheduler = (true, asked))
    (answer : next (Runner.engines runner) asked = (.ok turn, handed))
    (ran : runOf turn runner = (.ok .done, left, later)) :
    Drives count (budget + 1) scheduler runner [⟨turn, Runner.now runner, .ok .done, left⟩] []
      (.ok ⟨count + 1, some left.id⟩, writeBack turn.position left later handed, later)
  /-- A slot has no answer, so that there may be more stints. -/
  | unfinished {count budget : Nat} {scheduler asked handed : σ} {runner later : ρ} {turn : Turn α}
    {left : Slot α} {stints : List (Stint α)} {closing : List (Call α)}
    {result : Except PortfolioError DriveSummary × σ × ρ}
    (question : hasNext scheduler = (true, asked))
    (answer : next (Runner.engines runner) asked = (.ok turn, handed))
    (ran : runOf turn runner = (.ok .unfinished, left, later))
    (rest : Drives (count + 1) budget (writeBack turn.position left later handed) later
      stints closing result) :
    Drives count (budget + 1) scheduler runner
      (⟨turn, Runner.now runner, .ok .unfinished, left⟩ :: stints) closing result

/-! ## What the loop computes -/

theorem runTurn_of_runOf {turn : Turn α} {scheduler : σ} {runner later : ρ}
    {status : Except PortfolioError RunStatus} {left : Slot α}
    (ran : runOf turn runner = (status, left, later)) :
    runTurn turn scheduler runner =
      (status, left.stopTimer (Runner.now later), writeBack turn.position left later scheduler,
        later) := by
  unfold runTurn
  rw [show Runner.run (turn.slot.startTimer (Runner.now runner)) runner =
    (status, left, later) from ran]
  rfl

/-- A course ends as the loop does. -/
theorem driveFrom_eq {count budget : Nat} {scheduler : σ} {runner : ρ} {stints : List (Stint α)}
    {closing : List (Call α)} {result : Except PortfolioError DriveSummary × σ × ρ}
    (h : Drives count budget scheduler runner stints closing result) :
    driveFrom count budget scheduler runner = result := by
  induction h with
  | spent => rfl
  | idle question => simp only [driveFrom, question]
  | refused question answer => simp only [driveFrom, question, answer]
  | failed question answer ran => simp only [driveFrom, question, answer, runTurn_of_runOf ran]
  | done question answer ran =>
    simp only [driveFrom, question, answer, runTurn_of_runOf ran]
    rfl
  | unfinished question answer ran _ ih =>
    simp only [driveFrom, question, answer, runTurn_of_runOf ran]
    exact ih

/-- The loop has a course. -/
theorem exists_drives (count budget : Nat) (scheduler : σ) (runner : ρ) :
    ∃ stints closing,
      Drives count budget scheduler runner stints closing
        (driveFrom count budget scheduler runner) := by
  -- it is enough to find a course: it ends as the loop does
  suffices course : ∃ stints closing result,
      Drives count budget scheduler runner stints closing result by
    obtain ⟨stints, closing, result, course⟩ := course
    exact ⟨stints, closing, driveFrom_eq course ▸ course⟩
  induction budget generalizing count scheduler runner with
  | zero => exact ⟨_, _, _, .spent count scheduler runner⟩
  | succ budget ih =>
    -- first the question
    rcases question : hasNext scheduler with ⟨_ | _, asked⟩
    case false => exact ⟨_, _, _, .idle question⟩
    case true =>
      -- then the turn
      rcases answer : next (Runner.engines runner) asked with ⟨cause | turn, handed⟩
      case error => exact ⟨_, _, _, .refused question answer⟩
      case ok =>
        -- then its run
        rcases ran : runOf turn runner with ⟨cause | _ | _, left, later⟩
        case error => exact ⟨_, _, _, .failed question answer ran⟩
        case ok.done => exact ⟨_, _, _, .done question answer ran⟩
        case ok.unfinished =>
          obtain ⟨_, _, _, rest⟩ := ih (count + 1) (writeBack turn.position left later handed) later
          exact ⟨_, _, _, .unfinished question answer ran rest⟩

/-! ## One course after another -/

/-- Earlier runs count in the summary, and for nothing else. -/
theorem Drives.shift {count budget : Nat} {scheduler : σ} {runner : ρ} {stints : List (Stint α)}
    {closing : List (Call α)} {result : Except PortfolioError DriveSummary × σ × ρ}
    (h : Drives count budget scheduler runner stints closing result) (earlier : Nat) :
    Drives (earlier + count) budget scheduler runner stints closing
      (result.1.map (DriveSummary.after earlier), result.2) := by
  induction h with
  | spent => exact .spent ..
  | idle question => exact .idle question
  | refused question answer => exact .refused question answer
  | failed question answer ran => exact .failed question answer ran
  | done question answer ran => exact .done question answer ran
  | unfinished question answer ran _ ih => exact .unfinished question answer ran ih

/-- A course with as many runs as it was allowed, none of which had the answer, goes on from
where it ended as one course. -/
theorem Drives.append {count budget more : Nat} {scheduler after : σ} {runner later : ρ}
    {stints stints' : List (Stint α)} {closing closing' : List (Call α)}
    {ended result : Except PortfolioError DriveSummary × σ × ρ}
    (h : Drives count budget scheduler runner stints closing ended)
    (spent : ended = (.ok ⟨count + budget, none⟩, after, later))
    (h' : Drives (count + budget) more after later stints' closing' result) :
    Drives count (budget + more) scheduler runner (stints ++ stints') closing' result := by
  induction h with
  | spent =>
    simp only [Prod.mk.injEq] at spent
    obtain ⟨-, rfl, rfl⟩ := spent
    simpa using h'
  | idle =>
    -- the course stopped with runs left
    simp only [Prod.mk.injEq, Except.ok.injEq, DriveSummary.mk.injEq] at spent
    omega
  | refused => cases spent
  | failed => cases spent
  | done => simp at spent
  | unfinished question answer ran _ ih =>
    -- the run that was made is one that is not left
    rw [← Nat.add_assoc, Nat.add_right_comm] at spent h'
    rw [Nat.add_right_comm]
    exact .unfinished question answer ran (ih spent h')

/-- **A number of runs and then another number is both numbers of runs at once.** If a schedule
was driven for `m` runs without an answer, then what the next `n` runs come to is what `m + n`
runs come to: the same states, the same error or the same slot with the answer, and `m` more
runs in the summary. -/
theorem drive_add {m : Nat} (n : Nat) {scheduler after : σ} {runner later : ρ}
    (h : drive m scheduler runner = (.ok ⟨m, none⟩, after, later)) :
    drive (m + n) scheduler runner =
      ((drive n after later).1.map (DriveSummary.after m), (drive n after later).2) := by
  obtain ⟨_, _, first⟩ := exists_drives 0 m scheduler runner
  obtain ⟨_, _, second⟩ := exists_drives 0 n after later
  have spent : driveFrom 0 m scheduler runner = (.ok ⟨0 + m, none⟩, after, later) := by
    rw [Nat.zero_add]
    exact h
  have shifted := second.shift m
  have both := first.append spent (by rw [Nat.zero_add]; exact shifted)
  exact driveFrom_eq both

/-- A runner whose runs end as listed, and fail when the list is at its end. Every run takes a
second. -/
structure Scripted where
  outcomes : List RunStatus
  clock : Nat

instance : Runner Scripted Float where
  engines _ _ := ⟨none, 0⟩
  now script := script.clock
  run slot script := match script.outcomes with
    | [] => (.error (.engine "no script"), slot, script)
    | status :: rest => (.ok status, slot, ⟨rest, script.clock + 1000000000⟩)

/-- Decisions for `a` and `b`, the second of which has the answer: one run and then at most two
more are at most three runs, two of which are made. -/
theorem drive_add_answered :
    let slots : List (Slot Float) := [.ofSpec ⟨"a", none⟩, .ofSpec ⟨"b", none⟩]
    let decisions : List Decision := [⟨"a", 20⟩, ⟨"b", 20⟩, ⟨"a", 20⟩]
    let script : Scripted := ⟨[.unfinished, .done], 0⟩
    ∃ portfolio, ∃ schedule after : Controlled (Replay Float) Float, ∃ later : Scripted,
      Portfolio.ofSlots slots = .ok portfolio ∧
      Controlled.start portfolio (Replay.ofDecisions decisions) Config.default = .ok schedule ∧
      drive 1 schedule script = (.ok ⟨1, none⟩, after, later) ∧
      (drive 2 after later).1 = .ok ⟨1, some "b"⟩ ∧
      drive 3 schedule script = (.ok ⟨2, some "b"⟩, (drive 2 after later).2) := by
  intro slots decisions script
  obtain ⟨portfolio, hportfolio⟩ : ∃ portfolio, Portfolio.ofSlots slots = .ok portfolio := ⟨_, rfl⟩
  obtain ⟨schedule, hstart⟩ : ∃ schedule : Controlled (Replay Float) Float,
      Controlled.start portfolio (Replay.ofDecisions decisions) Config.default = .ok schedule := by
    cases hportfolio
    exact ⟨_, rfl⟩
  have hfirst : drive 1 schedule script =
      (.ok ⟨1, none⟩, (drive 1 schedule script).2.1, (drive 1 schedule script).2.2) := by
    cases hportfolio
    cases hstart
    rfl
  refine ⟨portfolio, schedule, _, _, hportfolio, hstart, hfirst, ?_, ?_⟩
  · cases hportfolio
    cases hstart
    rfl
  · rw [drive_add 2 hfirst]
    cases hportfolio
    cases hstart
    rfl

end Schedule

end AlgorithmPortfolio
