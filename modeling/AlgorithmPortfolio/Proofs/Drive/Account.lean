import AlgorithmPortfolio.Proofs.Drive.Recorded
import AlgorithmPortfolio.Proofs.Drive.Timers

/-!
# The account of driving a schedule

What comes of driving a schedule agrees with what was asked of the scheduler and of the runner,
on every way out of the loop.

- `Scheduler.Call.turn?`, `Scheduler.Call.cause?`, `Runner.Run.cause?`: what was handed out, and
  what failed.
- `Ending`: the ways out. All stints but the last one end without an answer, and the last one or
  the calls after it settle the result (`Drives.ending`).
- `Accounted`: calls, runs and result agree.
- `drive_accounted`: so it is for every schedule of a controller and every schedule in turn,
  with any runner.
-/

namespace AlgorithmPortfolio

variable {σ ρ κ α : Type}

/-! ## Calls and runs -/

/-- The slot that was handed out in a call. -/
def Scheduler.Call.turn? : Scheduler.Call α → Option (Turn α)
  | .next (.ok turn) => some turn
  | _ => none

/-- The error of an answer. -/
def error? {β : Type} : Except PortfolioError β → Option PortfolioError
  | .error cause => some cause
  | .ok _ => none

/-- The error of a call. -/
def Scheduler.Call.cause? : Scheduler.Call α → Option PortfolioError
  | .next answer => error? answer
  | .hasNext _ => none

/-- The error of a run. -/
def Runner.Run.cause? (run : Runner.Run α) : Option PortfolioError := error? run.status

namespace Schedule

open Scheduler (Call portfolio)
open Runner (Run)

/-! ## Ways out -/

/-- How a course for at most `budget` runs after `count` runs ends. -/
inductive Ending (count budget : Nat) :
    List (Stint α) → List (Call α) → Except PortfolioError DriveSummary → Prop
  | spent {stints : List (Stint α)} (unanswered : ∀ stint ∈ stints, stint.status = .ok .unfinished)
    (length : stints.length = budget) :
    Ending count budget stints [] (.ok ⟨count + stints.length, none⟩)
  | idle {stints : List (Stint α)} (unanswered : ∀ stint ∈ stints, stint.status = .ok .unfinished)
    (length : stints.length < budget) :
    Ending count budget stints [.hasNext false] (.ok ⟨count + stints.length, none⟩)
  | refused {stints : List (Stint α)} (cause : PortfolioError)
    (unanswered : ∀ stint ∈ stints, stint.status = .ok .unfinished)
    (length : stints.length < budget) :
    Ending count budget stints [.hasNext true, .next (.error cause)] (.error cause)
  | failed {earlier : List (Stint α)} {last : Stint α} {cause : PortfolioError}
    (unanswered : ∀ stint ∈ earlier, stint.status = .ok .unfinished)
    (length : earlier.length < budget) (status : last.status = .error cause) :
    Ending count budget (earlier ++ [last]) [] (.error cause)
  | done {earlier : List (Stint α)} {last : Stint α}
    (unanswered : ∀ stint ∈ earlier, stint.status = .ok .unfinished)
    (length : earlier.length < budget) (status : last.status = .ok .done) :
    Ending count budget (earlier ++ [last]) []
      (.ok ⟨count + (earlier.length + 1), some last.left.id⟩)

/-- A stint without an answer in front of others is one run more. -/
theorem Ending.cons {count budget : Nat} {first : Stint α} {stints : List (Stint α)}
    {closing : List (Call α)} {result : Except PortfolioError DriveSummary}
    (h : Ending (count + 1) budget stints closing result)
    (status : first.status = .ok .unfinished) :
    Ending count (budget + 1) (first :: stints) closing result := by
  -- each ending keeps its kind; the run moves from the budget to the count
  cases h with
  | spent unanswered length =>
    rw [Nat.add_right_comm]
    exact .spent (List.forall_mem_cons.mpr ⟨status, unanswered⟩) (congrArg (· + 1) length)
  | idle unanswered length =>
    rw [Nat.add_right_comm]
    exact .idle (List.forall_mem_cons.mpr ⟨status, unanswered⟩) (Nat.succ_lt_succ length)
  | refused cause unanswered length =>
    exact .refused cause (List.forall_mem_cons.mpr ⟨status, unanswered⟩) (Nat.succ_lt_succ length)
  | failed unanswered length failure =>
    exact .failed (List.forall_mem_cons.mpr ⟨status, unanswered⟩) (Nat.succ_lt_succ length) failure
  | done unanswered length answer =>
    rw [Nat.add_right_comm]
    exact .done (List.forall_mem_cons.mpr ⟨status, unanswered⟩) (Nat.succ_lt_succ length) answer

/-- A course has one of the ways out. -/
theorem Drives.ending [Scheduler σ α] [Runner ρ α] {count budget : Nat} {scheduler : σ} {runner : ρ}
    {stints : List (Stint α)} {closing : List (Call α)}
    {result : Except PortfolioError DriveSummary × σ × ρ}
    (h : Drives count budget scheduler runner stints closing result) :
    Ending count budget stints closing result.1 := by
  induction h with
  | spent => exact .spent (by simp) rfl
  | idle => exact .idle (by simp) (Nat.succ_pos _)
  | refused => exact .refused _ (by simp) (Nat.succ_pos _)
  | failed => exact Ending.failed (List.forall_mem_nil _) (Nat.succ_pos _) rfl
  | done => exact Ending.done (List.forall_mem_nil _) (Nat.succ_pos _) rfl
  | unfinished _ _ _ _ ih => exact ih.cons rfl

/-! ## Accounts -/

/-- The calls of a scheduler, the runs of a runner and the slots after them agree with what came
of driving for at most `maxDispatches` runs. -/
structure Accounted (maxDispatches : Nat) (calls : List (Call α)) (runs : List (Run α))
    (after : Portfolio α) (result : Except PortfolioError DriveSummary) : Prop where
  /-- Every slot that was handed out was run once, in this order and with its timer started. -/
  run_each : List.Forall₂ (fun turn run => run.given = turn.slot.startTimer run.began)
    (calls.filterMap Call.turn?) runs
  /-- The timer of every slot that was handed out stands in the end. -/
  stopped : ∀ turn ∈ calls.filterMap Call.turn?, after.StoppedAt turn.position
  length_le : runs.length ≤ maxDispatches
  /-- No run follows one that failed or had the answer. -/
  unanswered : ∀ run ∈ runs.dropLast, run.status = .ok .unfinished
  dispatches : ∀ summary, result = .ok summary → summary.dispatches = runs.length
  /-- A slot is named exactly if the last run had the answer, and is the slot of that run. -/
  finishedBy : ∀ summary, result = .ok summary → ∀ id, summary.finishedBy = some id ↔
    ∃ last, runs.getLast? = some last ∧ last.status = .ok .done ∧ last.left.id = id
  /-- Runs are left over without an answer only if the scheduler had nothing left. -/
  idle : ∀ summary, result = .ok summary → summary.dispatches < maxDispatches →
    summary.finishedBy = none → calls.getLast? = some (.hasNext false)
  /-- There is one error if driving failed, which is the one that came of it, and none if it did
  not. -/
  causes : calls.filterMap Call.cause? ++ runs.filterMap Run.cause? = (error? result).toList
  /-- Nothing is called after an error. The scheduler gave it as its last answer, or the last
  run ended with it, and the last answer of the scheduler was to hand a slot out. -/
  halted : ∀ cause, result = .error cause → calls.getLast? = some (.next (.error cause)) ∨
    ∃ turn last, calls.getLast? = some (.next (.ok turn)) ∧ runs.getLast? = some last ∧
      last.status = .error cause

/-- The stints hand their slots out. -/
theorem turns_calls (stints : List (Stint α)) :
    (stints.flatMap Stint.calls).filterMap Call.turn? = stints.map Stint.turn := by
  induction stints with
  | nil => rfl
  | cons stint rest ih => exact congrArg (stint.turn :: ·) ih

/-- The calls of stints do not fail. -/
theorem causes_calls (stints : List (Stint α)) :
    (stints.flatMap Stint.calls).filterMap Call.cause? = [] := by
  induction stints with
  | nil => rfl
  | cons stint rest ih => exact ih

/-- Runs without an answer do not fail. -/
theorem causes_run {stints : List (Stint α)}
    (unanswered : ∀ stint ∈ stints, stint.status = .ok .unfinished) :
    (stints.map Stint.run).filterMap Run.cause? = [] := by
  rw [List.filterMap_eq_nil_iff]
  rintro run hrun
  obtain ⟨stint, hstint, rfl⟩ := List.mem_map.mp hrun
  simp [Run.cause?, Stint.run, unanswered stint hstint, error?]

namespace Ending

variable {count budget : Nat} {stints : List (Stint α)} {closing : List (Call α)}
  {result : Except PortfolioError DriveSummary}

/-- The last calls hand nothing out. -/
theorem filterMap_turn?_eq (h : Ending count budget stints closing result) :
    (stints.flatMap Stint.calls ++ closing).filterMap Call.turn? = stints.map Stint.turn := by
  have hclosing : closing.filterMap Call.turn? = [] := by cases h <;> rfl
  rw [List.filterMap_append, turns_calls, hclosing, List.append_nil]

theorem filterMap_cause?_eq (h : Ending count budget stints closing result) :
    (stints.flatMap Stint.calls ++ closing).filterMap Call.cause? ++
        (stints.map Stint.run).filterMap Run.cause? = (error? result).toList := by
  rw [List.filterMap_append, causes_calls, List.nil_append]
  cases h with
  | spent unanswered => exact causes_run unanswered
  | idle unanswered => exact causes_run unanswered
  | refused cause unanswered =>
    rw [causes_run unanswered]
    rfl
  | failed unanswered _ status =>
    rw [List.map_append, List.filterMap_append, causes_run unanswered]
    simp [Run.cause?, Stint.run, status, error?]
  | done unanswered _ status =>
    rw [List.map_append, List.filterMap_append, causes_run unanswered]
    simp [Run.cause?, Stint.run, status, error?]

/-- Runs without an answer up to the last one. -/
theorem unfinished_of_mem_dropLast (h : Ending count budget stints closing result) :
    ∀ run ∈ (stints.map Stint.run).dropLast, run.status = .ok .unfinished := by
  -- all runs but an ending one are without an answer
  have hruns {earlier : List (Stint α)}
      (unanswered : ∀ stint ∈ earlier, stint.status = .ok .unfinished) :
      ∀ run ∈ earlier.map Stint.run, run.status = .ok .unfinished :=
    List.forall_mem_map.mpr unanswered
  cases h with
  | spent unanswered => exact fun run hrun => hruns unanswered run (List.mem_of_mem_dropLast hrun)
  | idle unanswered => exact fun run hrun => hruns unanswered run (List.mem_of_mem_dropLast hrun)
  | refused _ unanswered =>
    exact fun run hrun => hruns unanswered run (List.mem_of_mem_dropLast hrun)
  | failed unanswered =>
    rw [List.map_append, List.map_singleton, List.dropLast_concat]
    exact hruns unanswered
  | done unanswered =>
    rw [List.map_append, List.map_singleton, List.dropLast_concat]
    exact hruns unanswered

theorem length_le (h : Ending count budget stints closing result) : stints.length ≤ budget := by
  cases h with
  | spent _ length => exact length.le
  | idle _ length => exact length.le
  | refused _ _ length => exact length.le
  | failed _ length => simpa using Nat.succ_le_of_lt length
  | done _ length => simpa using Nat.succ_le_of_lt length

theorem dispatches_eq (h : Ending count budget stints closing result) {summary : DriveSummary}
    (succeeded : result = .ok summary) : summary.dispatches = count + stints.length := by
  cases h with
  | spent =>
    cases succeeded
    rfl
  | idle =>
    cases succeeded
    rfl
  | refused => cases succeeded
  | failed => cases succeeded
  | done =>
    cases succeeded
    simp

theorem finishedBy_eq_some_iff (h : Ending count budget stints closing result)
    {summary : DriveSummary} (succeeded : result = .ok summary) (id : String) :
    summary.finishedBy = some id ↔
      ∃ last, stints.getLast? = some last ∧ last.status = .ok .done ∧ last.left.id = id := by
  -- no run says that it is done where the drive was not ended by one
  have hnone (unanswered : ∀ stint ∈ stints, stint.status = .ok .unfinished) :
      ¬ ∃ last, stints.getLast? = some last ∧ last.status = .ok .done ∧ last.left.id = id := by
    rintro ⟨last, hlast, hdone, -⟩
    have hunfinished := unanswered last (List.mem_of_getLast? hlast)
    rw [hdone] at hunfinished
    cases hunfinished
  cases h with
  | spent unanswered =>
    cases succeeded
    simpa using hnone unanswered
  | idle unanswered =>
    cases succeeded
    simpa using hnone unanswered
  | refused => cases succeeded
  | failed => cases succeeded
  | done _ _ status =>
    cases succeeded
    simp [status]

theorem idle_of_lt (h : Ending count budget stints closing result) {summary : DriveSummary}
    (succeeded : result = .ok summary) (left : stints.length < budget)
    (unnamed : summary.finishedBy = none) :
    (stints.flatMap Stint.calls ++ closing).getLast? = some (.hasNext false) := by
  cases h with
  | spent _ length => omega
  | idle => simp
  | refused => cases succeeded
  | failed => cases succeeded
  | done =>
    cases succeeded
    cases unnamed

theorem getLast?_of_error (h : Ending count budget stints closing result) {cause : PortfolioError}
    (failure : result = .error cause) :
    (stints.flatMap Stint.calls ++ closing).getLast? = some (.next (.error cause)) ∨
      ∃ turn last, (stints.flatMap Stint.calls ++ closing).getLast? = some (.next (.ok turn)) ∧
        (stints.map Stint.run).getLast? = some last ∧ last.status = .error cause := by
  -- either the scheduler had no turn, or the last run failed
  cases h with
  | spent => cases failure
  | idle => cases failure
  | done => cases failure
  | refused =>
    cases failure
    simp
  | @failed earlier last _ _ _ status =>
    cases failure
    refine .inr ⟨last.turn, last.run, ?_, ?_, status⟩
    · simp [Stint.calls]
    · simp

/-- With standing timers in the end, a way out from the start is an account. -/
theorem accounted (h : Ending 0 budget stints closing result) {after : Portfolio α}
    (stopped : ∀ stint ∈ stints, after.StoppedAt stint.turn.position) :
    Accounted budget (stints.flatMap Stint.calls ++ closing)
      (stints.map Stint.run) after result where
  run_each := by
    rw [h.filterMap_turn?_eq, List.forall₂_map_left_iff, List.forall₂_map_right_iff]
    exact List.forall₂_same.mpr fun _ _ => rfl
  stopped := by
    rw [h.filterMap_turn?_eq]
    exact List.forall_mem_map.mpr stopped
  length_le := by
    rw [List.length_map]
    exact h.length_le
  unanswered := h.unfinished_of_mem_dropLast
  dispatches summary succeeded := by
    rw [List.length_map, h.dispatches_eq succeeded, Nat.zero_add]
  finishedBy summary succeeded id := by
    rw [h.finishedBy_eq_some_iff succeeded, List.getLast?_map]
    constructor
    · -- the last run is the one of the last stint
      rintro ⟨last, hlast, hdone, hid⟩
      exact ⟨last.run, congrArg (Option.map Stint.run) hlast, hdone, hid⟩
    · rintro ⟨run, hrun, hdone, hid⟩
      obtain ⟨last, hlast, rfl⟩ := Option.map_eq_some_iff.mp hrun
      exact ⟨last, hlast, hdone, hid⟩
  idle summary succeeded left unnamed := by
    rw [h.dispatches_eq succeeded, Nat.zero_add] at left
    exact h.idle_of_lt succeeded left unnamed
  causes := h.filterMap_cause?_eq
  halted _ failure := h.getLast?_of_error failure

end Ending

/-! ## Driving with recorders -/

variable [Runner ρ α]

/-- Driving comes to the same with recorders. What they hold are the calls and the runs of a
course, in which one stint is over before the next one begins, and it accounts for the
result. -/
def Accounts [Scheduler σ α] (maxDispatches : Nat) (scheduler : σ) (runner : ρ) : Prop :=
  let recorded := drive maxDispatches (⟨scheduler, []⟩ : Scheduler.Recorded σ α)
    (⟨runner, []⟩ : Runner.Recorded ρ α)
  drive maxDispatches scheduler runner = (recorded.1, recorded.2.1.inner, recorded.2.2.inner) ∧
    (∃ stints closing, Drives 0 maxDispatches scheduler runner stints closing
        (drive maxDispatches scheduler runner) ∧
      recorded.2.1.calls = stints.flatMap Stint.calls ++ closing ∧
      recorded.2.2.runs = stints.map Stint.run) ∧
    Accounted maxDispatches recorded.2.1.calls recorded.2.2.runs (portfolio recorded.2.1.inner)
      recorded.1

/-- Driving a scheduler that leaves timers alone is accounted for. -/
theorem accounts_of_timekeeping [Scheduler σ α] (keeps : Scheduler.Timekeeping σ)
    (maxDispatches : Nat) (scheduler : σ) (runner : ρ) :
    Accounts maxDispatches scheduler runner := by
  obtain ⟨stints, closing, course, hrecorded⟩ := drive_recorded maxDispatches scheduler runner
  rw [Accounts, hrecorded]
  exact ⟨rfl, ⟨stints, closing, course, rfl, rfl⟩, course.ending.accounted (course.stopped keeps)⟩

/-- **Driving accounts for every run and leaves no timer running.** Take any schedule of a
controller or any schedule in turn, in any state, with any runner and any number of runs.
Driving it with recorders comes to the same as without. Then every slot that was handed out was
run exactly once, and its timer stands in the end, whichever way out was taken; a success counts
the runs and names the slot that had the answer, and an error is the first one, after which
nothing was called. -/
theorem drive_accounted [Controller κ α] [PathSampler σ] [Arith α] (maxDispatches : Nat)
    (runner : ρ) :
    (∀ schedule : Controlled κ α, Accounts maxDispatches schedule runner) ∧
      ∀ schedule : RoundRobin σ α, Accounts maxDispatches schedule runner :=
  ⟨fun schedule => accounts_of_timekeeping Controlled.timekeeping maxDispatches schedule runner,
    fun schedule => accounts_of_timekeeping RoundRobin.timekeeping maxDispatches schedule runner⟩

end Schedule

end AlgorithmPortfolio
