import AlgorithmPortfolio.Proofs.Control.Run
import AlgorithmPortfolio.Proofs.Drive.Course
import AlgorithmPortfolio.Proofs.Schedule.Turns

/-!
# Timers of driven slots

Driving starts the timer of a slot before its run and stops it after the run, whatever became of
that. Nothing else starts a timer: schedulers leave them alone.

- `Portfolio.timers`, `Portfolio.StoppedAt`: the stopwatches in the order of the slots, and
  whether there is a standing one at a position.
- `Scheduler.Timekeeping`: what a scheduler has to leave alone. Schedules of a controller and
  schedules in turn do (`Controlled.timekeeping`, `RoundRobin.timekeeping`).
- `Drives.keeps_stopped`: a standing timer stands after a course.
- `Drives.stopped`: every slot that was handed out has a standing timer at the end.
-/

namespace AlgorithmPortfolio

variable {σ ρ α : Type}

/-! ## Standing timers -/

namespace Portfolio

/-- The stopwatches in the order of the slots. -/
def timers (portfolio : Portfolio α) : List Stopwatch := portfolio.slots.map Slot.stopwatch

/-- There is a slot at a position, and its timer is not running. -/
def StoppedAt (position : Nat) (portfolio : Portfolio α) : Prop :=
  ∃ slot, portfolio.get? position = some slot ∧ slot.stopwatch.isRunning = false

@[simp] theorem length_timers (portfolio : Portfolio α) :
    portfolio.timers.length = portfolio.size := by
  rw [timers, List.length_map, size]

/-- A change of one slot that leaves its timer alone. -/
theorem timers_modify {change : Slot α → Slot α}
    (h : ∀ slot, (change slot).stopwatch = slot.stopwatch) (changed : Nat)
    (portfolio : Portfolio α) : (portfolio.modify changed change).timers = portfolio.timers :=
  map_modify_of_frame h changed portfolio

theorem stoppedAt_iff {position : Nat} {portfolio : Portfolio α} :
    portfolio.StoppedAt position ↔
      ∃ watch, portfolio.timers[position]? = some watch ∧ watch.isRunning = false := by
  rw [timers, List.getElem?_map]
  constructor
  · rintro ⟨slot, hslot, hstopped⟩
    exact ⟨slot.stopwatch, congrArg (Option.map Slot.stopwatch) hslot, hstopped⟩
  · rintro ⟨watch, hwatch, hstopped⟩
    obtain ⟨slot, hslot, rfl⟩ := Option.map_eq_some_iff.mp hwatch
    exact ⟨slot, hslot, hstopped⟩

/-- What leaves the timers alone leaves standing ones standing. -/
theorem StoppedAt.congr {position : Nat} {portfolio other : Portfolio α}
    (h : portfolio.StoppedAt position) (htimers : other.timers = portfolio.timers) :
    other.StoppedAt position := by
  rw [stoppedAt_iff] at h ⊢
  rwa [htimers]

/-- A slot that is put in a place with its timer stopped leaves standing timers standing. -/
theorem StoppedAt.put {position : Nat} {portfolio : Portfolio α} (h : portfolio.StoppedAt position)
    (changed now : Nat) (left : Slot α) :
    (portfolio.modify changed fun _ => left.stopTimer now).StoppedAt position := by
  obtain ⟨slot, hslot, hstopped⟩ := h
  rw [StoppedAt, get?_modify, hslot]
  by_cases hat : changed = position
  · exact ⟨left.stopTimer now, by simp [hat], left.stopwatch.isRunning_stop now⟩
  · exact ⟨slot, by simp [hat], hstopped⟩

/-- A slot that is put in its place with its timer stopped is stopped. -/
theorem stoppedAt_put {position : Nat} {portfolio : Portfolio α} (h : position < portfolio.size)
    (now : Nat) (left : Slot α) :
    (portfolio.modify position fun _ => left.stopTimer now).StoppedAt position := by
  have hslot : portfolio.get? position = some portfolio.slots[position] :=
    List.getElem?_eq_getElem h
  rw [StoppedAt, get?_modify, hslot]
  exact ⟨left.stopTimer now, by simp, left.stopwatch.isRunning_stop now⟩

end Portfolio

/-! ## Schedulers and timers -/

/-- A scheduler that leaves timers alone, and hands out only what it has. -/
structure Scheduler.Timekeeping (σ : Type) {α : Type} [Scheduler σ α] : Prop where
  portfolio_setPortfolio (slots : Portfolio α) (scheduler : σ) :
    portfolio (setPortfolio slots scheduler) = slots
  timers_hasNext (scheduler : σ) :
    (portfolio (hasNext scheduler).2).timers = (portfolio scheduler).timers
  timers_next (engines : Engines α) (scheduler : σ) :
    (portfolio (next engines scheduler).2).timers = (portfolio scheduler).timers
  position_lt {engines : Engines α} {scheduler : σ} {turn : Turn α}
    (h : (next engines scheduler).1 = .ok turn) : turn.position < (portfolio scheduler).size

theorem Controlled.timekeeping [Controller σ α] [Arith α] :
    Scheduler.Timekeeping (Controlled σ α) where
  portfolio_setPortfolio _ _ := rfl
  timers_hasNext _ := rfl
  timers_next _ schedule := by
    show schedule.next.2.portfolio.timers = schedule.portfolio.timers
    rcases schedule.portfolio_next with h | ⟨position, proposed, h⟩
    · rw [h]
    · have hhanded (slot : Slot α) : (schedule.handed proposed slot).stopwatch =
          slot.stopwatch := rfl
      rw [h, Portfolio.timers_modify hhanded]
  position_lt h := position_lt_of_next h

namespace RoundRobin

variable [PathSampler σ] [Arith α]

/-- Neither a pass nor the reset after it touches a timer. -/
theorem timers_atTurn (engines : Engines α) (schedule : RoundRobin σ α) :
    (schedule.atTurn engines).portfolio.timers = schedule.portfolio.timers := by
  unfold atTurn
  split
  · -- neither the pass nor the reset of the round touches a stopwatch
    have hpass : (schedule.counted.rebalance engines).2.portfolio.timers =
        schedule.portfolio.timers :=
      Rebalance.map_slots_pass (fun _ _ _ => rfl) engines schedule.knobs (schedule.round + 1)
        schedule.models schedule.portfolio.slots schedule.draws
    rw [← hpass]
    show ((schedule.counted.rebalance engines).2.portfolio.slots.map Slot.reset).map
      Slot.stopwatch = _
    rw [List.map_map]
    rfl
  · rfl

theorem timekeeping : Scheduler.Timekeeping (RoundRobin σ α) where
  portfolio_setPortfolio _ _ := rfl
  timers_hasNext _ := rfl
  timers_next engines schedule := by
    have hdispatch (slot : Slot α) : slot.dispatch.stopwatch = slot.stopwatch := rfl
    show (schedule.next engines).2.portfolio.timers = schedule.portfolio.timers
    rw [portfolio_next, Portfolio.timers_modify hdispatch, timers_atTurn]
  position_lt {engines schedule turn} h := by
    replace h : (schedule.next engines).1 = .ok turn := h
    cases hslot : (schedule.atTurn engines).portfolio.get? (schedule.atTurn engines).cursor with
    | none =>
      rw [next_of_none hslot] at h
      cases h
    | some slot =>
      rw [next_of_slot hslot] at h
      cases h
      show (schedule.atTurn engines).cursor < schedule.portfolio.size
      rw [← Portfolio.length_timers, ← timers_atTurn engines, Portfolio.length_timers]
      exact (List.getElem?_eq_some_iff.mp hslot).1

end RoundRobin

/-! ## Timers along a course -/

namespace Schedule

variable [Scheduler σ α] [Runner ρ α]

open Portfolio (StoppedAt)
open Scheduler (Call Timekeeping hasNext next portfolio)

section Step

variable {scheduler asked handed : σ} {runner : ρ} {turn : Turn α} {position : Nat}

/-- A question leaves standing timers standing. -/
theorem stopped_of_question (keeps : Timekeeping σ) {answered : Bool}
    (question : hasNext scheduler = (answered, asked))
    (h : (portfolio scheduler).StoppedAt position) : (portfolio asked).StoppedAt position := by
  have htimers := keeps.timers_hasNext scheduler
  rw [question] at htimers
  exact h.congr htimers

/-- So does the call for a slot, with or without success. -/
theorem stopped_of_answer (keeps : Timekeeping σ) {engines : Engines α}
    {answered : Except PortfolioError (Turn α)} (answer : next engines asked = (answered, handed))
    (h : (portfolio asked).StoppedAt position) : (portfolio handed).StoppedAt position := by
  have htimers := keeps.timers_next engines asked
  rw [answer] at htimers
  exact h.congr htimers

theorem portfolio_writeBack (keeps : Timekeeping σ) (changed : Nat) (left : Slot α) (runner : ρ)
    (scheduler : σ) :
    portfolio (writeBack changed left runner scheduler) =
      (portfolio scheduler).modify changed fun _ => left.stopTimer (Runner.now runner) :=
  keeps.portfolio_setPortfolio _ scheduler

/-- So does a whole stint. -/
theorem stopped_of_stint (keeps : Timekeeping σ) {engines : Engines α}
    (question : hasNext scheduler = (true, asked))
    (answer : next engines asked = (.ok turn, handed)) (left : Slot α) (later : ρ)
    (h : (portfolio scheduler).StoppedAt position) :
    (portfolio (writeBack turn.position left later handed)).StoppedAt position := by
  rw [portfolio_writeBack keeps]
  exact (stopped_of_answer keeps answer (stopped_of_question keeps question h)).put ..

/-- Whatever a run did to the timer of its slot, it stands afterwards. -/
theorem stopped_after_stint (keeps : Timekeeping σ) {engines : Engines α}
    (answer : next engines asked = (.ok turn, handed)) (left : Slot α) (later : ρ) :
    (portfolio (writeBack turn.position left later handed)).StoppedAt turn.position := by
  have hlt : turn.position < (portfolio asked).size := keeps.position_lt (congrArg Prod.fst answer)
  have htimers := keeps.timers_next engines asked
  rw [answer] at htimers
  rw [portfolio_writeBack keeps]
  refine Portfolio.stoppedAt_put ?_ _ left
  rw [← Portfolio.length_timers, htimers, Portfolio.length_timers]
  exact hlt

end Step

variable {count budget : Nat} {scheduler : σ} {runner : ρ} {stints : List (Stint α)}
  {closing : List (Call α)} {result : Except PortfolioError DriveSummary × σ × ρ}

/-- A timer that stands before a course stands after it. -/
theorem Drives.keeps_stopped (keeps : Timekeeping σ)
    (h : Drives count budget scheduler runner stints closing result) {position : Nat}
    (stopped : (portfolio scheduler).StoppedAt position) :
    (portfolio result.2.1).StoppedAt position := by
  induction h with
  | spent => exact stopped
  | idle question => exact stopped_of_question keeps question stopped
  | refused question answer =>
    exact stopped_of_answer keeps answer (stopped_of_question keeps question stopped)
  | failed question answer => exact stopped_of_stint keeps question answer _ _ stopped
  | done question answer => exact stopped_of_stint keeps question answer _ _ stopped
  | unfinished question answer _ _ ih =>
    exact ih (stopped_of_stint keeps question answer _ _ stopped)

/-- After a course the timer of every slot that was handed out stands. -/
theorem Drives.stopped (keeps : Timekeeping σ)
    (h : Drives count budget scheduler runner stints closing result) :
    ∀ stint ∈ stints, (portfolio result.2.1).StoppedAt stint.turn.position := by
  induction h with
  | spent => simp
  | idle => simp
  | refused => simp
  | failed _ answer => exact List.forall_mem_singleton.mpr (stopped_after_stint keeps answer _ _)
  | done _ answer => exact List.forall_mem_singleton.mpr (stopped_after_stint keeps answer _ _)
  | unfinished _ answer _ rest ih =>
    -- the timer of the first slot stands after its run, and from there on
    have first := rest.keeps_stopped keeps (stopped_after_stint keeps answer _ _)
    exact List.forall_mem_cons.mpr ⟨first, ih⟩

end Schedule

end AlgorithmPortfolio
