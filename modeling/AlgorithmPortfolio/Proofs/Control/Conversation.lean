import AlgorithmPortfolio.Controller.Replay
import AlgorithmPortfolio.Proofs.Control.Run

/-!
# The conversation with a controller

What a controller is told and asked, call by call. A recorder stands between a schedule and its
controller: it passes every call on and writes it down, so that the schedule does what it does
without.

- `Controller.Call`, `Controller.Recorded`: the calls and the recorder.
- `Controlled.unrecorded`: the schedule without its recorder. A recorded run is the run of that
  (`unrecorded_run`).
- `Controlled.exchanges`: the calls for a turn in a run, each with its answer and the slot that
  was handed out last before. That is kept apart from the schedule's own note of it, which
  agrees (`current_next`).
- `calls_next`, `calls_run`: what one call for a turn writes down, and what a run does.
- `conversation_of_run`: one introduction, and then a report on the slot handed out last before
  every question for a decision.
-/

namespace AlgorithmPortfolio

variable {σ α : Type}

/-! ## Recorded controllers -/

namespace Controller

/-- A call that a controller gets. -/
inductive Call (α : Type)
  | init (identifiers : List String) (menu : TimeMenu)
  | hasNext
  | next
  | reportProgress (progress : α) (limit : Nat)
  | reportCoverage (targets : List Nat)

/-- Whether a call is the question for another decision. -/
def Call.isHasNext : Call α → Bool
  | .hasNext => true
  | _ => false

/-- A controller and the calls that it got. -/
structure Recorded (σ α : Type) where
  controller : σ
  calls : List (Call α)

/-- A controller that has not been called. -/
def Recorded.fresh (controller : σ) : Recorded σ α := ⟨controller, []⟩

/-- Every call is passed on and written down. -/
instance [Controller σ α] : Controller (Recorded σ α) α where
  init ids menu recorded :=
    ⟨init ids menu recorded.controller, recorded.calls ++ [.init ids menu]⟩
  hasNext recorded :=
    let (answer, controller) := hasNext recorded.controller
    (answer, ⟨controller, recorded.calls ++ [.hasNext]⟩)
  next recorded :=
    let (decision, controller) := next recorded.controller
    (decision, ⟨controller, recorded.calls ++ [.next]⟩)
  reportProgress progress limit recorded :=
    ⟨reportProgress progress limit recorded.controller,
      recorded.calls ++ [.reportProgress progress limit]⟩
  reportCoverage targets recorded :=
    ⟨reportCoverage targets recorded.controller, recorded.calls ++ [.reportCoverage targets]⟩

end Controller

namespace Controlled

open Controller (Call Recorded)

variable [Controller σ α]

/-- The schedule without its recorder. -/
def unrecorded (schedule : Controlled (Recorded σ α) α) : Controlled σ α :=
  { schedule with controller := schedule.controller.controller }

/-- The calls that were written down, apart from the questions for another decision. -/
def calls (schedule : Controlled (Recorded σ α) α) : List (Call α) :=
  schedule.controller.calls.filter fun call => !call.isHasNext

variable [Arith α]

theorem feedback_unrecorded (schedule : Controlled (Recorded σ α) α) :
    schedule.unrecorded.feedback = schedule.feedback.controller := by
  have hlast : schedule.unrecorded.current.bind schedule.unrecorded.portfolio.get? =
      schedule.current.bind schedule.portfolio.get? := rfl
  unfold feedback
  rw [hlast]
  cases schedule.current.bind schedule.portfolio.get? with
  | none => rfl
  | some slot => rfl

theorem decision_unrecorded (schedule : Controlled (Recorded σ α) α) :
    schedule.unrecorded.decision = (schedule.decision.1, schedule.decision.2.controller) := by
  rw [decision, feedback_unrecorded]
  rfl

theorem next_unrecorded (schedule : Controlled (Recorded σ α) α) :
    schedule.unrecorded.next = (schedule.next.1, schedule.next.2.unrecorded) := by
  -- no decision reads what is recorded
  have hdecision : Controller.next schedule.unrecorded.feedback =
      ((Controller.next schedule.feedback).1, (Controller.next schedule.feedback).2.controller) :=
    decision_unrecorded schedule
  unfold next
  rw [hdecision]
  rcases Controller.next schedule.feedback with ⟨decided?, recorded⟩
  cases decided? with
  | none => rfl
  | some decided =>
    simp only [unrecorded]
    cases schedule.portfolio.find? decided.slot with
    | none => rfl
    | some found => rfl

/-- The recorder changes nothing of what a call does. -/
theorem step_unrecorded (schedule : Controlled (Recorded σ α) α) (event : Event α) :
    event.step schedule.unrecorded = (event.step schedule).unrecorded := by
  cases event with
  | next => exact congrArg Prod.snd (next_unrecorded schedule)
  | hasNext => rfl
  | setMetrics metrics => rfl
  | operate position operation => rfl

theorem unrecorded_run (events : List (Event α)) (schedule : Controlled (Recorded σ α) α) :
    (run events schedule).unrecorded = run events schedule.unrecorded :=
  (List.foldl_hom unrecorded fun reached event => step_unrecorded reached event).symm

omit [Arith α] in
/-- A schedule can be started with a recorder, which then has one call written down. -/
theorem start_recorded {portfolio : Portfolio α} {controller : σ} {config : Config}
    {schedule : Controlled σ α} (h : start portfolio controller config = .ok schedule) :
    ∃ menu recorded, config.menu = .ok menu ∧
      start portfolio (Recorded.fresh controller) config = .ok recorded ∧
      recorded.unrecorded = schedule ∧ recorded.calls = [.init portfolio.identifiers menu] := by
  obtain ⟨menu, hvalid, hmenu, rfl⟩ := exists_of_start h
  unfold start
  rw [hvalid, hmenu]
  exact ⟨menu, _, rfl, rfl, rfl, rfl⟩

/-! ## Exchanges -/

/-- A call for a turn. -/
structure Exchange (α : Type) where
  /-- The position of the slot that was handed out last before the call, if there is one. -/
  last : Option Nat
  /-- That slot at the time of the call. -/
  told : Option (Slot α)
  answer : Except PortfolioError (Turn α)

/-- The position of the slot that a call for a turn handed out. -/
def Exchange.position? (exchange : Exchange α) : Option Nat :=
  exchange.answer.toOption.map Turn.position

/-- What a controller is told of a slot. -/
def report (slot : Slot α) : List (Call α) :=
  [.reportProgress slot.shownProgress slot.limit, .reportCoverage slot.progressed]

/-- The calls that a controller should get for a call for a turn. -/
def Exchange.calls (exchange : Exchange α) : List (Call α) :=
  (exchange.told.map report).getD [] ++ [.next]

/-- The position of the slot handed out last after an answer. -/
def lastAfter (last : Option Nat) (answer : Except PortfolioError (Turn α)) : Option Nat :=
  match answer with
  | .ok turn => some turn.position
  | .error _ => last

/-- The calls for a turn in a run. The position of the slot handed out last is that of the last
answer with a turn. -/
def exchanges (last : Option Nat) (schedule : Controlled σ α) : List (Event α) → List (Exchange α)
  | [] => []
  | .next :: rest =>
    ⟨last, last.bind schedule.portfolio.get?, schedule.next.1⟩ ::
      exchanges (lastAfter last schedule.next.1) schedule.next.2 rest
  | event :: rest => exchanges last (event.step schedule) rest

/-! ## What is written down -/

/-- The schedule's own note of the slot handed out last follows the answers. -/
theorem current_next (schedule : Controlled σ α) :
    schedule.next.2.current = lastAfter schedule.current schedule.next.1 := by
  rcases next_cases schedule with ⟨-, h⟩ | ⟨_, -, -, h⟩ | ⟨_, _, _, -, -, h⟩
  · rw [h]
    rfl
  · rw [h]
    rfl
  · rw [h]
    rfl

/-- Apart from turns no call is written down but the question for another decision. -/
theorem calls_step (schedule : Controlled (Recorded σ α) α) (event : Event α)
    (h : event.isNext = false) : (event.step schedule).calls = schedule.calls := by
  cases event with
  | next => cases h
  | hasNext =>
    show List.filter _ (schedule.controller.calls ++ [.hasNext]) = schedule.calls
    rw [List.filter_append]
    exact List.append_nil _
  | setMetrics metrics => rfl
  | operate position operation => rfl

/-- A call for a turn writes down the report on the slot handed out last, if there is one, and
the question for a decision. -/
theorem calls_next (schedule : Controlled (Recorded σ α) α) :
    schedule.next.2.calls = schedule.calls ++
      (((schedule.current.bind schedule.portfolio.get?).map report).getD [] ++ [.next]) := by
  -- the report, if there is one, comes before the question
  have hfeedback : schedule.feedback.calls = schedule.controller.calls ++
      ((schedule.current.bind schedule.portfolio.get?).map report).getD [] := by
    unfold feedback
    cases schedule.current.bind schedule.portfolio.get? with
    | none => exact (List.append_nil _).symm
    | some slot => exact List.append_assoc _ _ _
  have hdecision : schedule.decision.2.calls = schedule.feedback.calls ++ [.next] := rfl
  rw [calls, calls, controller_next, hdecision, hfeedback, List.append_assoc, List.filter_append]
  -- none of the new calls is dropped
  congr 1
  cases schedule.current.bind schedule.portfolio.get? with
  | none => rfl
  | some slot => rfl

/-- A run writes down what belongs to its calls for a turn. -/
theorem calls_run (events : List (Event α)) (schedule : Controlled (Recorded σ α) α) :
    (run events schedule).calls = schedule.calls ++
      (exchanges schedule.current schedule.unrecorded events).flatMap Exchange.calls := by
  -- an exchange is added by each call of `next`; no other event reaches the controller
  induction events generalizing schedule with
  | nil => exact (List.append_nil _).symm
  | cons event rest ih =>
    show (run rest (event.step schedule)).calls = _
    rw [ih, ← step_unrecorded]
    cases event with
    | next =>
      have hcurrent : (Event.next.step schedule).current =
          lastAfter schedule.current schedule.unrecorded.next.1 := by
        rw [next_unrecorded]
        exact current_next schedule
      have hcalls : (Event.next.step schedule).calls = _ := calls_next schedule
      rw [hcurrent, hcalls, exchanges, List.flatMap_cons, List.append_assoc]
      rfl
    | _ => rw [calls_step _ _ rfl, current_step _ _ rfl]; rfl

/-- The slot handed out last is a slot of the portfolio. -/
def HasLast (last : Option Nat) (schedule : Controlled σ α) : Prop :=
  ∀ position, last = some position → position < schedule.portfolio.size

theorem hasLast_next {last : Option Nat} {schedule : Controlled σ α} (h : HasLast last schedule) :
    HasLast (lastAfter last schedule.next.1) schedule.next.2 := by
  intro position hposition
  have hsize : schedule.next.2.portfolio.size = schedule.portfolio.size := size_step schedule .next
  rw [hsize]
  -- a call that fails keeps the last slot, and a turn is at a position that exists
  cases hanswer : schedule.next.1 with
  | error cause =>
    rw [hanswer] at hposition
    exact h position hposition
  | ok turn =>
    rw [hanswer] at hposition
    cases hposition
    exact position_lt_of_next hanswer

/-- The controller is told of a slot whenever one was handed out before. -/
theorem isSome_told {last : Option Nat} {schedule : Controlled σ α} (h : HasLast last schedule)
    (events : List (Event α)) :
    ∀ exchange ∈ exchanges last schedule events, exchange.told.isSome = exchange.last.isSome := by
  induction events generalizing last schedule with
  | nil => exact fun _ hmem => nomatch hmem
  | cons event rest ih =>
    -- no event shrinks the portfolio, so the last slot stays in it
    have hstep : HasLast last (event.step schedule) := by
      intro position hposition
      rw [size_step]
      exact h position hposition
    cases event with
    | next =>
      intro exchange hmem
      rcases List.mem_cons.mp hmem with rfl | hrest
      · -- what is told is read at the last slot, which is still there
        cases last with
        | none => rfl
        | some position =>
          show (schedule.portfolio.slots[position]?).isSome = true
          rw [List.getElem?_eq_getElem (h position rfl)]
          rfl
      · exact ih (hasLast_next h) exchange hrest
    | _ => exact ih hstep

/-- While all calls for a turn succeed, each is about the slot that the one before handed
out. -/
theorem filterMap_last (last : Option Nat) (schedule : Controlled σ α) (events : List (Event α))
    (h : ∀ exchange ∈ exchanges last schedule events, exchange.answer.isOk) :
    (exchanges last schedule events).filterMap Exchange.last =
      (last.toList ++ (exchanges last schedule events).filterMap Exchange.position?).dropLast := by
  -- each answer is the last slot of the exchange after it, whatever the first one starts from
  induction events generalizing last schedule with
  | nil =>
    cases last with
    | none => rfl
    | some position => rfl
  | cons event rest ih =>
    cases event with
    | next =>
      rw [exchanges] at h ⊢
      obtain ⟨hanswer, hothers⟩ := List.forall_mem_cons.mp h
      have hrest := ih _ _ hothers
      cases hturn : schedule.next.1 with
      | error cause =>
        rw [hturn] at hanswer
        cases hanswer
      | ok turn =>
        rw [hturn] at hrest
        -- the slot of this turn stands before those of the rest, on either side
        have hlast : ∀ told (others : List (Exchange α)),
            (⟨last, told, .ok turn⟩ :: others).filterMap Exchange.last =
              last.toList ++ others.filterMap Exchange.last := by
          intro told others
          cases last with
          | none => rfl
          | some position => rfl
        rw [hlast, hrest]
        exact (List.dropLast_append_of_ne_nil (List.cons_ne_nil turn.position _)).symm
    | _ => exact ih _ _ h

/-- What a controller got in a run with the given calls for a turn. -/
structure Conversed (identifiers : List String) (menu : TimeMenu) (calls : List (Call α))
    (exchanges : List (Exchange α)) : Prop where
  /-- It was introduced once and first. Then, call for call, it was told of the slot that was
  handed out last, if there was one, and asked for one decision. -/
  calls_eq : calls = .init identifiers menu :: exchanges.flatMap Exchange.calls
  /-- It was told of a slot whenever one was handed out before. -/
  told : ∀ exchange ∈ exchanges, exchange.told.isSome = exchange.last.isSome
  /-- If all calls handed out slots, it was told of each of them in their order but not of the
  last. -/
  untold : (∀ exchange ∈ exchanges, exchange.answer.isOk) →
    exchanges.filterMap Exchange.last = (exchanges.filterMap Exchange.position?).dropLast

/-- **The conversation with a controller.** A schedule can be started with a recorder around its
controller, and does the same with it. Apart from the questions whether there is another
decision, the recorder has an introduction with each identifier once and the menu, and then for
each call for a turn, whether or not it succeeds, the report on the slot handed out last, as it
is at the time of the call, and the question for one decision. -/
theorem conversation_of_run {slots : List (Slot α)} {portfolio : Portfolio α} {controller : σ}
    {config : Config} {schedule : Controlled σ α} (made : Portfolio.ofSlots slots = .ok portfolio)
    (started : start portfolio controller config = .ok schedule) (events : List (Event α)) :
    ∃ menu recorded, config.menu = .ok menu ∧
      start portfolio (Recorded.fresh controller) config = .ok recorded ∧
      (run events recorded).unrecorded = run events schedule ∧
      Conversed (slots.map Slot.id).eraseDups menu (run events recorded).calls
        (exchanges none schedule events) := by
  -- the schedule that records the calls starts and runs as the one that does not
  obtain ⟨menu, recorded, hmenu, hrecorded, rfl, hcalls⟩ := start_recorded started
  refine ⟨menu, recorded, hmenu, hrecorded, unrecorded_run events recorded, ?_, ?_, ?_⟩
  · rw [calls_run, hcalls, current_start hrecorded, (Portfolio.of_ofSlots made).2.2]
    rfl
  · have hnone : HasLast none recorded.unrecorded := by
      intro position h
      cases h
    exact isSome_told hnone events
  · exact filterMap_last none _ events

/-- Three calls for a turn of two slots, with a failure in between: both reports are about the
first slot. -/
theorem conversation_of_run_failing :
    let slots : List (Slot Float) := [.ofSpec ⟨"a", none⟩, .ofSpec ⟨"b", none⟩]
    let controller : Replay Float := .ofDecisions [⟨"a", 20⟩, ⟨"c", 20⟩, ⟨"b", 20⟩]
    let events := [.next, .operate 0 (.record [1]), .next, .hasNext, .next]
    ∃ portfolio schedule menu recorded, Portfolio.ofSlots slots = .ok portfolio ∧
      start portfolio controller Config.default = .ok schedule ∧
      start portfolio (Recorded.fresh controller) Config.default = .ok recorded ∧
      (run events recorded).unrecorded = run events schedule ∧
      Conversed ["a", "b"] menu (run events recorded).calls (exchanges none schedule events) ∧
      (exchanges none schedule events).map Exchange.last = [none, some 0, some 0] := by
  intro slots controller events
  obtain ⟨portfolio, hportfolio⟩ : ∃ portfolio, Portfolio.ofSlots slots = .ok portfolio := ⟨_, rfl⟩
  obtain ⟨schedule, hstart, hlast⟩ : ∃ schedule,
      start portfolio controller Config.default = .ok schedule ∧
        (exchanges none schedule events).map Exchange.last = [none, some 0, some 0] := by
    cases hportfolio
    exact ⟨_, rfl, rfl⟩
  obtain ⟨menu, recorded, -, hrecorded, hrun, hconversed⟩ :=
    conversation_of_run hportfolio hstart events
  exact ⟨portfolio, schedule, menu, recorded, hportfolio, hstart, hrecorded, hrun, hconversed,
    hlast⟩

end Controlled

end AlgorithmPortfolio
