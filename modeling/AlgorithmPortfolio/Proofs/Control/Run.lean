import AlgorithmPortfolio.Proofs.Portfolio.Index
import AlgorithmPortfolio.Proofs.Slot.Operation
import AlgorithmPortfolio.Schedule.Controlled

/-!
# Runs of a schedule with a controller

A run is any sequence of the calls that change a schedule: decisions that are asked for, with or
without success, questions whether there is another one, new metrics, and changes of slots.

- `Controlled.Event`, `Controlled.run`: the calls and what they leave.
- `exists_of_start`: what a start needs and leaves.
- `Controlled.next_cases`: everything that the call for a turn can do. It fails without touching
  the slots, or hands out the one slot that the decision leads to.
- `controller_next`, `portfolio_next`, `size_run`: what that means for the controller and the
  portfolio.
- `indexed_step`: no call changes an identifier or the index.
- `current_run`: only turns change which slot was handed out last.
-/

namespace AlgorithmPortfolio

namespace Controlled

variable {σ α : Type}

/-- A call that changes a schedule. -/
inductive Event (α : Type)
  | next
  | hasNext
  | setMetrics (metrics : MetricSet)
  | operate (position : Nat) (operation : Slot.Operation α)

/-- Whether a call asks for a turn. -/
def Event.isNext : Event α → Bool
  | .next => true
  | _ => false

variable [Controller σ α] [Arith α]

/-- The schedule after a call. -/
def Event.step (schedule : Controlled σ α) : Event α → Controlled σ α
  | .next => schedule.next.2
  | .hasNext => schedule.hasNext.2
  | .setMetrics metrics => schedule.withMetrics metrics
  | .operate position operation =>
    Scheduler.update position (fun slot => operation.apply slot) schedule

/-- The schedule after calls. -/
def run (events : List (Event α)) (schedule : Controlled σ α) : Controlled σ α :=
  events.foldl Event.step schedule

/-! ## Start -/

section Start

omit [Arith α]

variable {portfolio : Portfolio α} {controller : σ} {config : Config} {schedule : Controlled σ α}

/-- A start needs valid settings and their menu, and leaves no slot handed out. -/
theorem exists_of_start (h : start portfolio controller config = .ok schedule) :
    ∃ menu, config.validate = .ok () ∧ config.menu = .ok menu ∧
      schedule = {
        portfolio
        controller := Controller.init portfolio.identifiers menu controller
        menu
        maxTimePerSlot := config.maxTimePerSlot
        current := none
        metrics := (MetricSet.fresh config.metricsPrefix).setLimits portfolio.limitsById } := by
  unfold start at h
  cases hvalid : config.validate with
  | error cause =>
    rw [hvalid] at h
    cases h
  | ok =>
    cases hmenu : config.menu with
    | error cause =>
      rw [hvalid, hmenu] at h
      cases h
    | ok menu =>
      rw [hvalid, hmenu] at h
      cases h
      exact ⟨menu, rfl, rfl, rfl⟩

theorem portfolio_start (h : start portfolio controller config = .ok schedule) :
    schedule.portfolio = portfolio := by
  obtain ⟨_, -, -, rfl⟩ := exists_of_start h
  rfl

theorem current_start (h : start portfolio controller config = .ok schedule) :
    schedule.current = none := by
  obtain ⟨_, -, -, rfl⟩ := exists_of_start h
  rfl

/-- The metrics that a schedule is started with are as good as attached ones. -/
theorem withMetrics_start (h : start portfolio controller config = .ok schedule) :
    schedule.withMetrics (.fresh config.metricsPrefix) = schedule := by
  obtain ⟨_, -, -, rfl⟩ := exists_of_start h
  rfl

end Start

/-! ## Turns -/

/-- The controller when it decides: it was told how the slot handed out last did. -/
def decision (schedule : Controlled σ α) : Option Decision × σ := Controller.next schedule.feedback

/-- A slot as it is handed out for a proposed limit. -/
def handed (schedule : Controlled σ α) (proposed : Nat) (slot : Slot α) : Slot α :=
  (slot.adapt (min proposed schedule.maxTimePerSlot : Nat)).dispatch

/-- What the call for a turn can do: fail for want of a decision or of the slot that it names,
or hand out that slot with its new limit. -/
theorem next_cases (schedule : Controlled σ α) :
    (schedule.decision.1 = none ∧
        schedule.next =
          (.error .controllerExhausted, { schedule with controller := schedule.decision.2 })) ∨
      (∃ decided, schedule.decision.1 = some decided ∧
        schedule.portfolio.find? decided.slot = none ∧
        schedule.next = (.error (.unknownSlot decided.slot),
          { schedule with
            controller := schedule.decision.2
            metrics := schedule.metrics.recordViolation })) ∨
      (∃ decided position slot, schedule.decision.1 = some decided ∧
        schedule.portfolio.find? decided.slot = some (position, slot) ∧
        schedule.next = (.ok ⟨position, schedule.handed decided.limit slot⟩,
          { schedule with
            controller := schedule.decision.2
            portfolio := schedule.portfolio.modify position (schedule.handed decided.limit)
            current := some position
            metrics := schedule.metrics.recordDispatch slot.id
              (schedule.handed decided.limit slot).limit })) := by
  rcases hdecision : schedule.decision with ⟨decided?, controller⟩
  have hnext : Controller.next schedule.feedback = (decided?, controller) := hdecision
  unfold next
  rw [hnext]
  cases decided? with
  | none => exact .inl ⟨rfl, rfl⟩
  | some decided =>
    cases hfind : schedule.portfolio.find? decided.slot with
    | none =>
      refine .inr (.inl ⟨decided, rfl, hfind, ?_⟩)
      simp only [hfind]
    | some found =>
      obtain ⟨position, slot⟩ := found
      refine .inr (.inr ⟨decided, position, slot, rfl, hfind, ?_⟩)
      simp only [hfind, dispatch]
      -- the slot that was found is the one at its position, so handing it out is a change there
      have hget := (Portfolio.get?_of_find? hfind).2
      rw [← Portfolio.modify_const hget (schedule.handed decided.limit)]
      rfl

/-- Whatever becomes of a decision, the controller has made it. -/
theorem controller_next (schedule : Controlled σ α) :
    schedule.next.2.controller = schedule.decision.2 := by
  rcases next_cases schedule with ⟨-, h⟩ | ⟨_, -, -, h⟩ | ⟨_, _, _, -, -, h⟩
  · rw [h]
  · rw [h]
  · rw [h]

/-- A turn has the position of a slot. -/
theorem position_lt_of_next {schedule : Controlled σ α} {turn : Turn α}
    (h : schedule.next.1 = .ok turn) : turn.position < schedule.portfolio.size := by
  rcases next_cases schedule with ⟨-, hnext⟩ | ⟨_, -, -, hnext⟩ | ⟨_, _, _, -, hfind, hnext⟩
  · rw [hnext] at h
    cases h
  · rw [hnext] at h
    cases h
  · rw [hnext] at h
    cases h
    exact (List.getElem?_eq_some_iff.mp (Portfolio.get?_of_find? hfind).2).1

/-- A turn changes no slot, or hands one out. -/
theorem portfolio_next (schedule : Controlled σ α) :
    schedule.next.2.portfolio = schedule.portfolio ∨
      ∃ position proposed,
        schedule.next.2.portfolio = schedule.portfolio.modify position
          (schedule.handed proposed) := by
  rcases next_cases schedule with ⟨-, h⟩ | ⟨_, -, -, h⟩ | ⟨decided, position, slot, -, -, h⟩
  · exact .inl (by rw [h])
  · exact .inl (by rw [h])
  · exact .inr ⟨position, decided.limit, by rw [h]⟩

/-- No call changes an identifier or the index. -/
theorem indexed_step {ids : List String} {schedule : Controlled σ α}
    (h : schedule.portfolio.Indexed ids) (event : Event α) :
    (event.step schedule).portfolio.Indexed ids := by
  cases event with
  | next =>
    show schedule.next.2.portfolio.Indexed ids
    rcases portfolio_next schedule with hkept | ⟨position, proposed, hhanded⟩
    · rw [hkept]
      exact h
    · have hid (slot : Slot α) : (schedule.handed proposed slot).id = slot.id := rfl
      rw [hhanded]
      exact h.modify hid position
  | hasNext => exact h
  | setMetrics metrics => exact h
  | operate position operation => exact h.modify (fun slot => Slot.id_apply slot operation) position

/-- No call adds or removes a slot. -/
theorem size_step (schedule : Controlled σ α) (event : Event α) :
    (event.step schedule).portfolio.size = schedule.portfolio.size := by
  cases event with
  | next =>
    rcases portfolio_next schedule with h | ⟨position, proposed, h⟩
    · exact congrArg Portfolio.size h
    · exact (congrArg Portfolio.size h).trans (Portfolio.size_modify _ _ _)
  | hasNext => rfl
  | setMetrics metrics => rfl
  | operate position operation => exact Portfolio.size_modify _ _ _

theorem size_run (events : List (Event α)) (schedule : Controlled σ α) :
    (run events schedule).portfolio.size = schedule.portfolio.size :=
  List.foldlRecOn
    (motive := fun reached : Controlled σ α => reached.portfolio.size = schedule.portfolio.size)
    events Event.step rfl fun reached hreached event _ => (size_step reached event).trans hreached

/-- Apart from turns no call changes which slot was handed out last. -/
theorem current_step (schedule : Controlled σ α) (event : Event α) (h : event.isNext = false) :
    (event.step schedule).current = schedule.current := by
  cases event with
  | next => cases h
  | _ => rfl

theorem current_run {events : List (Event α)} (schedule : Controlled σ α)
    (h : ∀ event ∈ events, event.isNext = false) :
    (run events schedule).current = schedule.current :=
  List.foldlRecOn (motive := fun reached : Controlled σ α => reached.current = schedule.current)
    events Event.step rfl fun reached hreached event hmem =>
      (current_step reached event (h event hmem)).trans hreached

end Controlled

end AlgorithmPortfolio
