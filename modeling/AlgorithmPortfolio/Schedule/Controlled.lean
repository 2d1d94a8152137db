import AlgorithmPortfolio.Controller.Basic
import AlgorithmPortfolio.Metrics.Basic
import AlgorithmPortfolio.Schedule.Scheduler
import AlgorithmPortfolio.Settings.Config

/-!
# Schedules of a controller

A controller decides on every slot. Before each decision it is told how the slot before did.

- `Controlled σ α`: the state of a schedule with controller states `σ`.
- `Controlled.start`: a schedule before its first decision.
- `Controlled.feedback`: the controller after it was told of the slot handed out last.
- `Controlled.next`: the next slot. A decision that names no slot and a controller without
  another decision are errors, which leave the slots alone.
-/

namespace AlgorithmPortfolio

variable {σ α : Type} [Controller σ α] [Arith α]

/-- A schedule whose slots and limits a controller decides on. -/
structure Controlled (σ α : Type) where
  portfolio : Portfolio α
  controller : σ
  menu : TimeMenu
  /-- The greatest limit that a decision may give. -/
  maxTimePerSlot : Nat
  /-- The position of the slot handed out last. -/
  current : Option Nat
  metrics : MetricSet

namespace Controlled

/-- A schedule before its first decision. -/
def start (portfolio : Portfolio α) (controller : σ) (config : Config) :
    Except PortfolioError (Controlled σ α) := do
  config.validate
  let menu ← config.menu
  return {
    portfolio
    controller := Controller.init portfolio.identifiers menu controller
    menu
    maxTimePerSlot := config.maxTimePerSlot
    current := none
    metrics := (MetricSet.fresh config.metricsPrefix).setLimits portfolio.limitsById }

/-- The schedule with other metrics, which show the limits of its slots. -/
def withMetrics (metrics : MetricSet) (schedule : Controlled σ α) : Controlled σ α :=
  { schedule with metrics := metrics.setLimits schedule.portfolio.limitsById }

/-- The controller after it was told how the slot handed out last did, if there was one. -/
def feedback (schedule : Controlled σ α) : σ :=
  match schedule.current.bind schedule.portfolio.get? with
  | none => schedule.controller
  | some slot =>
    Controller.reportCoverage slot.progressed
      (Controller.reportProgress slot.shownProgress slot.limit schedule.controller)

/-- Hand out the slot at a position with a proposed limit. -/
def dispatch (position proposed : Nat) (slot : Slot α) (schedule : Controlled σ α) :
    Turn α × Controlled σ α :=
  let slot := (slot.adapt (min proposed schedule.maxTimePerSlot : Nat)).dispatch
  (⟨position, slot⟩, { schedule with
    portfolio := schedule.portfolio.modify position fun _ => slot
    current := some position
    metrics := schedule.metrics.recordDispatch slot.id slot.limit })

/-- Hand out the slot that the controller decides on. -/
def next (schedule : Controlled σ α) : Except PortfolioError (Turn α) × Controlled σ α :=
  -- feedback goes out before the decision, whatever becomes of that
  let (decision, controller) := Controller.next schedule.feedback
  let schedule := { schedule with controller }
  match decision with
  | none => (.error .controllerExhausted, schedule)
  | some decision =>
    match schedule.portfolio.find? decision.slot with
    | none =>
      (.error (.unknownSlot decision.slot),
        { schedule with metrics := schedule.metrics.recordViolation })
    | some (position, slot) =>
      let (turn, schedule) := schedule.dispatch position decision.limit slot
      (.ok turn, schedule)

/-- Whether the controller has another decision. -/
def hasNext (schedule : Controlled σ α) : Bool × Controlled σ α :=
  let (answer, controller) := Controller.hasNext schedule.controller
  (answer, { schedule with controller })

instance : Scheduler (Controlled σ α) α where
  portfolio := portfolio
  setPortfolio portfolio schedule := { schedule with portfolio }
  current := current
  hasNext := hasNext
  next _ := next
  report now schedule := Schedule.Report.ofPortfolio "controlled" now schedule.portfolio

end Controlled

end AlgorithmPortfolio
