import AlgorithmPortfolio.Portfolio
import AlgorithmPortfolio.Schedule.Report

/-!
# Schedulers

A scheduler hands out the slots of a portfolio one at a time. Whoever runs a slot writes the
measurements back into it before the next one is asked for.

- `Turn`: a slot that was handed out.
- `Scheduler σ α`: what a type `σ` of scheduler states has to offer; `α` is the type of
  progress.
- `Scheduler.update`: the change of one slot.
- `Report.ofPortfolio`: the totals of a portfolio.
-/

namespace AlgorithmPortfolio

/-- A slot that was handed out, and its position. -/
structure Turn (α : Type) where
  position : Nat
  slot : Slot α

/-- A scheduler with states `σ` over slots with progress of type `α`. -/
class Scheduler (σ : Type) (α : outParam Type) where
  portfolio : σ → Portfolio α
  setPortfolio : Portfolio α → σ → σ
  /-- The position of the slot that was handed out last. -/
  current : σ → Option Nat
  /-- Whether another slot can be handed out. -/
  hasNext : σ → Bool × σ
  /-- Hand out the next slot. -/
  next : Engines α → σ → Except PortfolioError (Turn α) × σ
  /-- The totals at a moment. -/
  report : Nat → σ → Schedule.Report

namespace Scheduler

variable {σ α : Type} [Scheduler σ α]

/-- The scheduler with a change of the slot at a position. -/
def update (position : Nat) (change : Slot α → Slot α) (scheduler : σ) : σ :=
  setPortfolio ((portfolio scheduler).modify position change) scheduler

/-- The slot that was handed out last. -/
def currentSlot (scheduler : σ) : Option (Slot α) :=
  (current scheduler).bind (portfolio scheduler).get?

end Scheduler

namespace Schedule

variable {α : Type}

/-- The totals of a slot at a moment. -/
def SlotReport.ofSlot (now : Nat) (slot : Slot α) : SlotReport where
  id := slot.id
  limit := slot.limit
  timeSpent := slot.timeSpent now
  dispatches := slot.dispatches

/-- The totals of a portfolio at a moment, for a scheduler without rounds. -/
def Report.ofPortfolio (strategy : String) (now : Nat) (portfolio : Portfolio α) : Report where
  strategy := strategy
  dispatches := (portfolio.slots.map Slot.dispatches).foldr (· + ·) 0
  rounds := 0
  applied := 0
  slots := portfolio.slots.map (SlotReport.ofSlot now)

end Schedule

end AlgorithmPortfolio
