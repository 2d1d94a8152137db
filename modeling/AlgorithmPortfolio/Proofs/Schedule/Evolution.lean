import AlgorithmPortfolio.Proofs.Control.Run
import AlgorithmPortfolio.Proofs.Schedule.Turns
import AlgorithmPortfolio.Proofs.Slot.History

/-!
# What schedules do to slots

Neither kind of schedule does more to a slot than callers can do and to hand it out. What holds
of a slot along all such changes therefore holds in every state of every schedule.

- `RoundRobin.evolves_step`, `Controlled.evolves_step`: schedules in turn, and schedules of a
  controller.
-/

namespace AlgorithmPortfolio

variable {σ α : Type} [Arith α]

namespace RoundRobin

variable [PathSampler σ]

theorem evolves_rebalance (engines : Engines α) (schedule : RoundRobin σ α) :
    schedule.portfolio.Evolves (schedule.rebalance engines).2.portfolio :=
  Rebalance.evolves_pass engines schedule.knobs schedule.round schedule.models
    schedule.portfolio.slots schedule.draws

/-- The end of a round is a pass and a reset of every slot. -/
theorem evolves_atTurn (engines : Engines α) (schedule : RoundRobin σ α) :
    schedule.portfolio.Evolves (schedule.atTurn engines).portfolio := by
  unfold atTurn
  split
  · exact (evolves_rebalance engines schedule.counted).trans
      (Portfolio.evolves_mapSlots (fun slot => .operate slot .reset) _)
  · exact .refl _

/-- A call only operates on slots and hands them out. -/
theorem evolves_step (schedule : RoundRobin σ α) (event : Event α) :
    schedule.portfolio.Evolves (event.step schedule).portfolio := by
  cases event with
  | next engines =>
    show schedule.portfolio.Evolves (schedule.next engines).2.portfolio
    rw [portfolio_next]
    -- the end of the round, if it is one, and then the dispatch
    exact (evolves_atTurn engines schedule).trans (Portfolio.evolves_modify .dispatch _ _)
  | rebalance engines => exact evolves_rebalance engines schedule
  | setModel id model => exact .refl _
  | setMetrics metrics => exact .refl _
  | operate position operation =>
    exact Portfolio.evolves_modify (fun slot => .operate slot operation) _ _

end RoundRobin

namespace Controlled

variable [Controller σ α]

omit [Controller σ α] in
theorem history_handed (schedule : Controlled σ α) (proposed : Nat) (slot : Slot α) :
    Slot.History slot (schedule.handed proposed slot) :=
  (Slot.History.operate slot (.adapt (min proposed schedule.maxTimePerSlot : Nat))).trans
    (.dispatch _)

/-- A call only operates on slots and hands them out. -/
theorem evolves_step (schedule : Controlled σ α) (event : Event α) :
    schedule.portfolio.Evolves (event.step schedule).portfolio := by
  cases event with
  | next =>
    show schedule.portfolio.Evolves schedule.next.2.portfolio
    rcases portfolio_next schedule with h | ⟨position, proposed, h⟩
    · rw [h]
      exact .refl _
    · rw [h]
      exact Portfolio.evolves_modify (history_handed schedule proposed) _ _
  | hasNext => exact .refl _
  | setMetrics metrics => exact .refl _
  | operate position operation =>
    exact Portfolio.evolves_modify (fun slot => .operate slot operation) _ _

end Controlled

end AlgorithmPortfolio
