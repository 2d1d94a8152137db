import AlgorithmPortfolio.Proofs.Rebalance.Pass
import AlgorithmPortfolio.Proofs.Slot.Operation
import Mathlib.Logic.Relation

/-!
# What becomes of slots

All that ever happens to a slot is that someone operates on it or that it is handed out.
Schedules are no exception: a pass asks for targets and sets limits, the end of a round resets,
and callers could do the same.

- `Slot.Change`, `Slot.History`: one change of a slot and any number of them.
- `Portfolio.Evolves`: portfolios each slot of which comes from the one at its position.
- `evolves_modify`, `evolves_mapSlots`: changes of one slot and of all slots.
- `evolves_foldl`: whatever evolves with every event evolves along all of them.
- `evolves_pass`: a pass does to slots what callers can do.
-/

namespace AlgorithmPortfolio

variable {α : Type} [Arith α]

namespace Slot

/-- One change of a slot. -/
inductive Change : Slot α → Slot α → Prop
  | operate (slot : Slot α) (operation : Operation α) : Change slot (operation.apply slot)
  | dispatch (slot : Slot α) : Change slot slot.dispatch

/-- Any number of changes of a slot. -/
def History : Slot α → Slot α → Prop := Relation.ReflTransGen Change

namespace History

theorem refl (slot : Slot α) : History slot slot := Relation.ReflTransGen.refl

theorem trans {first second third : Slot α} (h : History first second) (h' : History second third) :
    History first third :=
  Relation.ReflTransGen.trans h h'

theorem operate (slot : Slot α) (operation : Operation α) : History slot (operation.apply slot) :=
  .single (.operate slot operation)

theorem dispatch (slot : Slot α) : History slot slot.dispatch := .single (.dispatch slot)

end History

end Slot

namespace Portfolio

/-- Every slot of the later portfolio comes from the one at its position. -/
def Evolves (before after : Portfolio α) : Prop :=
  List.Forall₂ Slot.History before.slots after.slots

theorem Evolves.refl (portfolio : Portfolio α) : portfolio.Evolves portfolio :=
  List.forall₂_same.mpr fun slot _ => .refl slot

theorem Evolves.trans {first second third : Portfolio α} (h : first.Evolves second)
    (h' : second.Evolves third) : first.Evolves third := by
  unfold Evolves at h h' ⊢
  generalize first.slots = slots at h
  generalize second.slots = between at h h'
  generalize third.slots = later at h'
  -- slot by slot, since both lists have the order of the first one
  induction h generalizing later with
  | nil =>
    cases h'
    exact .nil
  | cons hslot _ ih =>
    cases h' with
    | cons hslot' hrest' => exact .cons (hslot.trans hslot') (ih _ hrest')

theorem evolves_mapSlots {change : Slot α → Slot α} (h : ∀ slot, Slot.History slot (change slot))
    (portfolio : Portfolio α) : portfolio.Evolves (portfolio.mapSlots change) :=
  List.forall₂_map_right_iff.mpr (List.forall₂_same.mpr fun slot _ => h slot)

theorem evolves_modify {change : Slot α → Slot α} (h : ∀ slot, Slot.History slot (change slot))
    (position : Nat) (portfolio : Portfolio α) :
    portfolio.Evolves (portfolio.modify position change) := by
  show List.Forall₂ Slot.History portfolio.slots (portfolio.slots.modify position change)
  generalize portfolio.slots = slots
  induction slots generalizing position with
  | nil =>
    rw [List.modify_nil]
    exact .nil
  | cons slot rest ih =>
    cases position with
    | zero => exact .cons (h slot) (List.forall₂_same.mpr fun slot _ => .refl slot)
    | succ position => exact .cons (.refl slot) (ih position)

/-- A portfolio that evolves with every event evolves along all of them, whatever it is part
of. -/
theorem evolves_foldl {ε τ : Type} (portfolio : τ → Portfolio α) {step : τ → ε → τ}
    (h : ∀ state event, (portfolio state).Evolves (portfolio (step state event))) (events : List ε)
    (state : τ) : (portfolio state).Evolves (portfolio (events.foldl step state)) :=
  List.foldlRecOn (motive := fun reached => (portfolio state).Evolves (portfolio reached))
    events step
    (.refl _) fun reached hreached event _ => hreached.trans (h reached event)

end Portfolio

/-! ## Passes -/

namespace Rebalance

/-- Listed targets are what an operation stores as well. -/
theorem history_asked (engines : Engines α) (slot : Slot α) :
    Slot.History slot (slot.asked engines) := by
  have h := Slot.History.operate slot (.openTargets engines)
  rwa [Slot.Operation.apply, Slot.openTargets_eq] at h

theorem history_reallocate (votes : List α) (budget : Int) {slots : List (Slot α)}
    (h : votes.length = slots.length) :
    List.Forall₂ Slot.History slots (reallocate votes budget slots) := by
  have hlimits : slots.length = (limitsOfVotes votes budget).length := by simp [h]
  rw [reallocate, ← List.map_uncurry_zip_eq_zipWith, List.forall₂_map_right_iff]
  -- each slot stands next to its own limit
  have hslots : slots = (slots.zip (limitsOfVotes votes budget)).map Prod.fst :=
    (List.map_fst_zip (Nat.le_of_eq hlimits)).symm
  nth_rewrite 1 [hslots]
  rw [List.forall₂_map_left_iff]
  exact List.forall₂_same.mpr fun entry _ => .operate entry.1 (.adapt entry.2)

/-- A pass does to slots what callers can do. -/
theorem evolves_pass {σ : Type} [PathSampler σ] (engines : Engines α) (knobs : Knobs) (round : Nat)
    (models : List (Option (PathModel α))) (slots : List (Slot α)) (draws : Draws σ) :
    List.Forall₂ Slot.History slots (pass engines knobs round models slots draws).2.1 := by
  rcases pass_cases engines knobs round models slots draws with
    ⟨reason, after, hrefreshed, hpass⟩ | ⟨votes, after, -, -, -, helect, hpass⟩
  · -- a skipped pass asks engines, and at most of all slots
    rw [hpass models draws rfl]
    refine hrefreshed.imp fun before after h => ?_
    rcases h with rfl | rfl
    · exact .refl _
    · exact history_asked engines _
  · -- an applied pass asks all engines before it writes the limits
    rw [hpass]
    have hlimits := history_reallocate votes (budgetOf slots) (length_of_elected helect)
    rw [List.forall₂_map_left_iff] at hlimits
    exact hlimits.imp fun slot after h => (history_asked engines slot).trans h

end Rebalance

end AlgorithmPortfolio
