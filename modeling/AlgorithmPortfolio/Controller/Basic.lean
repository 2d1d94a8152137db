import AlgorithmPortfolio.TimeMenu

/-!
# Controllers

A controller decides which slot runs next and for how long, and is told how the slot before did.

- `Decision`: a slot and a proposed time limit.
- `Controller σ α`: what a type `σ` of controller states has to offer; `α` is the type of
  progress.
- `Controller.onEither`: one of two controllers is a controller again.
-/

namespace AlgorithmPortfolio

/-- Run a slot for at most a number of seconds. -/
structure Decision where
  slot : String
  limit : Nat
  deriving DecidableEq, Repr, Inhabited

/-- A decision-maker with states `σ`, which is told progress of type `α`. -/
class Controller (σ : Type) (α : outParam Type) where
  /-- Start with the distinct slot identifiers and the menu of time limits. -/
  init : List String → TimeMenu → σ → σ
  /-- Whether there is another decision. -/
  hasNext : σ → Bool × σ
  /-- The next decision, if there is one. -/
  next : σ → Option Decision × σ
  /-- Take the progress and the time limit of the slot that ran before. -/
  reportProgress : α → Nat → σ → σ
  /-- Take the targets that the slot before newly covered. -/
  reportCoverage : List Nat → σ → σ

namespace Controller

variable {σ τ α : Type}

/-- Apply a step to either of two states, next to its answer. -/
def onEither {β : Type} (left : σ → β × σ) (right : τ → β × τ) : σ ⊕ τ → β × (σ ⊕ τ)
  | .inl s => let (answer, s) := left s; (answer, .inl s)
  | .inr t => let (answer, t) := right t; (answer, .inr t)

instance [Controller σ α] [Controller τ α] : Controller (σ ⊕ τ) α where
  init ids menu := Sum.map (init ids menu) (init ids menu)
  hasNext := onEither hasNext hasNext
  next := onEither next next
  reportProgress progress limit :=
    Sum.map (reportProgress progress limit) (reportProgress progress limit)
  reportCoverage targets := Sum.map (reportCoverage targets) (reportCoverage targets)

end Controller

end AlgorithmPortfolio
