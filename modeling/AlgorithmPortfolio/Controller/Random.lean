import AlgorithmPortfolio.Controller.Basic
import AlgorithmPortfolio.Generator

/-!
# Random decisions

A controller that chooses evenly among all pairs of a slot and an offer of the menu. It never
runs out once it has a slot and an offer, and takes no notice of feedback.

- `RandomChoice α γ`: the slots, the offers and the stream of random numbers.
- `RandomChoice.pairAt`: the pairs in order, slot by slot.
-/

namespace AlgorithmPortfolio

/-- A controller that chooses at random, from a stream of type `γ`, and disregards progress of
type `α`. -/
structure RandomChoice (α : Type) (γ : Type := Generator) where
  identifiers : List String
  menu : List Nat
  generator : γ
  deriving DecidableEq, Repr

namespace RandomChoice

variable {α γ : Type}

/-- The controller of a stream, before its start. -/
def ofGenerator (generator : γ) : RandomChoice α γ := ⟨[], [], generator⟩

/-- The number of pairs of a slot and an offer. -/
def pairCount (choice : RandomChoice α γ) : Nat := choice.identifiers.length * choice.menu.length

/-- The pair with a number: the offers of the first slot come first. -/
def pairAt (choice : RandomChoice α γ) (k : Nat) : Option Decision := do
  let slot ← choice.identifiers[k / choice.menu.length]?
  let limit ← choice.menu[k % choice.menu.length]?
  return ⟨slot, limit⟩

/-- Whether there is a pair to choose. -/
def hasNext (choice : RandomChoice α γ) : Bool := 0 < choice.pairCount

variable [RandomStream γ]

/-- Choose a pair. Nothing is drawn if there is none. -/
def next (choice : RandomChoice α γ) : Option Decision × RandomChoice α γ :=
  if choice.hasNext then
    let (k, generator) := RandomStream.below choice.pairCount choice.generator
    (choice.pairAt k, { choice with generator := generator })
  else (none, choice)

instance : Controller (RandomChoice α γ) α where
  init ids menu choice := { choice with identifiers := ids, menu := menu.offers }
  hasNext choice := (choice.hasNext, choice)
  next := next
  reportProgress _ _ choice := choice
  reportCoverage _ choice := choice

end RandomChoice

end AlgorithmPortfolio
