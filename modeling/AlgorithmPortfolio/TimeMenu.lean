/-!
# Menus of time limits

The time limits that a decision-maker may choose from, ascending, none above a cap.

- `Scale`: how the offers are spaced.
- `evenOffers`: the multiples of the granularity up to the cap.
- `doublingOffers`: the granularity doubled until the cap, which closes the menu.
- `TimeMenu`, `TimeMenu.make?`: a menu of a positive cap and granularity.
-/

namespace AlgorithmPortfolio

/-- How the offers of a menu are spaced. -/
inductive Scale
  | uniform
  | exponential
  deriving DecidableEq, Repr, Inhabited

/-- The scale's name in settings. -/
def Scale.name : Scale → String
  | .uniform => "uniform"
  | .exponential => "exponential"

/-- All scales. -/
def Scale.all : List Scale := [.uniform, .exponential]

/-- The scale of a name. -/
def Scale.ofName? (name : String) : Option Scale := all.find? fun scale => scale.name == name

/-- The multiples of `granularity` up to `cap`. -/
def evenOffers (cap granularity : Nat) : List Nat :=
  if granularity = 0 then [] else (List.range' 1 (cap / granularity)).map (· * granularity)

/-- The doublings of `value` below `cap`, and then `cap`. -/
def doubledUpTo (cap value : Nat) (h : 0 < value) : List Nat :=
  if value < cap then value :: doubledUpTo cap (2 * value) (by omega) else [cap]
termination_by cap - value

/-- The doublings of `granularity` below `cap`, and then `cap`. -/
def doublingOffers (cap granularity : Nat) : List Nat :=
  if h : 0 < granularity then doubledUpTo cap granularity h else []

/-- The offers of a scale. -/
def Scale.offers : Scale → Nat → Nat → List Nat
  | .uniform => evenOffers
  | .exponential => doublingOffers

/-- A menu of time limits: cap and granularity are positive, and `offers` is made from them. -/
structure TimeMenu where
  scale : Scale
  cap : Nat
  granularity : Nat
  cap_pos : 0 < cap
  granularity_pos : 0 < granularity

namespace TimeMenu

/-- The offered limits, ascending. -/
def offers (menu : TimeMenu) : List Nat := menu.scale.offers menu.cap menu.granularity

/-- The menu of a cap and a granularity, if both are positive. -/
def make? (scale : Scale) (cap granularity : Nat) : Option TimeMenu :=
  if h : 0 < cap ∧ 0 < granularity then some ⟨scale, cap, granularity, h.1, h.2⟩ else none

end TimeMenu

end AlgorithmPortfolio
