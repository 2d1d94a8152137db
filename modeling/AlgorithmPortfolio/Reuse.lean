import AlgorithmPortfolio.Allotment
import AlgorithmPortfolio.Text.Numeral
import AlgorithmPortfolio.Text.Split

/-!
# What a slot keeps between runs

A slot may keep its engine, the precision it reached itself and the precision that the slot
before it reached, each independently of the others. An annotation names one of these choices
and the first time limit: a token, and after the first underscore a number of seconds.

- `Reuse`: the three choices.
- `Reuse.ofToken`: the choice of a token; a token that names none keeps nothing.
- `Annotation`, `Annotation.ofText`: an annotation's reading. It never fails: a part that cannot
  be read counts as absent.
-/

namespace AlgorithmPortfolio

/-- What a slot keeps from earlier runs. -/
structure Reuse where
  engine : Bool
  own : Bool
  predecessor : Bool
  deriving DecidableEq, Repr

namespace Reuse

/-- Start from scratch. -/
def nothing : Reuse := ⟨false, false, false⟩

instance : Inhabited Reuse := ⟨nothing⟩

/-- Whether any precision is kept. -/
def precision (reuse : Reuse) : Bool := reuse.own || reuse.predecessor

/-- The tokens of annotations. -/
def tokens : List (String × Reuse) := [
  ("continue", ⟨true, false, false⟩),
  ("reuse-own-precision", ⟨false, true, false⟩),
  ("reuse-pred-precision", ⟨false, false, true⟩),
  ("reuse-precisions", ⟨false, true, true⟩),
  ("reuse-cpa-own-precision", ⟨true, true, false⟩),
  ("reuse-cpa-pred-precision", ⟨true, false, true⟩),
  ("reuse-cpa-precisions", ⟨true, true, true⟩)]

/-- The choice of a token, in upper or lower case; any other text keeps nothing. -/
def ofToken (token : List Char) : Reuse :=
  match tokens.find? fun entry => entry.1.toList == token.map Char.toLower with
  | some entry => entry.2
  | none => nothing

/-- The choice's name in settings. -/
def name : Reuse → String
  | ⟨false, false, false⟩ => "none"
  | ⟨true, false, false⟩ => "continue"
  | ⟨false, true, false⟩ => "reuse_own_precision"
  | ⟨false, false, true⟩ => "reuse_pred_precision"
  | ⟨false, true, true⟩ => "reuse_both"
  | ⟨true, true, false⟩ => "reuse_engine_own"
  | ⟨true, false, true⟩ => "reuse_engine_pred"
  | ⟨true, true, true⟩ => "reuse_engine_both"

/-- The choice's name in a slot's description. -/
def label : Reuse → String
  | ⟨false, false, false⟩ => "None"
  | ⟨true, false, false⟩ => "Continue"
  | ⟨false, true, false⟩ => "ReuseOwnPrecision"
  | ⟨false, false, true⟩ => "ReusePredPrecision"
  | ⟨false, true, true⟩ => "ReuseBoth"
  | ⟨true, true, false⟩ => "ReuseEngineOwn"
  | ⟨true, false, true⟩ => "ReuseEnginePred"
  | ⟨true, true, true⟩ => "ReuseEngineBoth"

end Reuse

/-- The reading of an annotation. -/
structure Annotation where
  reuse : Reuse
  limit : Nat
  deriving DecidableEq, Repr

namespace Annotation

/-- The greatest limit that an annotation may name. -/
def limitBound : Nat := maxOfBits 31

/-- The reading of a slot without an annotation. -/
def default : Annotation := ⟨Reuse.nothing, limitFloor⟩

/-- A positive number of seconds, or else the floor. -/
def readLimit (cs : List Char) : Nat :=
  match Text.readNumeral limitBound cs with
  | .ok seconds => if seconds = 0 then limitFloor else seconds
  | .error _ => limitFloor

/-- The reading of an annotation: the token before the first underscore and the limit after
it. -/
def ofChars (cs : List Char) : Annotation :=
  match Text.splitFirst '_' cs with
  | some (token, seconds) => ⟨Reuse.ofToken token, readLimit seconds⟩
  | none => ⟨Reuse.ofToken cs, limitFloor⟩

/-- The reading of an optional annotation. -/
def ofText : Option String → Annotation
  | none => default
  | some text => ofChars text.toList

end Annotation

end AlgorithmPortfolio
