import AlgorithmPortfolio.Reuse

/-!
# Slot specifications

One entry of a portfolio's input: the file that configures a slot, and perhaps an annotation.
The file's path is also the slot's identity.

- `SlotSpec`: the entry.
- `SlotSpec.ofText`: the written form `path::annotation`, cut at the last double colon.
- `targetName`: the name of a coverage target.
-/

namespace AlgorithmPortfolio

/-- A slot's configuration file and its annotation. -/
structure SlotSpec where
  config : String
  annotation : Option String
  deriving DecidableEq, Repr, Inhabited

namespace SlotSpec

/-- The reading of the annotation. -/
def reading (spec : SlotSpec) : Annotation := Annotation.ofText spec.annotation

/-- Read `path::annotation`; without a double colon all of the text is the path. -/
def ofText (text : String) : SlotSpec :=
  match Text.splitLastPair ':' text.toList with
  | some (path, annotation) => ⟨String.ofList path, some (String.ofList annotation)⟩
  | none => ⟨text, none⟩

end SlotSpec

/-- The name of a coverage target. -/
def targetName (target : Nat) : String := "T" ++ toString target

end AlgorithmPortfolio
