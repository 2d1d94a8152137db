/-!
# Cutting texts

Cuts at one separator and into lines, over lists of characters.

- `splitFirst`: at the first occurrence of a character.
- `splitLastPair`: at the last occurrence of a doubled character.
- `splitAll`: at all occurrences of a character.
- `lines`: the lines of a text. A line feed ends a line, together with one carriage return right
  before it; a last line without a line feed keeps all its characters.
- `splitFirst_eq_some`, `splitLastPair_eq_some`: the parts and the separator make up the text.
-/

namespace AlgorithmPortfolio.Text

/-! ## At one separator -/

/-- The characters before and after the first `sep`. -/
def splitFirst (sep : Char) : List Char → Option (List Char × List Char)
  | [] => none
  | c :: rest =>
    if c = sep then some ([], rest)
    else (splitFirst sep rest).map fun parts => (c :: parts.1, parts.2)

/-- The characters before and after the last two neighbouring `sep`. -/
def splitLastPair (sep : Char) : List Char → Option (List Char × List Char)
  | [] => none
  | c :: rest =>
    match splitLastPair sep rest with
    | some parts => some (c :: parts.1, parts.2)
    | none =>
      match rest with
      | [] => none
      | d :: tail => if c = sep ∧ d = sep then some ([], tail) else none

/-- The parts between all `sep`; always at least one. -/
def splitAll (sep : Char) : List Char → List (List Char)
  | [] => [[]]
  | c :: rest =>
    if c = sep then [] :: splitAll sep rest
    else
      match splitAll sep rest with
      | [] => [[c]]
      | part :: parts => (c :: part) :: parts

theorem splitFirst_eq_some {sep : Char} {cs : List Char} {parts : List Char × List Char}
    (h : splitFirst sep cs = some parts) : cs = parts.1 ++ sep :: parts.2 := by
  induction cs generalizing parts with
  | nil => simp [splitFirst] at h
  | cons c rest ih =>
    by_cases hc : c = sep
    · subst hc
      simp only [splitFirst, if_pos, Option.some.injEq] at h
      subst h
      rfl
    · simp only [splitFirst, if_neg hc, Option.map_eq_some_iff] at h
      obtain ⟨inner, hinner, rfl⟩ := h
      simpa using ih hinner

theorem splitFirst_eq_none_iff {sep : Char} {cs : List Char} :
    splitFirst sep cs = none ↔ sep ∉ cs := by
  induction cs with
  | nil => simp [splitFirst]
  | cons c rest ih =>
    by_cases hc : c = sep
    · simp [splitFirst, hc]
    · simp [splitFirst, hc, ih, Ne.symm hc]

theorem splitLastPair_eq_some {sep : Char} {cs : List Char} {parts : List Char × List Char}
    (h : splitLastPair sep cs = some parts) : cs = parts.1 ++ sep :: sep :: parts.2 := by
  induction cs generalizing parts with
  | nil => simp [splitLastPair] at h
  | cons c rest ih =>
    simp only [splitLastPair] at h
    -- a later pair is the last one, and otherwise the pair may be here
    split at h
    · rename_i inner hinner
      simp only [Option.some.injEq] at h
      subst h
      simpa using ih hinner
    · split at h
      · simp at h
      · rename_i d tail _
        split at h
        · rename_i hcd
          obtain ⟨rfl, rfl⟩ := hcd
          simp only [Option.some.injEq] at h
          subst h
          rfl
        · simp at h

/-! ## Lines -/

/-- The text without one carriage return at its end. -/
def dropReturn (line : List Char) : List Char :=
  match line.getLast? with
  | some '\r' => line.dropLast
  | _ => line

/-- Lines of `pending` followed by a text, where `pending` is the part of the current line that
was already read, last character first. -/
def linesFrom (pending : List Char) : List Char → List (List Char)
  | [] => if pending = [] then [] else [pending.reverse]
  | c :: rest =>
    if c = '\n' then dropReturn pending.reverse :: linesFrom [] rest
    else linesFrom (c :: pending) rest

/-- The lines of a text. -/
def lines (cs : List Char) : List (List Char) := linesFrom [] cs

end AlgorithmPortfolio.Text
