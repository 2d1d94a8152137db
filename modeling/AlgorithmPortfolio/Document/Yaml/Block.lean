import AlgorithmPortfolio.Document.Yaml.Cursor

/-!
# Scalars in blocks of lines

After a bar, the lines of a block stand for themselves; after a greater-than sign they are
folded, except for those that start with a blank.

- `Yaml.Chomping`: what becomes of the line ends at the end of a block.
- `Yaml.block`: the text of a scalar in a block of lines.
-/

namespace AlgorithmPortfolio.Document.Yaml

/-- What becomes of the line ends at the end of a block. -/
inductive Chomping
  /-- All are left out. -/
  | strip
  /-- One stays. -/
  | clip
  /-- All stay. -/
  | keep
  deriving DecidableEq

/-- The sign for what becomes of the line ends. -/
def chomping : Scan Chomping := do
  if ← eat '+' then return .keep
  else if ← eat '-' then return .strip
  else return .clip

/-- The digit for how far the lines are indented, if there is one. -/
def increment : Scan (Option Nat) := do
  match ← peek with
  | some c =>
    if c.isDigit then
      guard (c ≠ '0')
      advance 1
      return some (digitsValue 10 [c])
    else return none
  | none => return none

/-- The sign and the digit after a block's mark, in either order. -/
def header : Scan (Chomping × Option Nat) := do
  match ← increment with
  | some n => return (← chomping, some n)
  | none => do
    let chomping ← chomping
    -- without a sign no digit can follow, as there was none before
    return (chomping, ← increment)

/-- Take empty lines up to the indentation of the first line that is not, and tell their line
ends and the greatest column reached. Without a known indentation, all spaces belong to it. -/
def emptyLines (indent : Option Nat) : Nat → Scan (List Char × Nat)
  | 0 => return ([], ← column)
  | fuel + 1 => do
    let spaces := ((← rest).takeWhile (· == ' ')).length
    let start ← column
    advance ((indent.map fun indent => min spaces (indent - start)).getD spaces)
    let here ← column
    -- a tab is no indentation
    guard !(indent.all (here < ·) && (← peek) == some '\t')
    if ← atLineEnd then
      let c ← lineEnd
      let (ends, deepest) ← emptyLines indent fuel
      return (c :: ends, max here deepest)
    else return ([], here)

/-- The parts of a block's text. -/
structure BlockText where
  /-- The lines, last character first. -/
  taken : List Char
  /-- The end of the last line. -/
  lastEnd : List Char
  /-- The ends of the empty lines after it. -/
  emptyEnds : List Char

/-- The lines that are indented by `indent`. A line end between two lines that start with no
blank is folded if `folded` says so. -/
def blockLines (folded : Bool) (indent : Nat) : Nat → Bool → BlockText → Scan BlockText
  | 0, _, text => return text
  | fuel + 1, afterBlank, text => do
    if (← column) = indent ∧ (← peek).isSome then
      let blank := (← peek).any isBlank
      let joint :=
        if folded && text.lastEnd == ['\n'] && !afterBlank && !blank then
          if text.emptyEnds.isEmpty then [' '] else []
        else text.lastEnd
      let line ← takeWhile (!isLineEnd ·)
      let lastEnd ← if ← atLineEnd then (fun c => [c]) <$> lineEnd else pure []
      let (emptyEnds, _) ← emptyLines (some indent) (← left)
      let taken := line.reverse ++ text.emptyEnds.reverse ++ joint.reverse ++ text.taken
      blockLines folded indent fuel blank ⟨taken, lastEnd, emptyEnds⟩
    else return text

/-- The text of a scalar in a block of lines inside of a collection at a column. Without a
digit, the indentation is that of the deepest line up to the first that is not empty. -/
def block (parent : Option Nat) : Scan String := do
  let folded := (← next) = '>'
  let (chomping, increment) ← header
  restOfLine
  let given := increment.map (parent.getD 0 + ·)
  let (emptyEnds, deepest) ← emptyLines given (← left)
  let indent := given.getD (max deepest ((parent.map (· + 1)).getD 1))
  let text ← blockLines folded indent (← left) false ⟨[], [], emptyEnds⟩
  let lastEnd := if chomping = .strip then [] else text.lastEnd
  let emptyEnds := if chomping = .keep then text.emptyEnds else []
  return String.ofList (text.taken.reverse ++ lastEnd ++ emptyEnds)

end AlgorithmPortfolio.Document.Yaml
