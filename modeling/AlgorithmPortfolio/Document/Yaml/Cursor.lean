import AlgorithmPortfolio.Document.Reader

/-!
# Places in YAML texts

- `Yaml.isAllowed`, `Yaml.isBlank`, `Yaml.isLineEnd`: classes of characters.
- `Yaml.withLineFeeds`: a text whose usual line ends are all written alike.
- `Yaml.Cursor`: a place in a text.
- `Yaml.Scan`: a computation that takes something off the front of what follows a place, or
  fails; and the steps that such computations are made of.
-/

namespace AlgorithmPortfolio.Document.Yaml

/-! ## Characters -/

/-- The code points that may stand in a text, as ranges: no controls but tabs and line ends, no
surrogates, no byte order mark and no noncharacters at the end of the first plane. -/
def allowedRanges : List (Nat × Nat) :=
  [(0x09, 0x0a), (0x0d, 0x0d), (0x20, 0x7e), (0x85, 0x85), (0xa0, 0xd7ff), (0xe000, 0xfefe),
    (0xff00, 0xfffd), (0x10000, 0x10ffff)]

/-- Whether a character may stand in a text. -/
def isAllowed (c : Char) : Bool :=
  allowedRanges.any fun range => range.1 ≤ c.toNat && c.toNat ≤ range.2

/-- Whether a character is a blank within a line. -/
def isBlank (c : Char) : Bool := c == ' ' || c == '\t'

/-- Whether a character ends a line, once the usual line ends are written alike. -/
def isLineEnd (c : Char) : Bool := c == '\n' || c == '\u2028' || c == '\u2029'

/-- Whether white space or nothing at all comes next. -/
def isEdge : Option Char → Bool
  | none => true
  | some c => isBlank c || isLineEnd c

/-- Characters of names in tags, anchors and directives. -/
def isWordChar (c : Char) : Bool := c.isAlphanum || c == '_' || c == '-'

/-- The text with a line feed for each carriage return, each pair of the two and each next-line
character. -/
def withLineFeeds : List Char → List Char
  | '\r' :: '\n' :: rest => '\n' :: withLineFeeds rest
  | '\r' :: rest => '\n' :: withLineFeeds rest
  | '\u0085' :: rest => '\n' :: withLineFeeds rest
  | c :: rest => c :: withLineFeeds rest
  | [] => []

/-! ## Places -/

/-- A place in a text: the characters that follow it and their number, how many lines are before
it, and how many characters of its line. -/
structure Cursor where
  rest : List Char
  left : Nat
  line : Nat
  column : Nat

/-- The start of a text. -/
def Cursor.start (text : List Char) : Cursor := ⟨text, text.length, 0, 0⟩

/-- A computation that takes something off the front of what follows a place, or fails. -/
abbrev Scan := StateT Cursor Option

/-- The characters that follow. -/
def rest : Scan (List Char) := return (← get).rest

/-- How many characters follow. -/
def left : Scan Nat := return (← get).left

/-- The next character. -/
def peek : Scan (Option Char) := return (← get).rest.head?

/-- The column of the next character. -/
def column : Scan Nat := return (← get).column

/-- Pass over characters of a line. -/
def advance (count : Nat) : Scan Unit :=
  modify fun cursor =>
    ⟨cursor.rest.drop count, cursor.left - count, cursor.line, cursor.column + count⟩

/-- Take the next character of a line. -/
def next : Scan Char := do
  match ← peek with
  | none => failure
  | some c => do
    advance 1
    return c

/-- Take a character if it comes next, and tell whether it did. -/
def eat (c : Char) : Scan Bool := do
  if (← peek) = some c then
    advance 1
    return true
  else return false

/-- Take the longest run of characters of a class that has no line ends. -/
def takeWhile (p : Char → Bool) : Scan (List Char) := do
  let taken := (← rest).takeWhile p
  advance taken.length
  return taken

/-- Pass over the longest run of characters of a class that has no line ends. -/
def skipWhile (p : Char → Bool) : Scan Unit := do
  let _ ← takeWhile p

/-- Whether a line ends here. -/
def atLineEnd : Scan Bool := return (← peek).any isLineEnd

/-- Whether white space or nothing at all comes next. -/
def atEdge : Scan Bool := return isEdge (← peek)

/-- Take the line end that comes next. -/
def lineEnd : Scan Char := do
  let cursor ← get
  match cursor.rest with
  | [] => failure
  | c :: rest => do
    guard (isLineEnd c)
    set (Cursor.mk rest (cursor.left - 1) (cursor.line + 1) 0)
    return c

/-- Pass over the rest of a line before its end. -/
def skipLine : Scan Unit := skipWhile (!isLineEnd ·)

/-- Pass over the rest of a line, on which only a comment may stand. -/
def restOfLine : Scan Unit := do
  skipWhile isBlank
  if (← peek) = some '#' then skipLine
  if ← atLineEnd then
    let _ ← lineEnd
  else guard (← peek).isNone

/-- Whether the mark of three characters that starts or ends a document comes next. -/
def atMark (mark : String) : Scan Bool := do
  let cursor ← get
  return cursor.column = 0 && mark.toList.isPrefixOf cursor.rest &&
    isEdge (cursor.rest.drop 3).head?

/-- Whether a document starts or ends here. -/
def atDocumentMark : Scan Bool := return (← atMark "---") || (← atMark "...")

end AlgorithmPortfolio.Document.Yaml
