import AlgorithmPortfolio.Document.Yaml.Cursor

/-!
# Scalars whose lines are folded

In a scalar between quotes and in one without them, a line end together with the white space
around it stands for a blank, and several line ends stand for those after the first.

- `Yaml.Gap`: white space inside of a scalar, and the text that it stands for.
- `Yaml.quoted`: the text of a scalar between quotes.
- `Yaml.plain`: the text of a scalar without quotes.
-/

namespace AlgorithmPortfolio.Document.Yaml

/-! ## White space -/

/-- White space inside of a scalar: its blanks before the first line end, and its line ends. -/
structure Gap where
  blanks : List Char
  ends : List Char

namespace Gap

/-- No white space at all. -/
def none : Gap := ⟨[], []⟩

/-- The text that white space stands for. A line end other than a line feed is never folded. -/
def text (gap : Gap) : List Char :=
  match gap.ends with
  | [] => gap.blanks
  | ['\n'] => [' ']
  | '\n' :: more => more
  | ends => ends

end Gap

/-- Take line ends and the white space between and after them. No tab may stand in the first
`least` columns of a line. -/
def lineEnds (least : Nat) : Nat → Scan (List Char)
  | 0 => return []
  | fuel + 1 => do
    if ← atLineEnd then
      let c ← lineEnd
      let blanks ← takeWhile isBlank
      guard !(blanks.take least).contains '\t'
      return c :: (← lineEnds least fuel)
    else return []

/-- Take white space. -/
def gap (least : Nat) : Scan Gap := do
  let blanks ← takeWhile isBlank
  return ⟨blanks, ← lineEnds least (← left)⟩

/-! ## Quotes -/

/-- Escapes of one character between double quotes. -/
def escapes : List (Char × Char) := [
  ('0', '\x00'), ('a', '\x07'), ('b', '\x08'), ('t', '\t'), ('\t', '\t'),
  ('n', '\n'), ('v', '\x0b'), ('f', '\x0c'), ('r', '\r'), ('e', '\x1b'), (' ', ' '), ('"', '"'),
  ('/', '/'), ('\\', '\\'), ('N', '\u0085'), ('_', '\u00a0'), ('L', '\u2028'), ('P', '\u2029')]

/-- The character of a given number of hexadecimal digits. -/
def codeEscape (count : Nat) : Scan Char := do
  let digits := (← rest).take count
  guard (digits.length = count ∧ digits.all isHexDigit)
  advance count
  charOf? (digitsValue 16 digits)

/-- The character after a backslash. -/
def escape : Scan Char := do
  match ← next with
  | 'x' => codeEscape 2
  | 'u' => codeEscape 4
  | 'U' => codeEscape 8
  | c => escapes.lookup c

/-- The rest of a scalar between quotes; `taken` holds what was read, last character first. No
document may start or end inside of it. -/
def quotedRest (quote : Char) : Nat → List Char → Scan (List Char)
  | 0, _ => failure
  | fuel + 1, taken => do
    guard !(← atDocumentMark)
    if ← atEdge then
      guard (← peek).isSome
      quotedRest quote fuel ((← gap 0).text.reverse ++ taken)
    else
      let c ← next
      if c = quote then
        if quote = '\'' then
          -- a single quote is written twice
          if ← eat quote then return ← quotedRest quote fuel (quote :: taken)
        return taken.reverse
      else if c = '\\' ∧ quote = '"' then
        if ← atLineEnd then
          -- the line end after a backslash stands for nothing
          let ends ← lineEnds 0 (← left)
          quotedRest quote fuel (ends.tail.reverse ++ taken)
        else quotedRest quote fuel ((← escape) :: taken)
      else quotedRest quote fuel (c :: taken)

/-- The text of a scalar between quotes. -/
def quoted : Scan String := do
  let quote ← next
  return String.ofList (← quotedRest quote ((← left) + 1) [])

/-! ## No quotes -/

/-- Whether a character has a meaning of its own between brackets. -/
def isFlowMark (c : Char) : Bool := [',', '[', ']', '\x7b', '\x7d'].contains c

/-- Marks that start something other than a scalar without quotes. -/
def isLeadingMark (c : Char) : Bool :=
  ['#', '&', '*', '!', '|', '>', '\'', '"', '%', '@', '\x60'].contains c

/-- Whether a scalar without quotes may start with a character that another one follows. -/
def startsPlain (inFlow : Bool) (c : Char) (following : Option Char) : Bool :=
  if c == '-' then !following.any isBlank
  else if c == '?' || c == ':' then !inFlow && !isEdge following
  else !isFlowMark c && !isLeadingMark c && !isEdge (some c)

/-- The length of a scalar's word, on top of what was counted before. Between brackets, a colon
may not stand right before some marks. -/
def wordLength (inFlow : Bool) (count : Nat) : List Char → Option Nat
  | [] => some count
  | c :: rest =>
    let following := rest.head?
    if isEdge (some c) || (c == ':' && isEdge following) || (inFlow && isFlowMark c) then some count
    else if inFlow && c == ':' && following.any (fun d => d == '?' || isFlowMark d) then none
    else wordLength inFlow (count + 1) rest

/-- The words of a scalar without quotes after some white space; `taken` holds what was read,
last character first. The answer tells whether the white space after the scalar has line
ends. -/
def plainRest (inFlow : Bool) (least : Nat) : Nat → List Char → Gap → Scan (List Char × Bool)
  | 0, taken, white => return (taken.reverse, !white.ends.isEmpty)
  | fuel + 1, taken, white => do
    if (← peek) = some '#' || (← atDocumentMark) then return (taken.reverse, !white.ends.isEmpty)
    let count ← wordLength inFlow 0 (← rest)
    if count = 0 then return (taken.reverse, !white.ends.isEmpty)
    let word := (← rest).take count
    advance count
    let taken := word.reverse ++ white.text.reverse ++ taken
    let white ← gap least
    if !inFlow && (← column) < least then return (taken.reverse, !white.ends.isEmpty)
    plainRest inFlow least fuel taken white

/-- The text of a scalar without quotes, whose further lines are indented by at least `least`
unless they are between brackets. The answer tells whether the white space after the scalar has
line ends. -/
def plain (inFlow : Bool) (least : Nat) : Scan (String × Bool) := do
  let (text, ended) ← plainRest inFlow least (← left) [] Gap.none
  return (String.ofList text, ended)

end AlgorithmPortfolio.Document.Yaml
