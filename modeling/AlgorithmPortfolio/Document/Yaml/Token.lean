import AlgorithmPortfolio.Document.Yaml.Block
import AlgorithmPortfolio.Document.Yaml.Folded
import AlgorithmPortfolio.Document.Yaml.Tag

/-!
# Tokens of YAML texts

Indentation opens and closes collections, and what is a key shows only at the colon after it.
Both are settled here, so that the tokens alone decide about the nodes of a document.

- `Yaml.Token`: tokens.
- `Yaml.PossibleKey`: a place where a key may have started.
- `Yaml.Lexer`, `Yaml.Lex`: a place in a text with the collections around it, and the steps of
  taking tokens off a text.
- `Yaml.tokens?`: the tokens of a text.
-/

namespace AlgorithmPortfolio.Document.Yaml

/-- A token. -/
inductive Token
  | directive (directive : Directive)
  | documentStart
  | documentEnd
  | blockSequence
  | blockMapping
  | blockEnd
  | flowSequence
  | flowSequenceEnd
  | flowMapping
  | flowMappingEnd
  /-- The dash before an item. -/
  | dash
  | comma
  | key
  | value
  | alias (name : String)
  | anchor (name : String)
  | tag (tag : Tag)
  /-- A text and whether it is a scalar on its own, without quotes and outside of a block. -/
  | scalar (text : String) (plain : Bool)
  deriving DecidableEq, Repr

/-! ## Places with collections around them -/

/-- A place where a key may have started. -/
structure PossibleKey where
  /-- The number of the token group that is kept for what belongs before the key. -/
  group : Nat
  /-- Whether nothing but a key may start here. -/
  required : Bool
  left : Nat
  line : Nat
  column : Nat

/-- How many characters a key that is not marked as such may have. -/
def keyLimit : Nat := 1024

/-- Whether a key that started here would be too long, or not on one line. -/
def PossibleKey.isStale (cursor : Cursor) (key : PossibleKey) : Bool :=
  key.line < cursor.line || cursor.left + keyLimit < key.left

/-- A place in a text with the collections around it, and the tokens before it. -/
structure Lexer where
  cursor : Cursor
  /-- The tokens in groups. A group that is kept for a possible key stays empty unless it is
  one. -/
  groups : Array (List Token)
  /-- The columns of the block collections around the place, the innermost first. -/
  columns : List Nat
  /-- Where the key of the next colon may have started. -/
  key : Option PossibleKey
  /-- The same outside of each pair of brackets around the place, the innermost first. -/
  outerKeys : List (Option PossibleKey)
  /-- Whether a key that is not marked as such may start here. -/
  keyAllowed : Bool

/-- The start of a text. -/
def Lexer.start (text : List Char) : Lexer := ⟨.start text, #[], [], none, [], true⟩

/-- A step of taking tokens off a text. -/
abbrev Lex := StateT Lexer Option

/-- Take something off the text. -/
def scan {β : Type} (scan : Scan β) : Lex β := do
  let lexer ← get
  let (result, cursor) ← scan.run lexer.cursor
  set { lexer with cursor := cursor }
  return result

/-- Add tokens. -/
def emit (tokens : List Token) : Lex Unit :=
  modify fun lexer => { lexer with groups := lexer.groups.push tokens }

/-- Allow or forbid a key that is not marked as such. -/
def allowKey (allowed : Bool) : Lex Unit := modify fun lexer => { lexer with keyAllowed := allowed }

/-- Whether the place is between brackets. -/
def inFlow : Lex Bool := return !(← get).outerKeys.isEmpty

/-! ## Block collections -/

/-- Open a block collection in a column, unless the innermost one is in the same column or
further to the right; its token is the answer. There are none between brackets. -/
def openBlock (column : Nat) (token : Token) : Lex (List Token) := do
  let lexer ← get
  if !(← inFlow) && lexer.columns.head?.all (· < column) then
    set { lexer with columns := column :: lexer.columns }
    return [token]
  else return []

/-- Close the block collections of some columns. -/
def closeBlocks (closed : Nat → Bool) : Lex Unit := do
  unless ← inFlow do
    let lexer ← get
    emit ((lexer.columns.takeWhile closed).map fun _ => .blockEnd)
    modify fun after => { after with columns := lexer.columns.dropWhile closed }

/-! ## Keys -/

/-- Give up the possible key, if there is one that need not be a key. -/
def dropKey : Lex Unit := do
  guard !((← get).key.any (·.required))
  modify fun lexer => { lexer with key := none }

/-- Give up the possible keys that are too far away. -/
def dropStaleKeys : Lex Unit := do
  let lexer ← get
  let fresh (key : Option PossibleKey) := key.filter (!·.isStale lexer.cursor)
  guard ((lexer.key :: lexer.outerKeys).all fun key =>
    !key.any fun key => key.required && key.isStale lexer.cursor)
  set { lexer with key := fresh lexer.key, outerKeys := lexer.outerKeys.map fresh }

/-- Note that a key may start here, where one is allowed. At the column of the innermost block
collection nothing else may. -/
def noteKey : Lex Unit := do
  let lexer ← get
  if lexer.keyAllowed then
    dropKey
    let ⟨_, left, line, column⟩ := lexer.cursor
    let required := !(← inFlow) && lexer.columns.head? == some column
    modify fun after =>
      { after with key := some ⟨lexer.groups.size, required, left, line, column⟩ }
    emit []

/-! ## Tokens -/

/-- Pass over white space and comments. In front of a possible key outside of brackets, tabs are
no white space. -/
def skipSpace : Nat → Lex Unit
  | 0 => pure ()
  | fuel + 1 => do
    let tabs := (← inFlow) || !(← get).keyAllowed
    scan <| skipWhile fun c => c == ' ' || (tabs && c == '\t')
    if (← scan peek) = some '#' then scan skipLine
    if ← scan atLineEnd then
      let _ ← scan lineEnd
      unless ← inFlow do allowKey true
      skipSpace fuel

/-- Take a single mark. -/
def mark (token : Token) : Lex Unit := do
  scan (advance 1)
  emit [token]

/-- Take the mark that starts or ends a document, or a directive. -/
def documentMark (token : Scan Token) : Lex Unit := do
  closeBlocks fun _ => true
  dropKey
  allowKey false
  emit [← scan token]

/-- Take an opening bracket. -/
def openFlow (token : Token) : Lex Unit := do
  noteKey
  modify fun lexer => { lexer with key := none, outerKeys := lexer.key :: lexer.outerKeys }
  allowKey true
  mark token

/-- Take a closing bracket. -/
def closeFlow (token : Token) : Lex Unit := do
  dropKey
  modify fun lexer =>
    match lexer.outerKeys with
    | [] => lexer
    | key :: outer => { lexer with key := key, outerKeys := outer }
  allowKey false
  mark token

/-- Take a comma. -/
def comma : Lex Unit := do
  dropKey
  allowKey true
  mark .comma

/-- Take the dash of an item, which may stand where a key may. -/
def dash : Lex Unit := do
  unless ← inFlow do
    guard (← get).keyAllowed
    emit (← openBlock (← scan column) .blockSequence)
  dropKey
  allowKey true
  mark .dash

/-- Take the question mark of a key. -/
def keyMark : Lex Unit := do
  unless ← inFlow do
    guard (← get).keyAllowed
    emit (← openBlock (← scan column) .blockMapping)
  dropKey
  allowKey !(← inFlow)
  mark .key

/-- Take the colon of a value. If a key may have started before it, one has. -/
def colon : Lex Unit := do
  match (← get).key with
  | some key => do
    let start ← openBlock key.column .blockMapping
    modify fun lexer =>
      { lexer with key := none, groups := lexer.groups.setIfInBounds key.group (start ++ [.key]) }
    allowKey false
  | none => do
    unless ← inFlow do
      guard (← get).keyAllowed
      emit (← openBlock (← scan column) .blockMapping)
    allowKey !(← inFlow)
  mark .value

/-- Take a token that may start a key and is followed by none. -/
def keyPart (token : Scan Token) : Lex Unit := do
  noteKey
  allowKey false
  emit [← scan token]

/-- The name after an ampersand or an asterisk, and a mark or white space after it. -/
def anchorName : Scan String := do
  advance 1
  let name ← takeWhile isWordChar
  guard (name ≠ [])
  guard ((← atEdge) ∨
    (← peek).any (['?', ':', ',', ']', '\x7d', '%', '@', '\x60'].contains ·))
  return String.ofList name

/-- Take a scalar without quotes. After its last line a key may follow. -/
def plainScalar (least : Nat) : Lex Unit := do
  noteKey
  allowKey false
  let (text, ended) ← scan (plain (← inFlow) least)
  emit [.scalar text true]
  if ended then allowKey true

/-- Take a scalar in a block of lines. -/
def blockScalar (parent : Option Nat) : Lex Unit := do
  dropKey
  allowKey true
  emit [.scalar (← scan (block parent)) false]

/-- Take the token that starts with a character. -/
def token (c : Char) (following : Option Char) : Lex Unit := do
  let flow ← inFlow
  let parent := (← get).columns.head?
  let marked := flow || isEdge following
  match c with
  | '[' => openFlow .flowSequence
  | '\x7b' => openFlow .flowMapping
  | ']' => closeFlow .flowSequenceEnd
  | '\x7d' => closeFlow .flowMappingEnd
  | ',' => comma
  | '*' => keyPart (.alias <$> anchorName)
  | '&' => keyPart (.anchor <$> anchorName)
  | '!' => keyPart (.tag <$> tag flow)
  | '\'' | '"' => keyPart ((.scalar · false) <$> quoted)
  | _ =>
    if c == '-' && isEdge following then dash
    else if c == '?' && marked then keyMark
    else if c == ':' && marked then colon
    else if (c == '|' || c == '>') && !flow then blockScalar parent
    else do
      guard (startsPlain flow c following)
      plainScalar ((parent.map (· + 1)).getD 0)

/-- Take tokens up to the end of the text. -/
def tokens : Nat → Lex Unit
  | 0 => failure
  | fuel + 1 => do
    skipSpace ((← scan left) + 1)
    dropStaleKeys
    let column ← scan column
    closeBlocks (column < ·)
    match ← scan rest with
    | [] => do
      closeBlocks fun _ => true
      dropKey
    | c :: more => do
      if column = 0 ∧ c = '%' then documentMark (.directive <$> directive)
      else if ← scan (atMark "---") then
        documentMark do
          advance 3
          return .documentStart
      else if ← scan (atMark "...") then
        documentMark do
          advance 3
          return .documentEnd
      else token c more.head?
      tokens fuel

/-- The tokens of a text. -/
def tokens? (text : String) : Option (List Token) := do
  let cs := text.toList
  guard (cs.all isAllowed)
  let ((), lexer) ← (tokens (cs.length + 1)).run (.start (withLineFeeds cs))
  return lexer.groups.toList.flatten

end AlgorithmPortfolio.Document.Yaml
