import AlgorithmPortfolio.Document.Yaml.Cursor

/-!
# Tags of YAML values

Tags are octets: what is escaped in them need not be a text.

- `Yaml.Octets`: the octets of tags, and `Yaml.octets?`, which reads them off what is written.
- `Yaml.Tag`: a tag as it is written, and `Yaml.tag`, which reads one.
- `Yaml.Directive`: what a line in front of a document says, and `Yaml.directive`, which reads
  one.
- `Yaml.Handles`: what the handles of tags stand for, and `Tag.resolve?`, which applies them.
- `Yaml.ownName?`: the name in a tag of a document's own.
-/

namespace AlgorithmPortfolio.Document.Yaml

/-- The octets of a tag or of a part of it. -/
abbrev Octets := List UInt8

/-- A tag as it is written: a handle that stands for some octets, and those that follow it. A
tag that is written out has the empty handle. -/
structure Tag where
  handle : String
  suffix : Octets
  deriving DecidableEq, Repr

/-! ## Octets -/

/-- The octet of a character below 128. -/
def octet (c : Char) : UInt8 := c.toNat.toUInt8

/-- The octets of characters below 128. -/
def octetsOf (text : String) : Octets := text.toList.map octet

/-- The octets of a tag's characters. A percent sign and two digits stand for one octet. -/
def unescaped : List Char → Option Octets
  | [] => some []
  | '%' :: a :: b :: rest =>
    if isHexDigit a && isHexDigit b then
      (UInt8.ofNat (digitsValue 16 [a, b]) :: ·) <$> unescaped rest
    else none
  | c :: rest => if c = '%' then none else (octet c :: ·) <$> unescaped rest

/-- How many octets follow one that starts a character. -/
def trailingCount (leading : UInt8) : Option Nat :=
  if leading < 0x80 then some 0
  else if leading < 0xc0 then none
  else if leading < 0xe0 then some 1
  else if leading < 0xf0 then some 2
  else if leading < 0xf8 then some 3
  else none

/-- Whether an octet may follow another in a character. -/
def isTrailing (octet : UInt8) : Bool := 0x80 ≤ octet && octet < 0xc0

/-- Whether octets look like characters: to each that starts one belong as many as it announces,
of which `due` are still to come. What they spell may still be no character. -/
def areSequences (due : Nat) : Octets → Bool
  | [] => due == 0
  | octet :: rest =>
    match due with
    | due + 1 => isTrailing octet && areSequences due rest
    | 0 =>
      match trailingCount octet with
      | some count => areSequences count rest
      | none => false

/-- The octets of a tag's characters, as far as there is no zero among them. -/
def octets? (cs : List Char) : Option Octets := do
  let all ← unescaped cs
  guard (areSequences 0 all)
  return all.takeWhile (· != 0)

/-! ## Parts of tags -/

/-- Marks that may stand in a tag. -/
def tagMarks : List Char :=
  [';', '/', '?', ':', '@', '&', '=', '+', '$', '.', '!', '~', '*', '\'', '(', ')', '%']

/-- Marks that may stand in a tag that is written out, too. -/
def flowTagMarks : List Char := [',', '[', ']']

/-- What is written of a tag or of its part. Marks of lists may stand in it if `whole` says
so. -/
def tagChars (whole : Bool) : Scan (List Char) :=
  takeWhile fun c => isWordChar c || tagMarks.contains c || (whole && flowTagMarks.contains c)

/-- A handle, or an exclamation mark and a word that starts a tag. -/
def handle : Scan String := do
  guard (← eat '!')
  let word ← takeWhile isWordChar
  let closed ← eat '!'
  return String.ofList (['!'] ++ word ++ if closed then ['!'] else [])

/-- Whether a text is a handle between two exclamation marks. -/
def isClosedHandle (text : String) : Bool := 1 < text.length && text.endsWith "!"

/-- A tag. -/
def tag (inFlow : Bool) : Scan Tag := do
  let tag ← if ['!', '<'].isPrefixOf (← rest) then do
      advance 2
      let written ← tagChars true
      guard (written ≠ [] ∧ (← eat '>'))
      pure ⟨"", ← octets? written⟩
    else do
      let start ← handle
      let written ← tagChars false
      if isClosedHandle start then
        guard (written ≠ [])
        pure ⟨start, ← octets? written⟩
      else
        let suffix ← octets? (start.toList.drop 1 ++ written)
        -- an exclamation mark alone is a tag that is written out
        pure (if suffix = [] then ⟨"", octetsOf "!"⟩ else ⟨"!", suffix⟩)
  guard ((← atEdge) ∨ inFlow ∧ (← peek) = some ',')
  return tag

/-! ## Directives -/

/-- What a line in front of a document says. -/
inductive Directive
  /-- The document is in a known version of the format. -/
  | version
  /-- A handle stands for octets. -/
  | handle (name : String) (meaning : Octets)
  deriving DecidableEq, Repr

/-- A part of a version. -/
def versionNumber : Scan Nat := do
  let digits ← takeWhile Char.isDigit
  guard (0 < digits.length ∧ digits.length ≤ 9)
  return digitsValue 10 digits

/-- A line in front of a document. Only versions 1.1 and 1.2 are known, and no further
directives. -/
def directive : Scan Directive := do
  guard (← eat '%')
  let name := String.ofList (← takeWhile isWordChar)
  guard (← atEdge)
  skipWhile isBlank
  let result ← match name with
    | "YAML" => do
      let major ← versionNumber
      guard (← eat '.')
      let minor ← versionNumber
      guard (major = 1 ∧ (minor = 1 ∨ minor = 2))
      pure .version
    | "TAG" => do
      let start ← handle
      guard (start = "!" ∨ isClosedHandle start)
      guard ((← peek).any isBlank)
      skipWhile isBlank
      let written ← tagChars true
      guard (written ≠ [])
      guard (← atEdge)
      pure (.handle start (← octets? written))
    | _ => failure
  restOfLine
  return result

/-! ## Meanings -/

/-- What handles stand for. -/
abbrev Handles := List (String × Octets)

/-- The tag that every document knows under a name. -/
def commonTag (name : String) : Octets := octetsOf ("tag:yaml.org,2002:" ++ name)

/-- What handles stand for unless a directive says otherwise. -/
def usualHandles : Handles := [("!", octetsOf "!"), ("!!", commonTag "")]

/-- The tag written out; its handle has to stand for something. -/
def Tag.resolve? (handles : Handles) (tag : Tag) : Option Octets :=
  if tag.handle = "" then some tag.suffix
  else do return (← (handles ++ usualHandles).lookup tag.handle) ++ tag.suffix

/-- Whether a tag is of a document's own: it starts with an exclamation mark. -/
def isOwn (tag : Octets) : Bool := tag.head? == some (octet '!')

/-- The name in a tag of a document's own, if it is a text. The mark alone is a name, too. -/
def ownName? (tag : Octets) : Option String := do
  guard (isOwn tag)
  String.fromUTF8? ⟨(if tag.tail.isEmpty then tag else tag.tail).toArray⟩

end AlgorithmPortfolio.Document.Yaml
