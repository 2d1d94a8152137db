import AlgorithmPortfolio.Document.Toml.Scalar

/-!
# Texts of TOML values

- `Toml.stringText`: a string between the plainest quotes that can hold it.
- `Toml.keyText`: a key, without quotes where it needs none.
- `Toml.valueText`: a value on one line. In a table, entries that hold tables come last.
- `Toml.withoutMoments`: a value where every moment has the form of a table.
- `Toml.elementText`: the text of a value that stands alone, where a moment has that form too.
-/

namespace AlgorithmPortfolio.Document.Toml

/-! ## Strings -/

/-- The length of the longest run of a character. -/
def longestRun (c : Char) (cs : List Char) : Nat :=
  (cs.foldl (fun (longest, current) d =>
    if d = c then (max longest (current + 1), current + 1) else (longest, 0)) (0, 0)).1

/-- Whether a character can only be written by an escape: controls except tab and line feed. -/
def needsCode (c : Char) : Bool :=
  (c.toNat < 0x20 && c != '\t' && c != '\n') || c.toNat == 0x7f

/-- Four hexadecimal digits in upper case. -/
def code4 (n : Nat) : List Char :=
  let digits := (Nat.toDigits 16 n).map Char.toUpper
  List.replicate (4 - digits.length) '0' ++ digits

/-- A character between double quotes. A line feed stays as it is if `multiline` says so. -/
def escaped (multiline : Bool) (c : Char) : List Char :=
  if c = '\x08' then ['\\', 'b']
  else if c = '\t' then ['\\', 't']
  else if c = '\n' then (if multiline then ['\n'] else ['\\', 'n'])
  else if c = '\x0c' then ['\\', 'f']
  else if c = '\r' then ['\\', 'r']
  else if c = '\\' then ['\\', '\\']
  else if needsCode c then '\\' :: 'u' :: code4 c.toNat
  else [c]

/-- Characters between double quotes, where each quote after `allowed` others is escaped. -/
def escapedAll (multiline : Bool) (allowed : Nat) (run : Nat) : List Char → List Char
  | [] => []
  | c :: rest =>
    if c = '"' then
      if run < allowed then c :: escapedAll multiline allowed (run + 1) rest
      else '\\' :: c :: escapedAll multiline allowed 0 rest
    else escaped multiline c ++ escapedAll multiline allowed 0 rest

/-- The text of a string: between double quotes if it needs no escape, else between single
quotes, else as a string of several lines, and with escapes only where nothing else is left. -/
def stringText (s : String) : String :=
  let cs := s.toList
  let controls := cs.any needsCode
  let backslash := cs.contains '\\'
  let linefeed := cs.contains '\n'
  let double := longestRun '"' cs
  let single := longestRun '\'' cs
  let start := if linefeed then ['\n'] else []
  let three (quote : Char) (body : List Char) :=
    List.replicate 3 quote ++ start ++ body ++ List.replicate 3 quote
  String.ofList <|
    if !controls && !backslash && !linefeed && double = 0 then
      ['"'] ++ escapedAll false 0 0 cs ++ ['"']
    else if !controls && !linefeed && single = 0 then ['\''] ++ cs ++ ['\'']
    else if !controls && !backslash && double ≤ 2 then three '"' (escapedAll true 2 0 cs)
    else if !controls && single ≤ 2 then three '\'' cs
    else if linefeed then three '"' (escapedAll true 2 0 cs)
    else ['"'] ++ escapedAll false 0 0 cs ++ ['"']

/-- The text of a key. -/
def keyText (key : String) : String :=
  let cs := key.toList
  if !cs.isEmpty && cs.all isBareKeyChar then key
  else
    let controls := cs.any fun c => needsCode c || c == '\n'
    if !controls && !cs.contains '\\' && !cs.contains '"' then
      String.ofList (['"'] ++ escapedAll false 0 0 cs ++ ['"'])
    else if !controls && !cs.contains '\'' then String.ofList (['\''] ++ cs ++ ['\''])
    else String.ofList (['"'] ++ escapedAll false 0 0 cs ++ ['"'])

/-! ## Values -/

/-- Whether a value is a table. -/
def isTable : Value → Bool
  | .table _ => true
  | _ => false

/-- Where an entry of a table is written: with the plain values, the lists of tables or the
tables. -/
def entryGroup : Value → Nat
  | .table _ => 2
  | .list items => if items.any isTable then 1 else 0
  | _ => 0

/-- Entry texts, each with its group, in the order in which they are written. -/
def inWrittenOrder (entries : List (Nat × String)) : List String :=
  [0, 1, 2].flatMap fun group => (entries.filter (·.1 = group)).map Prod.snd

/-- A list of texts between brackets. -/
def listText (items : List String) : String := "[" ++ ", ".intercalate items ++ "]"

/-- A list of entry texts between braces. -/
def tableText (entries : List String) : String :=
  if entries.isEmpty then "\x7b\x7d" else "\x7b " ++ ", ".intercalate entries ++ " \x7d"

mutual

/-- The text of a value on one line. -/
def valueText : Value → String
  | .null => ""
  | .bool b => if b then "true" else "false"
  | .integer i => toString i
  | .float x => Binary64.positional x
  | .text s => stringText s
  | .character c => stringText (String.singleton c)
  | .moment s => s
  | .list items => listText (itemTexts items)
  | .table entries => tableText (inWrittenOrder (entryTexts entries))

/-- The texts of items. -/
def itemTexts : List Value → List String
  | [] => []
  | item :: rest => valueText item :: itemTexts rest

/-- The texts of entries, each with its group. -/
def entryTexts : List (String × Value) → List (Nat × String)
  | [] => []
  | (key, value) :: rest =>
    (entryGroup value, keyText key ++ " = " ++ valueText value) :: entryTexts rest

end

/-- The key of a moment in the form of a table. -/
def momentKey : String := "$__toml_private_datetime"

mutual

/-- The value with every moment in the form of a table. -/
def withoutMoments : Value → Value
  | .moment s => .single momentKey (.text s)
  | .list items => .list (itemsWithoutMoments items)
  | .table entries => .table (entriesWithoutMoments entries)
  | .null => .null
  | .bool b => .bool b
  | .integer i => .integer i
  | .float x => .float x
  | .text s => .text s
  | .character c => .character c

/-- The items with every moment in the form of a table. -/
def itemsWithoutMoments : List Value → List Value
  | [] => []
  | item :: rest => withoutMoments item :: itemsWithoutMoments rest

/-- The entries with every moment in the form of a table. -/
def entriesWithoutMoments : List (String × Value) → List (String × Value)
  | [] => []
  | (key, value) :: rest => (key, withoutMoments value) :: entriesWithoutMoments rest

end

/-- The text of a value that stands alone. -/
def elementText : Value → String
  | .moment s => tableText [keyText momentKey ++ " = " ++ stringText s]
  | v => valueText v

end AlgorithmPortfolio.Document.Toml
