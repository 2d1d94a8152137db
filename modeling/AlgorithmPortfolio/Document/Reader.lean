import AlgorithmPortfolio.Binary64.Text

/-!
# Readers

A reader takes a value off the front of a list of characters, or fails.

- `Reader`: a computation on the remaining characters.
- `Reader.next`, `Reader.eat`, `Reader.expect`, `Reader.takeWhile`: the steps that readers are
  made of.
- `Reader.all`: a reader that has to use up its text.
- `digitsValue`, `hexValue?`: the value of digits.
-/

namespace AlgorithmPortfolio.Document

/-- A computation that takes a value off the front of the remaining characters, or fails. -/
abbrev Reader := StateT (List Char) Option

namespace Reader

/-- The next character, which stays. -/
def peek : Reader (Option Char) := fun cs => some (cs.head?, cs)

/-- The characters that are left. -/
def remaining : Reader (List Char) := fun cs => some (cs, cs)

/-- Take the next character. -/
def next : Reader Char
  | [] => none
  | c :: rest => some (c, rest)

/-- Take the given character if it comes next, and tell whether it did. -/
def eat (c : Char) : Reader Bool := fun cs =>
  match cs with
  | d :: rest => if d = c then some (true, rest) else some (false, cs)
  | [] => some (false, [])

/-- Take a character of a class if it comes next, and tell whether one did. -/
def eatIf (p : Char → Bool) : Reader Bool := fun cs =>
  match cs with
  | c :: rest => if p c then some (true, rest) else some (false, cs)
  | [] => some (false, [])

/-- Take the given character. -/
def expect (c : Char) : Reader Unit := do
  guard (← eat c)

/-- Take the given characters if they come next, and tell whether they did. -/
def eatText (text : String) : Reader Bool := fun cs =>
  let expected := text.toList
  if expected.isPrefixOf cs then some (true, cs.drop expected.length) else some (false, cs)

/-- Take the longest run of characters of a class. -/
def takeWhile (p : Char → Bool) : Reader (List Char) := fun cs =>
  some (cs.takeWhile p, cs.dropWhile p)

/-- Pass over the longest run of characters of a class. -/
def skipWhile (p : Char → Bool) : Reader Unit := fun cs => some ((), cs.dropWhile p)

/-- Take exactly `count` characters of a class. -/
def takeExactly (count : Nat) (p : Char → Bool) : Reader (List Char) := fun cs =>
  let taken := cs.take count
  if taken.length = count ∧ taken.all p then some (taken, cs.drop count) else none

/-- Whether nothing is left. -/
def atEnd : Reader Bool := fun cs => some (cs.isEmpty, cs)

/-- The value of a reader that uses up the whole text. -/
def all {β : Type} (reader : Reader β) (cs : List Char) : Option β :=
  match reader cs with
  | some (value, []) => some value
  | _ => none

end Reader

/-! ## Digits -/

/-- The value of a hexadecimal digit. -/
def hexValue? (c : Char) : Option Nat :=
  if '0' ≤ c ∧ c ≤ '9' then some (c.toNat - '0'.toNat)
  else if 'a' ≤ c ∧ c ≤ 'f' then some (c.toNat - 'a'.toNat + 10)
  else if 'A' ≤ c ∧ c ≤ 'F' then some (c.toNat - 'A'.toNat + 10)
  else none

/-- Whether a character is a hexadecimal digit. -/
def isHexDigit (c : Char) : Bool := (hexValue? c).isSome

/-- The value of digits in a base, the leading one first. -/
def digitsValue (base : Nat) (digits : List Char) : Nat :=
  digits.foldl (fun acc c => base * acc + (hexValue? c).getD 0) 0

/-- The character of a code point, which may be no surrogate. -/
def charOf? (code : Nat) : Option Char :=
  if h : code.isValidChar then some (Char.ofNatAux code h) else none

/-- The number written by an integer part, a fraction and an exponent. -/
def decimalFloat (whole fraction : List Char) (exponent : Int) : Float :=
  Binary64.ofDecimal (digitsValue 10 (whole ++ fraction)) (exponent - fraction.length)

end AlgorithmPortfolio.Document
