import AlgorithmPortfolio.Document.Json.Scalar

/-!
# Values of JSON documents that nobody asks for

A value that is only passed over has to be written as JSON, and that is all: numbers may have
any magnitude, escapes may name halves of characters, and lists and objects may be nested to any
depth.

- `Json.skip`: pass over a value.
-/

namespace AlgorithmPortfolio.Document.Json

open Reader

/-- Pass over the rest of a string and its closing quote. -/
def skipStringRest : Nat → Reader Unit
  | 0 => failure
  | fuel + 1 => do
    skipWhile isTextChar
    match ← next with
    | '"' => return
    | '\\' => do
      if ← eat 'u' then
        let _ ← hexUnit
      else guard ((escapes.lookup (← next)).isSome)
      skipStringRest fuel
    | _ => failure

/-- Pass over a string after its opening quote. -/
def skipString : Reader Unit := do
  skipStringRest ((← remaining).length + 1)

mutual

/-- Pass over a value after blanks. -/
def skipValue : Nat → Reader Unit
  | 0 => failure
  | fuel + 1 => do
    skipWhile isBlank
    if ← eat '"' then skipString
    else if ← eat '[' then
      skipWhile isBlank
      unless ← eat ']' do skipItems fuel
    else if ← eat '\x7b' then
      skipWhile isBlank
      unless ← eat '\x7d' do skipMembers fuel
    else if ← eatText "null" then return
    else if ← eatText "true" then return
    else if ← eatText "false" then return
    else
      let _ ← numeral

/-- Pass over the items of a list and its closing bracket. -/
def skipItems : Nat → Reader Unit
  | 0 => failure
  | fuel + 1 => do
    skipValue fuel
    skipWhile isBlank
    unless ← eat ']' do
      expect ','
      skipItems fuel

/-- Pass over the members of an object and its closing brace. -/
def skipMembers : Nat → Reader Unit
  | 0 => failure
  | fuel + 1 => do
    skipWhile isBlank
    expect '"'
    skipString
    skipWhile isBlank
    expect ':'
    skipValue fuel
    skipWhile isBlank
    unless ← eat '\x7d' do
      expect ','
      skipMembers fuel

end

/-- Pass over a value. -/
def skip : Reader Unit := do
  skipValue (2 * (← remaining).length + 2)

end AlgorithmPortfolio.Document.Json
