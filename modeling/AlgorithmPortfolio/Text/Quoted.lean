import AlgorithmPortfolio.Text.Visible

/-!
# Quoted texts

A text between double quotes in which every character can be seen: quotes and backslashes are
escaped, and hidden characters are written by their code point.

- `quoteChar`: how one character is written.
- `quote`: the whole text.
-/

namespace AlgorithmPortfolio.Text

/-- Lower case hexadecimal digits of a number, without leading zeros. -/
def hexDigits (n : Nat) : List Char := Nat.toDigits 16 n

/-- One character of a quoted text. -/
def quoteChar (c : Char) : List Char :=
  if c = '\x00' then ['\\', '0']
  else if c = '\t' then ['\\', 't']
  else if c = '\r' then ['\\', 'r']
  else if c = '\n' then ['\\', 'n']
  else if c = '"' then ['\\', '"']
  else if c = '\\' then ['\\', '\\']
  else if isVisible c then [c]
  else ['\\', 'u', '\x7b'] ++ hexDigits c.toNat ++ ['\x7d']

/-- A text between double quotes. -/
def quote (s : String) : String :=
  String.ofList (['"'] ++ s.toList.flatMap quoteChar ++ ['"'])

end AlgorithmPortfolio.Text
