import AlgorithmPortfolio.Document.Reader

/-!
# Dates and times in TOML documents

A moment is a date, a time, or both with or without an offset from universal time. Its text is
put into one written form: a `T` between date and time, a `Z` for no offset, at most nine digits
of a fraction of a second and none of them a zero at the end.

- `date`, `time`, `offset`: the parts.
- `moment`: a whole moment.
-/

namespace AlgorithmPortfolio.Document.Toml

open Reader

/-- A number of exactly `count` digits within bounds, as it is written. -/
def boundedDigits (count low high : Nat) : Reader (List Char) := do
  let taken ← takeExactly count Char.isDigit
  guard (low ≤ digitsValue 10 taken ∧ digitsValue 10 taken ≤ high)
  return taken

/-- Whether a year has a leap day. -/
def isLeapYear (year : Nat) : Bool := year % 4 = 0 && (year % 100 ≠ 0 || year % 400 = 0)

/-- The number of days of a month. -/
def daysOfMonth (year month : Nat) : Nat :=
  if month = 2 then (if isLeapYear year then 29 else 28)
  else if [4, 6, 9, 11].contains month then 30 else 31

/-- A date of a year, a month and a day. -/
def date : Reader (List Char) := do
  let year ← takeExactly 4 Char.isDigit
  expect '-'
  let month ← boundedDigits 2 1 12
  expect '-'
  let day ← boundedDigits 2 1 (daysOfMonth (digitsValue 10 year) (digitsValue 10 month))
  return year ++ ['-'] ++ month ++ ['-'] ++ day

/-- A fraction of a second with its point; nothing if its first nine digits are zeros. -/
def fraction : Reader (List Char) := do
  if ← eat '.' then
    let taken ← takeWhile Char.isDigit
    guard (!taken.isEmpty)
    let kept := ((taken.take 9).reverse.dropWhile (· == '0')).reverse
    return if kept.isEmpty then [] else '.' :: kept
  else return []

/-- A time of hours, minutes and seconds; a minute may have a leap second. -/
def time : Reader (List Char) := do
  let hour ← boundedDigits 2 0 23
  expect ':'
  let minute ← boundedDigits 2 0 59
  expect ':'
  let second ← boundedDigits 2 0 60
  return hour ++ [':'] ++ minute ++ [':'] ++ second ++ (← fraction)

/-- An offset from universal time, or nothing. An offset of zero is not negative. -/
def offset : Reader (List Char) := do
  if ← eatIf (fun c => c == 'Z' || c == 'z') then return ['Z']
  match ← peek with
  | some sign => do
    if sign == '+' || sign == '-' then
      let _ ← next
      let hour ← boundedDigits 2 0 23
      expect ':'
      let minute ← boundedDigits 2 0 59
      let sign := if (hour ++ minute).all (· == '0') then '+' else sign
      return sign :: hour ++ [':'] ++ minute
    else return []
  | none => return []

/-- A time after a date, with the character between them. -/
def timeAfterDate : Reader (List Char) := do
  guard (← eatIf fun c => c == 'T' || c == 't' || c == ' ')
  return ['T'] ++ (← time) ++ (← offset)

/-- A date, a time, or both. -/
def moment : Reader String :=
  (do
    let day ← date
    return String.ofList (day ++ (← timeAfterDate <|> pure []))) <|>
  (return String.ofList (← time))

end AlgorithmPortfolio.Document.Toml
