import AlgorithmPortfolio.Binary64.Text

/-!
# Schedule reports

Totals per slot at a moment of a schedule, and their text.

- `SlotReport`, `Report`: the totals. Times are in nanoseconds.
- `Report.total`: the time of all slots.
- `Report.text`: one line per total; times have three decimal places of a second.
-/

namespace AlgorithmPortfolio.Schedule

/-- The totals of one slot. -/
structure SlotReport where
  id : String
  limit : Nat
  timeSpent : Nat
  dispatches : Nat
  deriving DecidableEq, Repr

/-- The totals of a schedule. -/
structure Report where
  strategy : String
  dispatches : Nat
  rounds : Nat
  applied : Nat
  slots : List SlotReport
  deriving DecidableEq, Repr

namespace Report

/-- The time of all slots. -/
def total (report : Report) : Nat := (report.slots.map SlotReport.timeSpent).foldr (· + ·) 0

/-- The report with all times set to zero. -/
def withoutTimes (report : Report) : Report :=
  { report with slots := report.slots.map fun slot => { slot with timeSpent := 0 } }

/-- Nanoseconds as a number of seconds. -/
def seconds (nanoseconds : Nat) : Float :=
  Float.ofNat (nanoseconds / 1000000000) + Float.ofNat (nanoseconds % 1000000000) / 1000000000

/-- The text of a time. -/
def secondsText (nanoseconds : Nat) : String := Binary64.fixed 3 (seconds nanoseconds) ++ "s"

/-- The line of one slot. -/
def slotLine (slot : SlotReport) : String :=
  "  " ++ slot.id ++ ": limit " ++ toString slot.limit ++ "s, spent " ++
  secondsText slot.timeSpent ++
    " over " ++ toString slot.dispatches ++ " dispatches"

/-- The line of completed rounds; there is none before the first. -/
def roundLines (report : Report) : List String :=
  if report.rounds = 0 then []
  else ["  rounds: " ++ toString report.rounds ++ " (" ++ toString report.applied ++
    " reallocations applied)"]

/-- The lines of a report. -/
def lines (report : Report) : List String :=
  ["Portfolio schedule (" ++ report.strategy ++ ")",
    "  slots: " ++ toString report.slots.length,
    "  dispatches: " ++ toString report.dispatches] ++
  report.roundLines ++ report.slots.map slotLine ++
  ["  total time: " ++ secondsText report.total]

/-- The text of a report. -/
def text (report : Report) : String := "\n".intercalate report.lines

end Report

end AlgorithmPortfolio.Schedule
