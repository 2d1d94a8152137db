/-!
# Stopwatches

A stopwatch adds up the time of any number of intervals. The time of day, in nanoseconds, is
handed to each operation.

- `Stopwatch.start`, `Stopwatch.stop`: starting a running stopwatch and stopping a standing one
  change nothing.
- `Stopwatch.elapsed`: all finished intervals and the running one.
-/

namespace AlgorithmPortfolio

/-- A stopwatch: when the running interval began, the time of the finished ones and their
number. -/
structure Stopwatch where
  started : Option Nat
  accumulated : Nat
  intervals : Nat
  deriving DecidableEq, Repr

namespace Stopwatch

/-- A stopwatch that never ran. -/
def fresh : Stopwatch := ⟨none, 0, 0⟩

instance : Inhabited Stopwatch := ⟨fresh⟩

/-- Whether an interval is running. -/
def isRunning (watch : Stopwatch) : Bool := watch.started.isSome

/-- Begin an interval. -/
def start (now : Nat) (watch : Stopwatch) : Stopwatch :=
  match watch.started with
  | none => { watch with started := some now }
  | some _ => watch

/-- End the running interval. -/
def stop (now : Nat) (watch : Stopwatch) : Stopwatch :=
  match watch.started with
  | none => watch
  | some began => ⟨none, watch.accumulated + (now - began), watch.intervals + 1⟩

/-- The time of all intervals. -/
def elapsed (now : Nat) (watch : Stopwatch) : Nat :=
  match watch.started with
  | none => watch.accumulated
  | some began => watch.accumulated + (now - began)

@[simp] theorem isRunning_start (now : Nat) (watch : Stopwatch) :
    (watch.start now).isRunning = true := by
  cases h : watch.started <;> simp [start, isRunning, h]

@[simp] theorem isRunning_stop (now : Nat) (watch : Stopwatch) :
    (watch.stop now).isRunning = false := by
  cases h : watch.started <;> simp [stop, isRunning, h]

end Stopwatch

end AlgorithmPortfolio
