import AlgorithmPortfolio.Engine
import AlgorithmPortfolio.SlotSpec
import AlgorithmPortfolio.Stopwatch

/-!
# Slots

A slot is one configured analysis of a portfolio: its time limit, what its last run reported,
and its engine once it has one.

- `Slot`: the state of a slot.
- `Slot.adapt`: a new time limit, kept between the least and the greatest one.
- `Slot.setProgress`, `Slot.refresh`, `Slot.reset`, `Slot.record`: measurements.
- `Slot.attach`, `Slot.engineOrCreate`: a given engine and one made on demand.
- `Slot.openTargets`: the targets that the engine still has open, or else those it listed last.
- `Slot.floor_le_limit_adapt`: no new time limit is below the floor.
-/

namespace AlgorithmPortfolio

variable {α : Type}

/-- A configured analysis. Its configuration file is also its identity. -/
structure Slot (α : Type) where
  config : String
  reuse : Reuse
  /-- How many seconds one run may take. -/
  limit : Nat
  stopwatch : Stopwatch
  /-- The progress since the last reset, if it was measured. -/
  progress : Option α
  /-- The targets that runs covered since the last reset. -/
  progressed : List Nat
  /-- The name of the engine. -/
  engine : Option String
  /-- The targets that the engine listed last. -/
  listed : Option TargetSet
  /-- How often the slot was handed out. -/
  dispatches : Nat

namespace Slot

/-- The identifier of a slot. -/
def id (slot : Slot α) : String := slot.config

/-- The slot of a specification, before its first run. -/
def ofSpec (spec : SlotSpec) : Slot α where
  config := spec.config
  reuse := spec.reading.reuse
  limit := spec.reading.limit
  stopwatch := Stopwatch.fresh
  progress := none
  progressed := []
  engine := none
  listed := none
  dispatches := 0

/-! ## Time -/

/-- The nearest time limit between the least and the greatest one. -/
def clampLimit (seconds : Int) : Nat := (max (limitFloor : Int) (min seconds limitCeiling)).toNat

/-- The slot with a new time limit. -/
def adapt (seconds : Int) (slot : Slot α) : Slot α := { slot with limit := clampLimit seconds }

/-- The slot after its timer was started. -/
def startTimer (now : Nat) (slot : Slot α) : Slot α :=
  { slot with stopwatch := slot.stopwatch.start now }

/-- The slot after its timer was stopped. -/
def stopTimer (now : Nat) (slot : Slot α) : Slot α :=
  { slot with stopwatch := slot.stopwatch.stop now }

/-- The time of all runs. -/
def timeSpent (now : Nat) (slot : Slot α) : Nat := slot.stopwatch.elapsed now

/-- The slot after it was handed out once more. -/
def dispatch (slot : Slot α) : Slot α := { slot with dispatches := slot.dispatches + 1 }

theorem floor_le_clampLimit (seconds : Int) : limitFloor ≤ clampLimit seconds := by
  simp only [clampLimit]
  omega

/-- A number of seconds below the ceiling is only raised to the floor. -/
theorem clampLimit_natCast {seconds : Nat} (h : seconds ≤ limitCeiling) :
    clampLimit seconds = max limitFloor seconds := by
  simp only [clampLimit]
  omega

theorem floor_le_limit_adapt (seconds : Int) (slot : Slot α) :
    limitFloor ≤ (slot.adapt seconds).limit :=
  floor_le_clampLimit seconds

/-! ## Measurements -/

/-- The slot without measurements. -/
def reset (slot : Slot α) : Slot α := { slot with progress := none, progressed := [] }

/-- The slot with newly covered targets. -/
def record (targets : List Nat) (slot : Slot α) : Slot α :=
  { slot with progressed := slot.progressed ++ targets }

section Progress

variable [Arith α]

open Arith

/-- A measurement cut at 1. What is below 0 or no number is no measurement. -/
def measurement (progress : α) : Option α :=
  -- an undefined number is not at least 0
  if zero ≤ progress then some (if one < progress then one else progress) else none

/-- The slot with a measurement. -/
def setProgress (progress : α) (slot : Slot α) : Slot α :=
  { slot with progress := measurement progress }

/-- The progress that a controller is told: -1 stands for no measurement. -/
def shownProgress (slot : Slot α) : α := slot.progress.getD (ofInt (-1))

/-- The slot with the measurement of its engine, and that measurement. Without an engine nothing
changes. -/
def refresh (engines : Engines α) (slot : Slot α) : Option α × Slot α :=
  match slot.engine with
  | none => (none, slot)
  | some engine =>
    let slot := slot.setProgress (engines engine).progress
    (slot.progress, slot)

end Progress

/-! ## Engines -/

/-- The slot with a given engine. What another engine listed is forgotten. -/
def attach (engine : String) (slot : Slot α) : Slot α :=
  { slot with engine := some engine, listed := none }

/-- The slot's engine, which is made from the slot's options if there is none yet. If the
options cannot be read or the engine cannot be made, the slot stays as it is. -/
def engineOrCreate {φ : Type} (tree : Storage.Tree) (globals : Options)
    (schedulerKeys : List String) (create : EngineFactory φ) (slot : Slot α) (around : φ) :
    Option String × Slot α × φ :=
  match slot.engine with
  | some engine => (some engine, slot, around)
  | none =>
    match Options.isolated tree globals schedulerKeys slot.config with
    | .error _ => (none, slot, around)
    | .ok options =>
      match create slot.id options around with
      | (.ok engine, around) => (some engine, { slot with engine := some engine }, around)
      | (.error _, around) => (none, slot, around)

/-- The targets that the slot's engine has open, or those it listed last while it cannot list
them. -/
def openTargets (engines : Engines α) (slot : Slot α) : Option TargetSet × Slot α :=
  let slot := match slot.engine.bind fun engine => (engines engine).targets with
    | some targets => { slot with listed := some targets }
    | none => slot
  (slot.listed, slot)

end Slot

end AlgorithmPortfolio
