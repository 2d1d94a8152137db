import AlgorithmPortfolio.Slot.Basic

/-!
# What callers do with slots

Between the calls of a schedule anyone may change slots. Which slot it is and how often it was
handed out is beyond them: only the schedule counts that.

- `Slot.Operation`: the changes that callers have, with their arguments.
- `Slot.Operation.apply`: the slot after a change.
- `slot_engineOrCreate`: when a slot gets an engine. Of what is around a factory, its answer is
  all that matters to the slot.
- `exists_apply`: everything that an operation can write. What becomes of a limit, of the
  recorded targets and of a measurement is read off it (`limit_apply`, `progressed_apply`,
  `progress_apply`).
- `progressed_apply_of_unreset`: an operation that is no reset adds to the recorded targets.
- `Slot.account`: identifier and number of dispatches, which no operation changes
  (`account_apply`).
-/

namespace AlgorithmPortfolio.Slot

/-- A change that a caller makes to a slot. -/
inductive Operation (α : Type)
  | adapt (seconds : Int)
  | reset
  | setProgress (progress : α)
  | refresh (engines : Engines α)
  | record (targets : List Nat)
  | startTimer (now : Nat)
  | stopTimer (now : Nat)
  | attach (engine : String)
  | create (tree : Storage.Tree) (globals : Options) (schedulerKeys : List String)
    (answer : String → Options → Except PortfolioError String)
  | openTargets (engines : Engines α)

variable {α : Type} [Arith α]

/-- The slot after a change. -/
def Operation.apply (slot : Slot α) : Operation α → Slot α
  | .adapt seconds => slot.adapt seconds
  | .reset => slot.reset
  | .setProgress progress => slot.setProgress progress
  | .refresh engines => (slot.refresh engines).2
  | .record targets => slot.record targets
  | .startTimer now => slot.startTimer now
  | .stopTimer now => slot.stopTimer now
  | .attach engine => slot.attach engine
  | .create tree globals schedulerKeys answer =>
    (slot.engineOrCreate tree globals schedulerKeys
      (fun id options () => (answer id options, ())) ()).2.1
  | .openTargets engines => (slot.openTargets engines).2

omit [Arith α] in
/-- A slot gets an engine if it has none, its options can be read and the factory makes one. -/
theorem slot_engineOrCreate {φ : Type} (tree : Storage.Tree) (globals : Options)
    (schedulerKeys : List String) (factory : EngineFactory φ) (slot : Slot α) (around : φ) :
    (slot.engineOrCreate tree globals schedulerKeys factory around).2.1 =
      match slot.engine, Options.isolated tree globals schedulerKeys slot.config with
      | none, .ok options =>
        match (factory slot.id options around).1 with
        | .ok engine => { slot with engine := some engine }
        | .error _ => slot
      | _, _ => slot := by
  unfold engineOrCreate
  cases slot.engine with
  | some engine => rfl
  | none =>
    cases Options.isolated tree globals schedulerKeys slot.config with
    | error cause => rfl
    | ok options =>
      dsimp only
      rcases factory slot.id options around with ⟨answer, after⟩
      cases answer with
      | error cause => rfl
      | ok engine => rfl

/-! ## What operations write -/

/-- Whether an operation sets or drops the measurement of a slot. -/
def Operation.measures : Operation α → Bool
  | .reset | .setProgress _ | .refresh _ => true
  | _ => false

/-- The limit that an operation leaves. -/
def Operation.limitAfter (slot : Slot α) : Operation α → Nat
  | .adapt seconds => clampLimit seconds
  | _ => slot.limit

/-- The recorded targets that an operation leaves. -/
def Operation.progressedAfter (slot : Slot α) : Operation α → List Nat
  | .reset => []
  | .record targets => slot.progressed ++ targets
  | _ => slot.progressed

/-- Whether an operation drops the recorded targets of a slot. -/
def Operation.resets : Operation α → Bool
  | .reset => true
  | _ => false

/-- The targets that an operation records. -/
def Operation.records : Operation α → List Nat
  | .record targets => targets
  | _ => []

/-- An operation leaves a limit and recorded targets as above, and apart from that writes the
stopwatch, the measurement, the engine or the listed targets. -/
theorem exists_apply (slot : Slot α) (operation : Operation α) :
    ∃ stopwatch progress engine listed,
      operation.apply slot = { slot with
        limit := operation.limitAfter slot
        progressed := operation.progressedAfter slot
        stopwatch, progress, engine, listed } ∧
      (operation.measures = false → progress = slot.progress) := by
  -- a case for each operation, with what it measures or lists left open
  cases operation with
  | refresh engines =>
    rw [Operation.apply, refresh]
    split
    · exact ⟨_, _, _, _, rfl, fun h => nomatch h⟩
    · exact ⟨_, _, _, _, rfl, fun h => nomatch h⟩
  | create tree globals schedulerKeys answer =>
    rw [Operation.apply, slot_engineOrCreate]
    split
    · split
      · exact ⟨_, _, _, _, rfl, fun _ => rfl⟩
      · exact ⟨_, _, _, _, rfl, fun _ => rfl⟩
    · exact ⟨_, _, _, _, rfl, fun _ => rfl⟩
  | openTargets engines =>
    rw [Operation.apply, openTargets]
    cases slot.engine.bind fun engine => (engines engine).targets with
    | none => exact ⟨_, _, _, _, rfl, fun _ => rfl⟩
    | some targets => exact ⟨_, _, _, _, rfl, fun _ => rfl⟩
  | reset => exact ⟨_, _, _, _, rfl, fun h => nomatch h⟩
  | setProgress progress => exact ⟨_, _, _, _, rfl, fun h => nomatch h⟩
  | _ => exact ⟨_, _, _, _, rfl, fun _ => rfl⟩

theorem limit_apply (slot : Slot α) (operation : Operation α) :
    (operation.apply slot).limit = operation.limitAfter slot := by
  obtain ⟨_, _, _, _, h, -⟩ := exists_apply slot operation
  rw [h]

theorem progressed_apply (slot : Slot α) (operation : Operation α) :
    (operation.apply slot).progressed = operation.progressedAfter slot := by
  obtain ⟨_, _, _, _, h, -⟩ := exists_apply slot operation
  rw [h]

/-- An operation that is no reset adds to the recorded targets. -/
theorem progressed_apply_of_unreset (slot : Slot α) {operation : Operation α}
    (h : operation.resets = false) :
    (operation.apply slot).progressed = slot.progressed ++ operation.records := by
  rw [progressed_apply]
  cases operation with
  | reset => cases h
  | record targets => rfl
  | _ => exact (List.append_nil _).symm

/-- An operation that does not measure keeps the measurement. -/
theorem progress_apply (slot : Slot α) {operation : Operation α} (h : operation.measures = false) :
    (operation.apply slot).progress = slot.progress := by
  obtain ⟨_, _, _, _, happly, hprogress⟩ := exists_apply slot operation
  rw [happly]
  exact hprogress h

omit [Arith α] in
/-- An operation keeps the limit or sets one that is not below the floor. -/
theorem limitAfter_cases (slot : Slot α) (operation : Operation α) :
    operation.limitAfter slot = slot.limit ∨ limitFloor ≤ operation.limitAfter slot := by
  cases operation with
  | adapt seconds => exact .inr (floor_le_limit_adapt seconds slot)
  | _ => exact .inl rfl

/-! ## Accounts -/

/-- The identifier of a slot and how often it was handed out. -/
def account (slot : Slot α) : String × Nat := (slot.id, slot.dispatches)

omit [Arith α] in
/-- A slot that is handed out is the same slot, once more. -/
theorem account_dispatch (slot : Slot α) : slot.dispatch.account = (slot.id, slot.dispatches + 1) :=
  rfl

/-- No operation changes the account. -/
theorem account_apply (slot : Slot α) (operation : Operation α) :
    (operation.apply slot).account = slot.account := by
  obtain ⟨_, _, _, _, h, -⟩ := exists_apply slot operation
  rw [h]
  rfl

theorem id_apply (slot : Slot α) (operation : Operation α) : (operation.apply slot).id = slot.id :=
  congrArg Prod.fst (account_apply slot operation)

end AlgorithmPortfolio.Slot
