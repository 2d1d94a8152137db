import AlgorithmPortfolio.Proofs.Slot.History

/-!
# The life of a slot

A life is any sequence of what can happen to a slot. Engines answer differently at different
times, files and options change, and a factory may succeed where it failed before, so every
event brings along what it meets.

- `EngineFactory.recorded`, `Slot.calls`: a request for an engine, watched from its factory.
  Watching changes nothing (`engineOrCreate_recorded`).
- `Request`, `request_engineOrCreate`: the four ways that a request can go.
- `Slot.Event`, `Slot.run`: what happens to a slot and what it leaves.
- `Event.gives`, `engine_step`: an engine is attached, or made by a factory, or stays.
- `engine_run`: a slot that has an engine keeps it until another one is attached.
-/

namespace AlgorithmPortfolio

/-! ## Requests for an engine -/

namespace EngineFactory

/-- A call of a factory and its answer. -/
structure Call where
  id : String
  options : Options
  answer : Except PortfolioError String

/-- The factory that also writes down its calls. -/
def recorded {φ : Type} (factory : EngineFactory φ) : EngineFactory (φ × List Call) :=
  fun id options (around, calls) =>
    let (answer, after) := factory id options around
    (answer, after, calls ++ [⟨id, options, answer⟩])

/-- The factory that has an answer and nothing around it. -/
def ofAnswer (answer : String → Options → Except PortfolioError String) : EngineFactory Unit :=
  fun id options () => (answer id options, ())

/-- The engine that was made in calls of a factory. -/
def made (calls : List Call) : Option String := calls.findSome? fun call => call.answer.toOption

end EngineFactory

namespace Slot

open EngineFactory (Call made)

variable {α φ : Type}

section Request

variable (tree : Storage.Tree) (globals : Options) (schedulerKeys : List String)
  (factory : EngineFactory φ) (slot : Slot α) (around : φ)

/-- The calls of a factory when a slot is asked for its engine. -/
def calls : List Call :=
  (slot.engineOrCreate tree globals schedulerKeys factory.recorded (around, [])).2.2.2

/-- How a request for an engine goes: what the slot answers, what becomes of the slot and of
what is around, and the calls of the factory. -/
inductive Request : Option String × Slot α × φ → List Call → Prop
  | held {engine : String} (attached : slot.engine = some engine) :
      Request (some engine, slot, around) []
  | unreadable {fault : PortfolioError} (free : slot.engine = none)
    (unread : Options.isolated tree globals schedulerKeys slot.config = .error fault) :
    Request (none, slot, around) []
  | refused {options : Options} {fault : PortfolioError} {after : φ} (free : slot.engine = none)
    (read : Options.isolated tree globals schedulerKeys slot.config = .ok options)
    (asked : factory slot.id options around = (.error fault, after)) :
    Request (none, slot, after) [⟨slot.id, options, .error fault⟩]
  | made {options : Options} {engine : String} {after : φ} (free : slot.engine = none)
    (read : Options.isolated tree globals schedulerKeys slot.config = .ok options)
    (asked : factory slot.id options around = (.ok engine, after)) :
    Request (some engine, { slot with engine := some engine }, after)
      [⟨slot.id, options, .ok engine⟩]

theorem request_engineOrCreate :
    Request tree globals schedulerKeys factory slot around
      (slot.engineOrCreate tree globals schedulerKeys factory around)
      (slot.calls tree globals schedulerKeys factory around) := by
  unfold calls engineOrCreate
  -- an engine, a file that cannot be read and a factory that refuses end the request in this
  -- order
  cases hengine : slot.engine with
  | some engine => exact .held hengine
  | none =>
    cases hread : Options.isolated tree globals schedulerKeys slot.config with
    | error fault => exact .unreadable hengine hread
    | ok options =>
      simp only [EngineFactory.recorded]
      rcases hasked : factory slot.id options around with ⟨answer, after⟩
      cases answer with
      | error fault => exact .refused hengine hread hasked
      | ok engine => exact .made hengine hread hasked

/-- The record of a factory's calls changes neither the answer nor the slot nor what else is
around. -/
theorem engineOrCreate_recorded :
    slot.engineOrCreate tree globals schedulerKeys factory.recorded (around, []) =
      let (engine, after, next) := slot.engineOrCreate tree globals schedulerKeys factory around
      (engine, after, next, slot.calls tree globals schedulerKeys factory around) := by
  unfold calls engineOrCreate
  -- both sides go the same way, and the record is made by the factory alone
  cases slot.engine with
  | some engine => rfl
  | none =>
    cases Options.isolated tree globals schedulerKeys slot.config with
    | error fault => rfl
    | ok options =>
      simp only [EngineFactory.recorded]
      rcases factory slot.id options around with ⟨answer, after⟩
      cases answer with
      | error fault => rfl
      | ok engine => rfl

variable {tree globals schedulerKeys factory slot around}

/-- A request leaves the slot with the engine that was made in it, if any. -/
theorem Request.engine_eq {outcome : Option String × Slot α × φ} {calls : List Call}
    (h : Request tree globals schedulerKeys factory slot around outcome calls) :
    outcome.2.1.engine = (EngineFactory.made calls).or slot.engine := by
  cases h with
  | held => rfl
  | unreadable => rfl
  | refused => rfl
  | made => rfl

variable (tree globals schedulerKeys factory around)

/-- A slot that has an engine gives it out and asks no factory. -/
theorem engineOrCreate_of_engine {engine : String} (h : slot.engine = some engine) :
    slot.engineOrCreate tree globals schedulerKeys factory around = (some engine, slot, around) ∧
      slot.calls tree globals schedulerKeys factory around = [] := by
  constructor
  · rw [engineOrCreate, h]
  · rw [calls, engineOrCreate, h]

end Request

/-! ## Events -/

/-- What happens to a slot: someone operates on it, or it is handed out. -/
inductive Event (α : Type)
  | operate (operation : Operation α)
  | dispatch

namespace Event

/-- The engine that an event attaches by itself. -/
def attaches : Event α → Option String
  | .operate (.attach engine) => some engine
  | _ => none

/-- The calls of factories in an event. -/
def calls (slot : Slot α) : Event α → List Call
  | .operate (.create tree globals schedulerKeys answer) =>
    slot.calls tree globals schedulerKeys (.ofAnswer answer) ()
  | _ => []

/-- The engine that a slot gets in an event: an attached one, or one that a factory made. -/
def gives (slot : Slot α) (event : Event α) : Option String :=
  event.attaches.or (made (event.calls slot))

theorem calls_of_engine {slot : Slot α} {engine : String} (h : slot.engine = some engine)
    (event : Event α) : event.calls slot = [] := by
  cases event with
  | dispatch => rfl
  | operate operation =>
    cases operation with
    | create tree globals schedulerKeys answer =>
      exact (engineOrCreate_of_engine tree globals schedulerKeys (.ofAnswer answer) () h).2
    | _ => rfl

/-- A slot that has an engine gets another one only if it is attached. -/
theorem gives_of_engine {slot : Slot α} {engine : String} (h : slot.engine = some engine)
    (event : Event α) : event.gives slot = event.attaches := by
  rw [gives, calls_of_engine h]
  exact Option.or_none

variable [Arith α]

/-- The slot after an event. -/
def step (slot : Slot α) : Event α → Slot α
  | .operate operation => operation.apply slot
  | .dispatch => slot.dispatch

end Event

variable [Arith α]

/-- The slot after events. -/
def run (events : List (Event α)) (slot : Slot α) : Slot α := events.foldl Event.step slot

theorem run_concat (events : List (Event α)) (event : Event α) (slot : Slot α) :
    run (events ++ [event]) slot = event.step (run events slot) :=
  List.foldl_concat Event.step slot event events

/-! ## Engines -/

/-- An event gives the slot an engine or leaves it the one it has. -/
theorem engine_step (slot : Slot α) (event : Event α) :
    (event.step slot).engine = (event.gives slot).or slot.engine := by
  cases event with
  | dispatch => rfl
  | operate operation =>
    cases operation with
    | create tree globals schedulerKeys answer =>
      exact (request_engineOrCreate tree globals schedulerKeys (.ofAnswer answer) slot ()).engine_eq
    | refresh engines =>
      rw [Event.step, Operation.apply, refresh]
      split
      · rfl
      · rfl
    | openTargets engines =>
      rw [Event.step, Operation.apply, openTargets_eq]
      rfl
    | _ => rfl

/-- A slot that has an engine keeps it until another one is attached. -/
theorem engine_run {slot : Slot α} {engine : String} (h : slot.engine = some engine)
    (events : List (Event α)) :
    (run events slot).engine = some ((events.filterMap Event.attaches).getLast?.getD engine) := by
  induction events generalizing slot engine with
  | nil => exact h
  | cons event rest ih =>
    have hstep := engine_step slot event
    rw [Event.gives_of_engine h, h] at hstep
    cases hattached : event.attaches with
    -- what does not attach an engine keeps the one it finds
    | none =>
      rw [hattached, Option.none_or] at hstep
      rw [List.filterMap_cons_none hattached]
      exact ih hstep
    -- an attached engine replaces the one before, and later ones replace it in turn
    | some other =>
      rw [hattached, Option.some_or] at hstep
      rw [List.filterMap_cons_some hattached, List.getLast?_cons]
      exact ih hstep

end Slot

end AlgorithmPortfolio
