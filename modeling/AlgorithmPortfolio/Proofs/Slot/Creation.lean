import AlgorithmPortfolio.Proofs.Slot.Life

/-!
# How a slot gets its engine

A slot makes its engine when it is first asked for it. Its file may be missing by then, or the
factory may refuse: then the next request tries again, with whatever it is given. After an
engine was made or attached, no request tries anymore.

- `Retriable`, `retriable_engineOrCreate`: what a request asks of the factory, when it fails and
  what it changes.
- `callsIn`: the calls of factories in any number of events. None comes after a slot got an
  engine (`callsIn_of_engine`), and all of them failed but perhaps the last one
  (`exists_callsIn_eq`).
- `engine_created_once`: requests after any events.
-/

namespace AlgorithmPortfolio.Slot

open EngineFactory (Call made)

variable {α φ : Type}

/-! ## One request -/

section Request

variable {tree : Storage.Tree} {globals : Options} {schedulerKeys : List String}
  {factory : EngineFactory φ} {slot : Slot α} {around : φ}
  {outcome : Option String × Slot α × φ} {calls : List Call}

namespace Request

theorem asks_iff (h : Request tree globals schedulerKeys factory slot around outcome calls) :
    calls ≠ [] ↔
      slot.engine = none ∧
      ∃ options, Options.isolated tree globals schedulerKeys slot.config = .ok options := by
  cases h with
  | held attached => simp [attached]
  | unreadable free unread => simp [unread]
  | refused free read asked => simp [free, read]
  | made free read asked => simp [free, read]

theorem calls_eq (h : Request tree globals schedulerKeys factory slot around outcome calls)
    {options : Options} (hfree : slot.engine = none)
    (hread : Options.isolated tree globals schedulerKeys slot.config = .ok options) :
    calls = [⟨slot.id, options, (factory slot.id options around).1⟩] := by
  cases h with
  | held attached => cases attached.symm.trans hfree
  | unreadable free unread => cases unread.symm.trans hread
  | refused free read asked =>
    obtain rfl := Except.ok.inj (read.symm.trans hread)
    rw [asked]
  | made free read asked =>
    obtain rfl := Except.ok.inj (read.symm.trans hread)
    rw [asked]

theorem fails_iff (h : Request tree globals schedulerKeys factory slot around outcome calls) :
    outcome.1 = none ↔
      slot.engine = none ∧
      ((∃ fault, Options.isolated tree globals schedulerKeys slot.config = .error fault) ∨
        ∃ call ∈ calls, ∃ fault, call.answer = .error fault) := by
  cases h with
  | held attached => simp [attached]
  | unreadable free unread => simp [free, unread]
  | refused free read asked => simp [free]
  | made free read asked => simp [read]

theorem slot_eq_of_none (h : Request tree globals schedulerKeys factory slot around outcome calls)
    (hnone : outcome.1 = none) : outcome.2.1 = slot := by
  cases h with
  | held attached => cases hnone
  | unreadable free unread => rfl
  | refused free read asked => rfl
  | made free read asked => cases hnone

theorem slot_eq_of_some
    (h : Request tree globals schedulerKeys factory slot around outcome calls) {engine : String}
    (hsome : outcome.1 = some engine) : outcome.2.1 = { slot with engine := some engine } := by
  cases h with
  | held attached =>
    obtain rfl := Option.some.inj hsome
    rw [← attached]
  | unreadable free unread => cases hsome
  | refused free read asked => cases hsome
  | made free read asked =>
    obtain rfl := Option.some.inj hsome
    rfl

theorem calls_cases (h : Request tree globals schedulerKeys factory slot around outcome calls) :
    calls = [] ∨ ∃ call, calls = [call] := by
  cases h with
  | held => exact .inl rfl
  | unreadable => exact .inl rfl
  | refused => exact .inr ⟨_, rfl⟩
  | made => exact .inr ⟨_, rfl⟩

end Request

variable (tree globals schedulerKeys factory slot around)

/-- A request for an engine, which goes the same way when its calls are watched, asks the
factory once if the slot has no engine and its options can be read, and not at all otherwise. If
the options cannot be read or the factory fails, then the request fails and leaves the slot as
it was, so the next one can succeed. If it succeeds, then it writes the engine that it gives
out, and nothing else. -/
structure Retriable : Prop where
  watched : slot.engineOrCreate tree globals schedulerKeys factory.recorded (around, []) =
    let (engine, after, next) := slot.engineOrCreate tree globals schedulerKeys factory around
    (engine, after, next, slot.calls tree globals schedulerKeys factory around)
  asks_iff : slot.calls tree globals schedulerKeys factory around ≠ [] ↔
    slot.engine = none ∧
    ∃ options, Options.isolated tree globals schedulerKeys slot.config = .ok options
  asks_with : ∀ options, slot.engine = none →
    Options.isolated tree globals schedulerKeys slot.config = .ok options →
      slot.calls tree globals schedulerKeys factory around =
        [⟨slot.id, options, (factory slot.id options around).1⟩]
  fails_iff : (slot.engineOrCreate tree globals schedulerKeys factory around).1 = none ↔
    slot.engine = none ∧
    ((∃ fault, Options.isolated tree globals schedulerKeys slot.config = .error fault) ∨
      ∃ call ∈ slot.calls tree globals schedulerKeys factory around, ∃ fault, call.answer =
        .error fault)
  unchanged : (slot.engineOrCreate tree globals schedulerKeys factory around).1 = none →
    (slot.engineOrCreate tree globals schedulerKeys factory around).2.1 = slot
  written : ∀ engine,
    (slot.engineOrCreate tree globals schedulerKeys factory around).1 = some engine →
    (slot.engineOrCreate tree globals schedulerKeys factory around).2.1 =
      { slot with engine := some engine }

theorem retriable_engineOrCreate : Retriable tree globals schedulerKeys factory slot around := by
  have h := request_engineOrCreate tree globals schedulerKeys factory slot around
  exact {
    watched := engineOrCreate_recorded tree globals schedulerKeys factory slot around
    asks_iff := h.asks_iff
    asks_with := fun _ => h.calls_eq
    fails_iff := h.fails_iff
    unchanged := h.slot_eq_of_none
    written := fun _ => h.slot_eq_of_some }

end Request

/-! ## All requests -/

/-- An event asks at most one factory. -/
theorem Event.calls_cases (slot : Slot α) (event : Event α) :
    event.calls slot = [] ∨ ∃ call, event.calls slot = [call] := by
  cases event with
  | dispatch => exact .inl rfl
  | operate operation =>
    cases operation with
    | create tree globals schedulerKeys answer =>
      exact
        (request_engineOrCreate tree globals schedulerKeys (.ofAnswer answer) slot ()).calls_cases
    | _ => exact .inl rfl

/-- An event that gives the slot no engine has failed calls only. -/
theorem Event.failed_of_gives {slot : Slot α} {event : Event α} (h : event.gives slot = none) :
    ∀ call ∈ event.calls slot, ∃ fault, call.answer = .error fault := by
  intro call hcall
  rw [gives, Option.or_eq_none_iff, made, List.findSome?_eq_none_iff] at h
  have hnone := h.2 call hcall
  cases hanswer : call.answer with
  | error fault => exact ⟨fault, rfl⟩
  | ok engine =>
    rw [hanswer] at hnone
    cases hnone

variable [Arith α]

/-- The calls of factories in events. -/
def callsIn : List (Event α) → Slot α → List Call
  | [], _ => []
  | event :: rest, slot => event.calls slot ++ callsIn rest (event.step slot)

/-- After a slot got an engine no factory is asked. -/
theorem callsIn_of_engine {slot : Slot α} {engine : String} (h : slot.engine = some engine)
    (events : List (Event α)) : callsIn events slot = [] := by
  induction events generalizing slot engine with
  | nil => rfl
  | cons event rest ih =>
    have hstep : (event.step slot).engine = some _ := engine_run h [event]
    rw [callsIn, Event.calls_of_engine h, ih hstep]
    rfl

/-- Factories are asked until one makes an engine, which ends it. -/
theorem exists_callsIn_eq (events : List (Event α)) (slot : Slot α) :
    ∃ (failures : List Call) (success : Option Call),
      callsIn events slot = failures ++ success.toList ∧
      (∀ call ∈ failures, ∃ fault, call.answer = .error fault) ∧
      ∀ call ∈ success, ∃ engine, call.answer = .ok engine := by
  induction events generalizing slot with
  | nil => exact ⟨[], none, rfl, by simp, by simp⟩
  | cons event rest ih =>
    rw [callsIn]
    cases hgives : event.gives slot with
    -- nobody gave an engine: what was asked here failed, before all that is asked later
    | none =>
      obtain ⟨failures, success, hrest, hfailures, hsuccess⟩ := ih (event.step slot)
      refine ⟨event.calls slot ++ failures, success, ?_, ?_, hsuccess⟩
      · rw [hrest, List.append_assoc]
      · exact List.forall_mem_append.mpr ⟨Event.failed_of_gives hgives, hfailures⟩
    | some engine =>
      -- the slot has an engine now, so nobody is asked in the other events
      have hengine : (event.step slot).engine = some engine := by
        rw [engine_step, hgives, Option.some_or]
      rw [callsIn_of_engine hengine, List.append_nil]
      -- the one call of the event, if any, is what gave the engine or an earlier failure
      rcases Event.calls_cases slot event with hcalls | ⟨call, hcalls⟩
      · exact ⟨[], none, hcalls, by simp, by simp⟩
      · cases hanswer : call.answer with
        | error fault => exact ⟨[call], none, hcalls, by simp [hanswer], by simp⟩
        | ok made => exact ⟨[], some call, hcalls, by simp, by simp [hanswer]⟩

/-- **A slot's engine is made once.** Requests can be made after any events. Each is retriable.
After an event that gave the slot an engine, whether it was attached or made, no factory was or
is asked, whatever the files, the options and the factory are by now, and the slot gives out
that engine, or the one that was attached last since then. All calls of factories failed but
perhaps the last one. -/
theorem engine_created_once (spec : SlotSpec) (events : List (Event α)) :
    let first : Slot α := ofSpec spec
    let slot := run events first
    (∀ {φ : Type} (tree : Storage.Tree) (globals : Options) (schedulerKeys : List String)
      (factory : EngineFactory φ) (around : φ),
      Retriable tree globals schedulerKeys factory slot around) ∧
      (∀ before event later engine, events = before ++ event :: later →
        event.gives (run before first) = some engine →
        callsIn later (event.step (run before first)) = [] ∧
          ∀ {φ : Type} (tree : Storage.Tree) (globals : Options) (schedulerKeys : List String)
            (factory : EngineFactory φ) (around : φ),
            slot.calls tree globals schedulerKeys factory around = [] ∧
              slot.engineOrCreate tree globals schedulerKeys factory around =
                (some ((later.filterMap Event.attaches).getLast?.getD engine), slot, around)) ∧
      ∃ (failures : List Call) (success : Option Call),
        callsIn events first = failures ++ success.toList ∧
        (∀ call ∈ failures, ∃ fault, call.answer = .error fault) ∧
        ∀ call ∈ success, ∃ engine, call.answer = .ok engine := by
  intro first slot
  -- each request is one of a slot in some state, so the runs come in with the other two parts
  refine ⟨?_, ?_, exists_callsIn_eq events first⟩
  · intro φ tree globals schedulerKeys factory around
    exact retriable_engineOrCreate tree globals schedulerKeys factory slot around
  · rintro before event later engine rfl hgives
    have hgiven : (event.step (run before first)).engine = some engine := by
      rw [engine_step, hgives, Option.some_or]
    have hengine : slot.engine = some ((later.filterMap Event.attaches).getLast?.getD engine) := by
      rw [← engine_run hgiven later]
      exact congrArg Slot.engine List.foldl_append
    refine ⟨callsIn_of_engine hgiven later, ?_⟩
    intro φ tree globals schedulerKeys factory around
    exact (engineOrCreate_of_engine tree globals schedulerKeys factory around hengine).symm

/-- The file of a slot is missing at first, then the factory refuses, then it makes an engine.
Another request does not replace it, but an attached engine does. Only the second and the third
request ask a factory. -/
theorem engine_created_once_later :
    let tree := Storage.Tree.empty.put ["s.toml"] (.file (some "depth = 3"))
    let create (tree : Storage.Tree) (answer : Except PortfolioError String) : Event Float :=
      .operate (.create tree Dict.empty [] fun _ _ => answer)
    let before := [create .empty (.ok "early"), create tree (.error (.engine "busy"))]
    let later := [.dispatch, create tree (.ok "again"), .operate (.attach "other")]
    let first : Slot Float := ofSpec ⟨"s.toml", none⟩
    let slot := run (before ++ create tree (.ok "made") :: later) first
    (create tree (.ok "made")).gives (run before first) = some "made" ∧
      callsIn later (run (before ++ [create tree (.ok "made")]) first) = [] ∧
      (callsIn (before ++ create tree (.ok "made") :: later) first).length = 2 ∧
      slot.engineOrCreate .empty Dict.empty [] (.ofAnswer fun _ _ => .ok "late") () =
        (some "other", slot, ()) := by
  intro tree create before later first slot
  have hgives : (create tree (.ok "made")).gives (run before first) = some "made" := by
    decide +kernel
  obtain ⟨hcalls, hgiven⟩ := (engine_created_once ⟨"s.toml", none⟩
    (before ++ create tree (.ok "made") :: later)).2.1 before
      (create tree (.ok "made")) later "made" rfl hgives
  exact ⟨hgives, hcalls, by decide +kernel,
    (hgiven .empty Dict.empty [] (.ofAnswer fun _ _ => .ok "late") ()).2⟩

end AlgorithmPortfolio.Slot
