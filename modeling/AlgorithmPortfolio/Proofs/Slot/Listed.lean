import AlgorithmPortfolio.Proofs.Slot.Life
import Mathlib.Data.List.Induction

/-!
# What the engine of a slot listed last

A slot remembers the targets that its engine listed last, for the times when the engine cannot
list them. Attaching an engine makes the slot forget them, and making one does not: there is
nothing to forget then.

- `Event.lists`, `listed_step`: what becomes of the remembered targets in an event.
- `Clean`, `clean_run`: without an engine nothing is remembered.
- `Tenure`: the events since a slot got the engine that it has. There is a tenure whenever there
  is an engine (`exists_tenure`).
- `Tenure.listed_run`: the last set that the engine listed in its tenure is remembered, and
  nothing else.
- `openTargets_of_tenure`: the targets that a slot gives out.
-/

namespace AlgorithmPortfolio.Slot

variable {α : Type}

/-! ## Remembered targets -/

/-- The targets that an engine lists when it is asked for them in an event. -/
def Event.lists (engine : String) : Event α → Option TargetSet
  | .operate (.openTargets engines) => (engines engine).targets
  | _ => none

/-- Nothing is remembered without an engine. -/
def Clean (slot : Slot α) : Prop := slot.engine = none → slot.listed = none

theorem clean_ofSpec (spec : SlotSpec) : Clean (ofSpec spec : Slot α) := fun _ => rfl

variable [Arith α]

/-- An attached engine has listed nothing yet. Otherwise what the engine lists is remembered,
and what was remembered if it lists nothing. -/
theorem listed_step (slot : Slot α) (event : Event α) :
    (event.step slot).listed = match event.attaches with
      | some _ => none
      | none => (slot.engine.bind fun engine => event.lists engine).or slot.listed := by
  -- an event that lists nothing keeps what was listed before
  have hsilent : (slot.engine.bind fun _ => (none : Option TargetSet)).or slot.listed =
      slot.listed := by
    rw [Option.bind_fun_none, Option.none_or]
  cases event with
  | dispatch => exact hsilent.symm
  | operate operation =>
    cases operation with
    | attach engine => rfl
    | create tree globals schedulerKeys answer =>
      refine Eq.trans ?_ hsilent.symm
      rw [Event.step, Operation.apply, slot_engineOrCreate]
      split
      · split
        · rfl
        · rfl
      · rfl
    | refresh engines =>
      refine Eq.trans ?_ hsilent.symm
      rw [Event.step, Operation.apply, refresh]
      split
      · rfl
      · rfl
    -- only a query for the open targets writes the list
    | openTargets engines =>
      rw [Event.step, Operation.apply, openTargets_eq]
      rfl
    | _ => exact hsilent.symm

theorem clean_step {slot : Slot α} (h : Clean slot) (event : Event α) :
    Clean (event.step slot) := by
  intro hfree
  rw [engine_step, Option.or_eq_none_iff, Event.gives, Option.or_eq_none_iff] at hfree
  obtain ⟨⟨hattaches, -⟩, hengine⟩ := hfree
  rw [listed_step, hattaches, hengine]
  exact h hengine

theorem clean_run {slot : Slot α} (h : Clean slot) (events : List (Event α)) :
    Clean (run events slot) :=
  List.foldlRecOn events Event.step h fun _ hreached event _ => clean_step hreached event

/-- Nothing is remembered of a former engine. -/
theorem listed_of_gives {slot : Slot α} (h : Clean slot) {event : Event α} {engine : String}
    (given : event.gives slot = some engine) : (event.step slot).listed = none := by
  rw [listed_step]
  cases hattaches : event.attaches with
  | some _ => rfl
  | none =>
    -- only a slot without an engine has one made
    have hfree : slot.engine = none := by
      by_contra hengine
      obtain ⟨former, hformer⟩ := Option.ne_none_iff_exists'.mp hengine
      rw [Event.gives_of_engine hformer, hattaches] at given
      cases given
    rw [hfree]
    exact h hfree

/-! ## Tenures -/

/-- Of the events so far, those since a slot got the engine that it has. -/
inductive Tenure (first : Slot α) : List (Event α) → String → List (Event α) → Prop
  | begins (before : List (Event α)) (event : Event α) {engine : String}
    (given : event.gives (run before first) = some engine) :
      Tenure first (before ++ [event]) engine []
  | lasts {events since : List (Event α)} {engine : String}
      (tenure : Tenure first events engine since)
    (event : Event α) (kept : event.gives (run events first) = none) :
    Tenure first (events ++ [event]) engine (since ++ [event])

variable {first : Slot α}

/-- An engine that a slot did not have at first was given to it. -/
theorem exists_tenure (h : first.engine = none) {events : List (Event α)} {engine : String}
    (hengine : (run events first).engine = some engine) :
    ∃ since, Tenure first events engine since := by
  -- from the end: the last event that gave an engine is the one that begins the tenure
  induction events using List.reverseRecOn with
  | nil => exact absurd (h.symm.trans hengine) nofun
  | append_singleton events event ih =>
    rw [run_concat, engine_step] at hengine
    cases hgives : event.gives (run events first) with
    | some given =>
      rw [hgives, Option.some_or] at hengine
      cases hengine
      exact ⟨[], .begins events event hgives⟩
    | none =>
      rw [hgives, Option.none_or] at hengine
      obtain ⟨since, htenure⟩ := ih hengine
      exact ⟨since ++ [event], htenure.lasts event hgives⟩

namespace Tenure

variable {events since : List (Event α)} {engine : String}

theorem engine_run (h : Tenure first events engine since) :
    (run events first).engine = some engine := by
  induction h with
  | begins before event given => rw [run_concat, engine_step, given, Option.some_or]
  | lasts _ event kept ih => rw [run_concat, engine_step, kept, Option.none_or, ih]

/-- The last set that the engine listed in its tenure is remembered, and nothing else. -/
theorem listed_run (h : Tenure first events engine since) (clean : Clean first) :
    (run events first).listed = (since.filterMap (Event.lists engine)).getLast? := by
  -- the list starts empty with the engine and ends as the last answer that the engine gave
  induction h with
  | begins before event given =>
    rw [run_concat]
    exact listed_of_gives (clean_run clean before) given
  | @lasts events since engine tenure event kept ih =>
    rw [Event.gives, Option.or_eq_none_iff] at kept
    calc (run (events ++ [event]) first).listed
      -- the event is no attachment, and the engine of the tenure is the one that it asks
      _ = (event.lists engine).or (run events first).listed := by
        rw [run_concat, listed_step, kept.1, tenure.engine_run]
        rfl
      _ = ([event].filterMap (Event.lists engine)).getLast?.or
        (since.filterMap (Event.lists engine)).getLast? := by
        rw [ih]
        cases hlists : event.lists engine with
        | none => rw [List.filterMap_cons_none hlists, List.filterMap_nil, List.getLast?_nil]
        | some targets =>
          rw [List.filterMap_cons_some hlists, List.filterMap_nil, List.getLast?_singleton]
      _ = ((since ++ [event]).filterMap (Event.lists engine)).getLast? := by
        rw [List.filterMap_append, List.getLast?_append]

end Tenure

/-- **The targets that a slot gives out**, after any events and whatever the engines answer by
then. A slot without an engine remembers no targets and has none to give. An engine that the
slot has was given to it by one of the events, and if it cannot list its targets now, then the
last set that it listed since then is given out, or nothing if there is no such set. -/
theorem openTargets_of_tenure (spec : SlotSpec) (events : List (Event α)) (engines : Engines α) :
    let first : Slot α := ofSpec spec
    let slot := run events first
    (slot.engine = none → slot.listed = none ∧ (slot.openTargets engines).1 = none) ∧
      (∀ engine, slot.engine = some engine → ∃ since, Tenure first events engine since) ∧
      ∀ engine since, Tenure first events engine since →
        slot.engine = some engine ∧ slot.listed = (since.filterMap (Event.lists engine)).getLast? ∧
          (slot.openTargets engines).1 =
            (engines engine).targets.or (since.filterMap (Event.lists engine)).getLast? := by
  intro first slot
  refine ⟨fun hfree => ?_, fun engine => exists_tenure rfl, fun engine since htenure => ?_⟩
  · -- a slot that never had an engine was never told of targets
    have hlisted := clean_run (clean_ofSpec spec) events hfree
    refine ⟨hlisted, ?_⟩
    rw [openTargets_eq, coverage, hfree, hlisted]
    rfl
  · have hengine := htenure.engine_run
    have hlisted := htenure.listed_run (clean_ofSpec spec)
    refine ⟨hengine, hlisted, ?_⟩
    rw [openTargets_eq, coverage, hengine, hlisted]
    rfl

/-- A slot is asked for its targets before its engine listed any, after a reset, and after the
engine was replaced by one that lists nothing. -/
theorem openTargets_of_tenure_replaced :
    let lists (targets : List Nat) : Engines Float := fun name =>
      ⟨if name = "a" then some (.ofList targets) else none, 0⟩
    let silent : Engines Float := fun _ => ⟨none, 0⟩
    let first : Slot Float := ofSpec ⟨"s.toml", none⟩
    let attach : List (Event Float) := [.operate (.attach "a"), .operate (.openTargets silent)]
    let query : List (Event Float) :=
      [.operate (.openTargets (lists [1, 2])), .operate (.openTargets (lists [2])), .operate .reset]
    let replace : List (Event Float) := [.operate (.attach "b")]
    ((run attach first).openTargets silent).1 = none ∧
      ((run (attach ++ query) first).openTargets silent).1 = some (.ofList [2]) ∧
      ((run (attach ++ query ++ replace) first).openTargets (lists [1, 2])).1 = none := by
  intro lists silent first attach query replace
  have hattached : Tenure first attach "a" [.operate (.openTargets silent)] :=
    .lasts (.begins [] _ rfl) _ rfl
  have hqueried : Tenure first (attach ++ query) "a" (.operate (.openTargets silent) :: query) :=
    ((hattached.lasts _ rfl).lasts _ rfl).lasts _ rfl
  have hreplaced : Tenure first (attach ++ query ++ replace) "b" [] :=
    .begins (attach ++ query) _ rfl
  refine ⟨?_, ?_, ?_⟩
  · exact ((openTargets_of_tenure ⟨"s.toml", none⟩ attach silent).2.2 "a" _ hattached).2.2
  · exact ((openTargets_of_tenure ⟨"s.toml", none⟩ (attach ++ query) silent).2.2 "a" _ hqueried).2.2
  · exact ((openTargets_of_tenure ⟨"s.toml", none⟩ (attach ++ query ++ replace)
      (lists [1, 2])).2.2 "b" _ hreplaced).2.2

end AlgorithmPortfolio.Slot
