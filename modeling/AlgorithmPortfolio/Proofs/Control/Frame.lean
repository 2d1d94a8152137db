import AlgorithmPortfolio.Controller.Replay
import AlgorithmPortfolio.Proofs.Control.Run
import Mathlib.Data.List.Basic

/-!
# What the call for a turn touches

A call for a turn that fails leaves everything but the controller as it was and counts a
violation if the decision named no slot. One that succeeds writes the limit and the number of
dispatches of one slot.

- `Controlled.Reachable`: the states of schedules of given slots and settings. In between,
  anybody may put the controller into any state.
- `Settled`, `Reachable.settled`: what never changes: identifiers and their index, menu and
  greatest limit.
- `next_of_error`, `next_of_ok`: the whole state after a call for a turn.
- `unknownSlot_iff`: which decisions fail.
- `Answers`, `answers_next`: what a caller gets for a decision.
- `next_touches`: all of this for every reachable state.
-/

namespace AlgorithmPortfolio.Controlled

open Portfolio (IsLast)

variable {σ α : Type} [Controller σ α] [Arith α]

/-! ## Reachable states -/

/-- A state of a schedule of slots and settings. Calls lead from one to the next, and the
controller may be in any state, whoever brought it there. -/
inductive Reachable (slots : List (Slot α)) (config : Config) : Controlled σ α → Prop
  | start {portfolio : Portfolio α} {controller : σ} {schedule : Controlled σ α} :
      Portfolio.ofSlots slots = .ok portfolio → start portfolio controller config = .ok schedule →
      Reachable slots config schedule
  | call {schedule : Controlled σ α} (event : Event α) : Reachable slots config schedule →
      Reachable slots config (event.step schedule)
  | steer {schedule : Controlled σ α} (controller : σ) : Reachable slots config schedule →
      Reachable slots config { schedule with controller }

variable {slots : List (Slot α)} {config : Config} {schedule : Controlled σ α}

theorem Reachable.run (h : Reachable slots config schedule) (events : List (Event α)) :
    Reachable slots config (run events schedule) :=
  List.foldlRecOn events Event.step h fun _ hreached event _ => hreached.call event

/-- What all states of schedules of slots with given identifiers have in common. -/
structure Settled (ids : List String) (config : Config) (schedule : Controlled σ α) : Prop where
  indexed : schedule.portfolio.Indexed ids
  menu_eq : config.menu = .ok schedule.menu
  cap_eq : schedule.maxTimePerSlot = config.maxTimePerSlot

omit [Arith α] in
theorem settled_start {portfolio : Portfolio α} {controller : σ}
    (made : Portfolio.ofSlots slots = .ok portfolio)
    (started : start portfolio controller config = .ok schedule) :
    Settled (slots.map Slot.id) config schedule := by
  obtain ⟨menu, -, hmenu, rfl⟩ := exists_of_start started
  exact ⟨Portfolio.indexed_ofSlots made, hmenu, rfl⟩

theorem settled_step {ids : List String} (h : Settled ids config schedule) (event : Event α) :
    Settled ids config (event.step schedule) := by
  have hindexed := indexed_step h.indexed event
  cases event with
  | next =>
    -- each outcome of the call writes neither the menu nor the cap
    have hkept : schedule.next.2.menu = schedule.menu ∧
        schedule.next.2.maxTimePerSlot = schedule.maxTimePerSlot := by
      rcases next_cases schedule with ⟨-, hnext⟩ | ⟨_, -, -, hnext⟩ | ⟨_, _, _, -, -, hnext⟩
      · rw [hnext]
        exact ⟨rfl, rfl⟩
      · rw [hnext]
        exact ⟨rfl, rfl⟩
      · rw [hnext]
        exact ⟨rfl, rfl⟩
    exact ⟨hindexed, hkept.1 ▸ h.menu_eq, hkept.2.trans h.cap_eq⟩
  | hasNext => exact ⟨hindexed, h.menu_eq, h.cap_eq⟩
  | setMetrics metrics => exact ⟨hindexed, h.menu_eq, h.cap_eq⟩
  | operate position operation => exact ⟨hindexed, h.menu_eq, h.cap_eq⟩

theorem Reachable.settled (h : Reachable slots config schedule) :
    Settled (slots.map Slot.id) config schedule := by
  induction h with
  | start made started => exact settled_start made started
  | call event _ ih => exact settled_step ih event
  | steer controller _ ih => exact ⟨ih.indexed, ih.menu_eq, ih.cap_eq⟩

/-! ## Failures -/

/-- How many violations of the protocol a failure counts as. -/
def violations : PortfolioError → Nat
  | .unknownSlot _ => 1
  | _ => 0

/-- A failed call for a turn is the controller's fault, and leaves nothing but that counted. -/
theorem next_of_error {cause : PortfolioError} {after : Controlled σ α}
    (h : schedule.next = (.error cause, after)) :
    (cause = .controllerExhausted ∨ ∃ id, cause = .unknownSlot id) ∧
      after = { schedule with
        controller := after.controller
        metrics := { schedule.metrics with
          violations := schedule.metrics.violations + violations cause } } := by
  rcases next_cases schedule with ⟨-, hnext⟩ | ⟨decided, -, -, hnext⟩ | ⟨_, _, _, -, -, hnext⟩
  · -- nothing was decided
    rw [hnext] at h
    cases h
    exact ⟨.inl rfl, rfl⟩
  · -- what was decided is no slot
    rw [hnext] at h
    cases h
    exact ⟨.inr ⟨decided.slot, rfl⟩, rfl⟩
  · rw [hnext] at h
    cases h

theorem exhausted_iff :
    schedule.next.1 = .error .controllerExhausted ↔ schedule.decision.1 = none := by
  rcases next_cases schedule with ⟨hdecision, hnext⟩ | ⟨_, hdecision, -, hnext⟩ |
    ⟨_, _, _, hdecision, -, hnext⟩
  · simp [hnext, hdecision]
  · simp [hnext, hdecision]
  · simp [hnext, hdecision]

/-- A decision names an unknown slot if and only if no slot has that identifier. -/
theorem unknownSlot_iff {ids : List String} (h : schedule.portfolio.Indexed ids) (id : String) :
    schedule.next.1 = .error (.unknownSlot id) ↔
      ∃ decided, schedule.decision.1 = some decided ∧ decided.slot = id ∧ id ∉ ids := by
  rcases next_cases schedule with ⟨hdecision, hnext⟩ | ⟨decided, hdecision, hfind, hnext⟩ |
    ⟨decided, position, slot, hdecision, hfind, hnext⟩
  · simp [hnext, hdecision]
  · -- the look-up failed, so no slot has the name
    have hid : decided.slot ∉ ids := (h.find?_eq_none_iff decided.slot).mp hfind
    rw [hnext, hdecision]
    constructor
    · intro heq
      cases heq
      exact ⟨decided, rfl, rfl, hid⟩
    · rintro ⟨_, heq, rfl, -⟩
      cases heq
      rfl
  · -- the slot was found, so it is there
    have hid : decided.slot ∈ ids := (h.of_find? hfind).2.1.mem
    rw [hnext, hdecision]
    constructor
    · intro heq
      cases heq
    · rintro ⟨_, heq, rfl, hnot⟩
      cases heq
      exact absurd hid hnot

/-! ## Turns -/

/-- What handing a slot out for a decision does to a schedule: in that slot the limit and the
number of dispatches are written, and no other slot is. -/
structure HandsOut (decided : Decision) (turn : Turn α) (before after : Controlled σ α) : Prop where
  /-- The slot is the one that the identifier leads to. -/
  indexed : before.portfolio.position decided.slot = some turn.position
  /-- That is the last one with this identifier. -/
  last : IsLast (before.portfolio.slots.map Slot.id) decided.slot turn.position
  /-- The limit is the proposed one, cut at the greatest and raised to the least. -/
  written : ∃ slot, before.portfolio.get? turn.position = some slot ∧ slot.id = decided.slot ∧
    turn.slot = { slot with
      limit := max limitFloor (min decided.limit before.maxTimePerSlot)
      dispatches := slot.dispatches + 1 }
  after_eq : after = { before with
    controller := after.controller
    portfolio := { before.portfolio with
      slots := before.portfolio.slots.set turn.position turn.slot }
    current := some turn.position
    metrics := before.metrics.recordDispatch decided.slot turn.slot.limit }

theorem next_of_ok {ids : List String} (h : schedule.portfolio.Indexed ids)
    (fits : schedule.maxTimePerSlot ≤ limitCeiling) {turn : Turn α} {after : Controlled σ α}
    (hok : schedule.next = (.ok turn, after)) :
    ∃ decided, schedule.decision.1 = some decided ∧ HandsOut decided turn schedule after := by
  rcases next_cases schedule with ⟨-, hnext⟩ | ⟨_, -, -, hnext⟩ |
    ⟨decided, position, slot, hdecision, hfind, hnext⟩
  · rw [hnext] at hok
    cases hok
  · rw [hnext] at hok
    cases hok
  · rw [hnext] at hok
    cases hok
    -- the look-up gave the slot, so it is the last one of its name
    obtain ⟨hposition, hlast, hslot, hid⟩ := h.of_find? hfind
    -- the cap fits, so the limit is only raised to the floor
    have hlimit : Slot.clampLimit (min decided.limit schedule.maxTimePerSlot : Nat) =
        max limitFloor (min decided.limit schedule.maxTimePerSlot) :=
      Slot.clampLimit_natCast (Nat.le_trans (Nat.min_le_right _ _) fits)
    have hportfolio : schedule.portfolio.modify position (schedule.handed decided.limit) =
        { schedule.portfolio with
          slots := schedule.portfolio.slots.set position
            (schedule.handed decided.limit slot) } := by
      rw [← Portfolio.modify_const hslot, Portfolio.modify, List.set_eq_modify]
    refine ⟨decided, hdecision, hposition, ?_, ⟨slot, hslot, hid, ?_⟩, ?_⟩
    · rw [h.ids_eq]
      exact hlast
    · simp only [handed, Slot.adapt, Slot.dispatch, hlimit]
    · rw [hportfolio, hid]

/-! ## Answers -/

/-- What a call for a turn answers when the controller makes the given decision, if any: of the
slot that is handed out, position, identifier and limit are settled by it. -/
inductive Answers (ids : List String) (cap : Nat) :
    Option Decision → Except PortfolioError (Turn α) → Prop
  | exhausted : Answers ids cap none (.error .controllerExhausted)
  | unknown {decided : Decision} : decided.slot ∉ ids →
      Answers ids cap (some decided) (.error (.unknownSlot decided.slot))
  | handed {decided : Decision} {turn : Turn α} : IsLast ids decided.slot turn.position →
      turn.slot.id = decided.slot → turn.slot.limit = max limitFloor (min decided.limit cap) →
      Answers ids cap (some decided) (.ok turn)

/-- Every decision is answered so. -/
theorem answers_next {ids : List String} (hindexed : schedule.portfolio.Indexed ids)
    (fits : schedule.maxTimePerSlot ≤ limitCeiling) :
    Answers ids schedule.maxTimePerSlot schedule.decision.1 schedule.next.1 := by
  cases hnext : schedule.next with
  | mk answer after =>
    cases answer with
    -- an answer without a turn came either from no decision or from one for no slot
    | error cause =>
      rcases (next_of_error hnext).1 with rfl | ⟨id, rfl⟩
      · rw [exhausted_iff.mp (congrArg Prod.fst hnext)]
        exact .exhausted
      · obtain ⟨decided, hdecision, rfl, hid⟩ :=
          (unknownSlot_iff hindexed id).mp (congrArg Prod.fst hnext)
        rw [hdecision]
        exact .unknown hid
    | ok turn =>
      obtain ⟨decided, hdecision, hhands⟩ := next_of_ok hindexed fits hnext
      obtain ⟨slot, -, hid, hturn⟩ := hhands.written
      have hlast : IsLast ids decided.slot turn.position := hindexed.ids_eq ▸ hhands.last
      rw [hdecision]
      refine .handed hlast ?_ ?_
      · rw [hturn]
        exact hid
      · rw [hturn]

/-! ## Every reachable state -/

/-- **What the call for a turn touches.** In every state that a schedule can get into, with a
greatest limit of 32 bits: if the call fails, then for want of a decision or of the slot that it
names, and of the whole state only the controller and, in the second case, the number of
violations are different afterwards. If it hands out a slot, that is the one that the index
gives for the decided identifier, and only its limit and its number of dispatches are. A
decision fails if and only if no slot has the identifier it names. -/
theorem next_touches (reached : Reachable slots config schedule)
    (fits : config.maxTimePerSlot ≤ limitCeiling) :
    (∀ cause after, schedule.next = (.error cause, after) →
      (cause = .controllerExhausted ∨ ∃ id, cause = .unknownSlot id) ∧
        after = { schedule with
          controller := after.controller
          metrics := { schedule.metrics with
            violations := schedule.metrics.violations + violations cause } }) ∧
      (∀ turn after, schedule.next = (.ok turn, after) →
        ∃ decided, schedule.decision.1 = some decided ∧ HandsOut decided turn schedule after) ∧
      (schedule.next.1 = .error .controllerExhausted ↔ schedule.decision.1 = none) ∧
      ∀ id, schedule.next.1 = .error (.unknownSlot id) ↔
        ∃ decided, schedule.decision.1 = some decided ∧ decided.slot = id ∧
          id ∉ schedule.portfolio.slots.map Slot.id := by
  have hsettled := reached.settled
  have hcap : schedule.maxTimePerSlot ≤ limitCeiling := hsettled.cap_eq ▸ fits
  refine ⟨fun cause after => next_of_error, fun turn after => next_of_ok hsettled.indexed hcap,
    exhausted_iff, fun id => ?_⟩
  rw [hsettled.indexed.ids_eq]
  exact unknownSlot_iff hsettled.indexed id

/-- Three slots, the first and the last of which have the same identifier, after a decision for
an unknown slot: the next decision hands out the last slot with the greatest limit of the
settings. -/
theorem next_touches_duplicate :
    let slots : List (Slot Float) := [.ofSpec ⟨"a", none⟩, .ofSpec ⟨"b", none⟩, .ofSpec ⟨"a", none⟩]
    ∃ schedule after : Controlled (Replay Float) Float, ∃ turn,
      Reachable slots Config.default schedule ∧ Config.default.maxTimePerSlot ≤ limitCeiling ∧
        schedule.next = (.ok turn, after) ∧ schedule.metrics.violations = 1 ∧
        HandsOut ⟨"a", 500⟩ turn schedule after ∧ turn.position = 2 ∧ turn.slot.limit = 100 := by
  intro slots
  obtain ⟨portfolio, hportfolio⟩ : ∃ portfolio, Portfolio.ofSlots slots = .ok portfolio := ⟨_, rfl⟩
  -- the first decision is for no slot, so it counts a violation
  obtain ⟨first, hstart⟩ : ∃ first : Controlled (Replay Float) Float,
      start portfolio (.ofDecisions [⟨"z", 20⟩, ⟨"a", 500⟩]) Config.default = .ok first := ⟨_, rfl⟩
  have hreached : Reachable slots Config.default (Event.next.step first) :=
    (Reachable.start hportfolio hstart).call .next
  have hfits : Config.default.maxTimePerSlot ≤ limitCeiling := by decide
  obtain ⟨turn, after, hnext, hdecision, hviolations, hposition, hlimit⟩ : ∃ turn after,
      (Event.next.step first).next = (.ok turn, after) ∧
        (Event.next.step first).decision.1 = some ⟨"a", 500⟩ ∧
        (Event.next.step first).metrics.violations = 1 ∧ turn.position = 2 ∧
        turn.slot.limit = 100 := by
    cases hportfolio
    cases hstart
    exact ⟨_, _, rfl, rfl, rfl, rfl, rfl⟩
  obtain ⟨decided, hdecided, hhands⟩ := (next_touches hreached hfits).2.1 turn after hnext
  rw [hdecision] at hdecided
  cases hdecided
  exact ⟨_, after, turn, hreached, hfits, hnext, hviolations, hhands, hposition, hlimit⟩

end AlgorithmPortfolio.Controlled
