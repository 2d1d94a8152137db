import AlgorithmPortfolio.Proofs.Control.Frame

/-!
# Replayed schedules

A controller that replays decisions settles the schedule. What callers do with slots in between
and what the controller is told of it make no difference to which slot is handed out next and
for how long.

- `Controlled.turns`: how many turns a run asks for.
- `pending_next`, `accounts_next`: a call for a turn uses up one decision, even if it fails, and
  is counted with the slot that the decision leads to.
- `Replaying`: how far a schedule is in its decisions, which every run keeps up
  (`replaying_run`).
- `Replayed`: what becomes of the next decision, and what became of the ones before.
- `replay_of_run`: every run is replayed.
-/

namespace AlgorithmPortfolio.Controlled

open Portfolio (IsLast)

variable {α : Type}

/-- How many of the calls ask for a turn. -/
def turns (events : List (Event α)) : Nat := events.countP Event.isNext

/-- A schedule of valid settings can be started with any controller. -/
theorem exists_start {σ : Type} [Controller σ α] {config : Config}
    (valid : config.validate = .ok ()) (portfolio : Portfolio α) (controller : σ) :
    ∃ menu schedule, config.menu = .ok menu ∧ start portfolio controller config = .ok schedule ∧
      schedule.controller = Controller.init portfolio.identifiers menu controller := by
  obtain ⟨menu, hmenu, -⟩ := Config.exists_menu valid
  unfold start
  rw [valid, hmenu]
  exact ⟨menu, _, rfl, rfl, rfl⟩

variable [Arith α]

/-! ## One call -/

/-- How many decisions lead to the slot at a position. -/
def leading (portfolio : Portfolio α) (decisions : List Decision) (position : Nat) : Nat :=
  decisions.countP fun decided => portfolio.position decided.slot == some position

section Call

variable (schedule : Controlled (Replay α) α)

/-- Feedback uses up no decision. -/
theorem pending_feedback : schedule.feedback.pending = schedule.controller.pending := by
  unfold feedback
  cases schedule.current.bind schedule.portfolio.get? with
  | none => rfl
  | some slot => rfl

theorem decision_eq_head? : schedule.decision.1 = schedule.controller.pending.head? := by
  rw [← pending_feedback]
  rfl

/-- A call for a turn uses up one decision, whatever becomes of it. -/
theorem pending_next : schedule.next.2.controller.pending = schedule.controller.pending.tail := by
  rw [controller_next, ← pending_feedback]
  rfl

/-- A call for a turn is counted with the slot that its decision leads to. -/
theorem accounts_next {ids : List String} (h : schedule.portfolio.Indexed ids) :
    schedule.next.2.portfolio.slots.map Slot.account =
      (schedule.portfolio.slots.map Slot.account).mapIdx fun position account =>
        (account.1, account.2 +
          leading schedule.portfolio (schedule.controller.pending.take 1) position) := by
  have htake : schedule.controller.pending.take 1 = schedule.decision.1.toList := by
    rw [decision_eq_head?]
    -- the decision of the call is the first one pending
    cases schedule.controller.pending with
    | nil => rfl
    | cons decided rest => rfl
  rw [htake]
  refine List.ext_getElem? fun position => ?_
  rw [List.getElem?_mapIdx]
  rcases next_cases schedule with ⟨hdecision, hnext⟩ | ⟨decided, hdecision, hfind, hnext⟩ |
    ⟨decided, handed, slot, hdecision, hfind, hnext⟩
  · rw [hnext, hdecision]
    exact (congrFun Option.map_id _).symm
  · -- the decision names no slot, so it leads to none
    have hnone : schedule.portfolio.position decided.slot = none :=
      (h.position_none_iff decided.slot).mpr ((h.find?_eq_none_iff decided.slot).mp hfind)
    have hleading : leading schedule.portfolio (some decided).toList position = 0 := by
      simp [leading, hnone]
    rw [hnext, hdecision, hleading]
    exact (congrFun Option.map_id _).symm
  · -- one slot is handed out: its count goes up and no other one does
    have hsome : schedule.portfolio.position decided.slot = some handed := (h.of_find? hfind).1
    have haccount (slot : Slot α) : (schedule.handed decided.limit slot).account =
        (slot.account.1, slot.account.2 + 1) := rfl
    have hslots : (schedule.portfolio.modify handed (schedule.handed decided.limit)).slots.map
        Slot.account = (schedule.portfolio.slots.map Slot.account).modify handed
          fun account => (account.1, account.2 + 1) :=
      Portfolio.map_modify haccount handed schedule.portfolio
    rw [hnext, hdecision, hslots, List.getElem?_modify]
    congr 1
    funext account
    by_cases hat : handed = position
    · simp [leading, hsome, hat]
    · simp [leading, hsome, hat]

end Call

/-! ## Whole runs -/

/-- How far a schedule of slots is after so many calls for a turn. -/
structure Replaying (origin : Portfolio α) (decisions : List Decision) (calls : Nat)
    (schedule : Controlled (Replay α) α) : Prop where
  index_eq : schedule.portfolio.index = origin.index
  /-- The controller has dropped as many decisions. -/
  pending : schedule.controller.pending = decisions.drop calls
  /-- Every slot was handed out as often as one of them led to it. -/
  accounts : schedule.portfolio.slots.map Slot.account =
    origin.slots.mapIdx fun position slot =>
      (slot.id, slot.dispatches + leading origin (decisions.take calls) position)

variable {origin : Portfolio α} {decisions : List Decision} {calls : Nat}
  {schedule : Controlled (Replay α) α}

theorem replaying_next {ids : List String} (h : Replaying origin decisions calls schedule)
    (hindexed : schedule.portfolio.Indexed ids) :
    Replaying origin decisions (calls + 1) schedule.next.2 := by
  -- the index is the original one, so a name still leads where it led
  have hposition : schedule.portfolio.position = origin.position := by
    funext id
    show schedule.portfolio.index.get? id = origin.index.get? id
    rw [h.index_eq]
  have hindex : schedule.next.2.portfolio.index = schedule.portfolio.index := by
    rcases portfolio_next schedule with hkept | ⟨position, proposed, hmodified⟩
    · rw [hkept]
    · rw [hmodified]
      rfl
  refine ⟨hindex.trans h.index_eq, ?_, ?_⟩
  · -- one decision is taken off those that are pending
    rw [pending_next, h.pending, List.tail_drop]
  · -- and it counts for the slot that it leads to
    have htaken : decisions.take (calls + 1) =
        decisions.take calls ++ (decisions.drop calls).take 1 := List.take_add
    rw [accounts_next schedule hindexed, h.accounts, h.pending, List.mapIdx_mapIdx]
    refine congrArg (List.mapIdx · origin.slots) (funext fun position => funext fun slot => ?_)
    simp only [leading, hposition, Function.comp_apply, htaken, List.countP_append, Nat.add_assoc]

theorem replaying_step (h : Replaying origin decisions calls schedule) {event : Event α}
    (hevent : event.isNext = false) : Replaying origin decisions calls (event.step schedule) := by
  cases event with
  | next => cases hevent
  | hasNext => exact ⟨h.index_eq, h.pending, h.accounts⟩
  | setMetrics metrics => exact ⟨h.index_eq, h.pending, h.accounts⟩
  | operate position operation =>
    refine ⟨h.index_eq, h.pending, ?_⟩
    rw [← h.accounts]
    exact Portfolio.map_modify_of_frame (fun slot => Slot.account_apply slot operation) position
      schedule.portfolio

theorem replaying_run {ids : List String} {config : Config} (hsettled : Settled ids config schedule)
    (h : Replaying origin decisions calls schedule) (events : List (Event α)) :
    Replaying origin decisions (calls + turns events) (run events schedule) := by
  -- only `next` takes a decision, so the number of calls is carried along
  induction events generalizing calls schedule with
  | nil => exact h
  | cons event rest ih =>
    have hrest := settled_step hsettled event
    cases hnext : event.isNext with
    | true =>
      obtain rfl : event = .next := by
        cases event with
        | next => rfl
        | _ => cases hnext
      have hturns : calls + turns (Event.next :: rest) = calls + 1 + turns rest := by
        rw [turns, List.countP_cons_of_pos hnext, turns]
        omega
      rw [hturns]
      exact ih hrest (replaying_next h hsettled.indexed)
    | false =>
      have hturns : turns (event :: rest) = turns rest :=
        List.countP_cons_of_neg (Bool.not_eq_true _ ▸ hnext)
      rw [hturns]
      exact ih hrest (replaying_step h hnext)

/-! ## What becomes of decisions -/

/-- The position, the identifier and the limit of the slot that the next turn hands out. -/
def outcome (schedule : Controlled (Replay α) α) : Except PortfolioError (Nat × String × Nat) :=
  schedule.next.1.map fun turn => (turn.position, turn.slot.id, turn.slot.limit)

/-- Two answers to one decision have the same outcome. -/
theorem Answers.agree {ids : List String} {cap : Nat} {decided? : Option Decision}
    {first second : Controlled (Replay α) α} (h : Answers ids cap decided? first.next.1)
    (h' : Answers ids cap decided? second.next.1) : outcome first = outcome second := by
  unfold outcome
  generalize first.next.1 = answer at h
  generalize second.next.1 = answer' at h'
  -- both answer the same decision, so they are of one kind
  cases h with
  | exhausted =>
    cases h'
    rfl
  | unknown hid =>
    cases h' with
    | unknown => rfl
    | handed hlast => exact absurd hlast.mem hid
  | handed hlast hslot hlimit =>
    cases h' with
    | unknown hid => exact absurd hlast.mem hid
    | handed hlast' hslot' hlimit' =>
      simp only [Except.map, hlast.unique hlast', hslot, hslot', hlimit, hlimit']

omit [Arith α] in
/-- A slot with a later slot of its identifier is led to by no decision, and any other slot by
those that name it. -/
theorem leading_eq {ids : List String} (h : origin.Indexed ids) (decisions : List Decision)
    {position : Nat} {id : String} (hid : ids[position]? = some id) :
    (IsLast ids id position →
        leading origin decisions position = decisions.countP fun decided => decided.slot == id) ∧
      ∀ later, position < later →
        ids[later]? = some id → leading origin decisions position = 0 := by
  -- a decision leads to a position that it names, unless a later slot has the name too
  have hleads (decided : Decision) :
      origin.position decided.slot = some position ↔
        decided.slot = id ∧ IsLast ids id position := by
    rw [h.position_iff]
    constructor
    · intro hlast
      obtain rfl : decided.slot = id := Option.some.inj (hlast.here.symm.trans hid)
      exact ⟨rfl, hlast⟩
    · rintro ⟨rfl, hlast⟩
      exact hlast
  constructor
  · intro hlast
    refine List.countP_congr fun decided _ => ?_
    simp only [beq_iff_eq, hleads, hlast, and_true]
  · intro later hlt hlater
    refine List.countP_eq_zero.mpr fun decided _ hlead => ?_
    exact ((hleads decided).mp (beq_iff_eq.mp hlead)).2.later later hlt hlater

/-- The state of a schedule of slots after so many calls for a turn with replayed decisions. -/
structure Replayed (slots : List (Slot α)) (cap : Nat) (decisions : List Decision) (calls : Nat)
    (schedule : Controlled (Replay α) α) : Prop where
  /-- There is another decision while there were fewer calls, and to ask for it changes
  nothing. -/
  hasNext : schedule.hasNext = (decide (calls < decisions.length), schedule)
  /-- The next call takes the next decision. -/
  answer : Answers (slots.map Slot.id) cap decisions[calls]? schedule.next.1
  /-- The last slot with an identifier was handed out for every decision that named it. -/
  named : ∀ position first, slots[position]? = some first →
    IsLast (slots.map Slot.id) first.id position →
    ∃ slot, schedule.portfolio.get? position = some slot ∧
      slot.dispatches = first.dispatches +
        (decisions.take calls).countP fun decided => decided.slot == first.id
  /-- A slot with a later one of its identifier was not handed out. -/
  shadowed : ∀ position later first second, slots[position]? = some first → position < later →
    slots[later]? = some second → second.id = first.id →
    ∃ slot, schedule.portfolio.get? position = some slot ∧ slot.dispatches = first.dispatches

theorem replayed_of_replaying {slots : List (Slot α)} {config : Config}
    (made : Portfolio.ofSlots slots = .ok origin) (fits : config.maxTimePerSlot ≤ limitCeiling)
    (hsettled : Settled (slots.map Slot.id) config schedule)
    (h : Replaying origin decisions calls schedule) :
    Replayed slots config.maxTimePerSlot decisions calls schedule := by
  have hslots : origin.slots = slots := (Portfolio.of_ofSlots made).2.1
  have hindexed := Portfolio.indexed_ofSlots made
  have hids {position : Nat} {slot : Slot α} (hslot : slots[position]? = some slot) :
      (slots.map Slot.id)[position]? = some slot.id :=
    List.getElem?_map.trans (congrArg (Option.map Slot.id) hslot)
  have hdispatches {position : Nat} {first : Slot α} (hfirst : slots[position]? = some first) :
      ∃ slot, schedule.portfolio.get? position = some slot ∧
        slot.dispatches = first.dispatches + leading origin (decisions.take calls) position := by
    -- the invariant lists the dispatches of all slots: read the list at the position
    have haccount := congrArg (fun accounts => accounts[position]?) h.accounts
    rw [hslots, List.getElem?_map, List.getElem?_mapIdx, hfirst] at haccount
    obtain ⟨slot, hslot, haccount⟩ := Option.map_eq_some_iff.mp haccount
    exact ⟨slot, hslot, congrArg Prod.snd haccount⟩
  refine ⟨?_, ?_, fun position first hfirst hlast => ?_, fun position later first second hfirst hlt
    hsecond hid => ?_⟩
  · -- what is left is what the calls so far have not taken
    have hempty : (!schedule.controller.pending.isEmpty) = decide (calls < decisions.length) := by
      rw [h.pending, Bool.eq_iff_iff]
      simp
    show (!schedule.controller.pending.isEmpty, schedule) = _
    rw [hempty]
  · have hanswer := answers_next hsettled.indexed (hsettled.cap_eq ▸ fits)
    rwa [hsettled.cap_eq, decision_eq_head?, h.pending, List.head?_drop] at hanswer
  · obtain ⟨slot, hslot, hcount⟩ := hdispatches hfirst
    exact ⟨slot, hslot, hcount.trans (by rw [(leading_eq hindexed _ (hids hfirst)).1 hlast])⟩
  · -- no decision leads to a slot that a later one shadows
    obtain ⟨slot, hslot, hcount⟩ := hdispatches hfirst
    have hlater : (slots.map Slot.id)[later]? = some first.id := hid ▸ hids hsecond
    exact ⟨slot, hslot,
      hcount.trans (by rw [(leading_eq hindexed _ (hids hfirst)).2 later hlt hlater, Nat.add_zero])⟩

/-- **Replayed decisions settle the schedule.** With valid settings whose greatest limit has 32
bits, a schedule can be started on a list of decisions. Whatever is done to its slots between
the calls for a turn, each call takes the next decision of the list and fails when there is none
left; what it answers and how often each slot was handed out follows from that decision and the
identifiers alone. So two runs with as many calls for a turn agree on the next one. -/
theorem replay_of_run {slots : List (Slot α)} {portfolio : Portfolio α} {config : Config}
    (made : Portfolio.ofSlots slots = .ok portfolio) (valid : config.validate = .ok ())
    (fits : config.maxTimePerSlot ≤ limitCeiling) (decisions : List Decision) :
    ∃ schedule, start portfolio (Replay.ofDecisions decisions) config = .ok schedule ∧
      (∀ events, Replayed slots config.maxTimePerSlot decisions (turns events)
        (run events schedule)) ∧
      ∀ events others, turns events = turns others →
        outcome (run events schedule) = outcome (run others schedule) := by
  obtain ⟨menu, schedule, hmenu, hstart, hcontroller⟩ :=
    exists_start valid portfolio (Replay.ofDecisions decisions : Replay α)
  have hsettled := settled_start made hstart
  have hzero : Replaying portfolio decisions 0 schedule := by
    have hportfolio := portfolio_start hstart
    refine ⟨by rw [hportfolio], by rw [hcontroller]; rfl, ?_⟩
    rw [hportfolio]
    refine List.ext_getElem? fun position => ?_
    rw [List.getElem?_mapIdx, List.getElem?_map]
    rfl
  have hreplayed (events : List (Event α)) :
      Replayed slots config.maxTimePerSlot decisions (turns events) (run events schedule) := by
    have hreached := (Reachable.start made hstart).run events
    have hreplaying := replaying_run hsettled hzero events
    rw [Nat.zero_add] at hreplaying
    exact replayed_of_replaying made fits hreached.settled hreplaying
  refine ⟨schedule, hstart, hreplayed, fun events others hturns => ?_⟩
  have hanswer := (hreplayed events).answer
  rw [hturns] at hanswer
  exact hanswer.agree (hreplayed others).answer

/-- Three slots, the first and the last of which have the same identifier, after a decision for
that identifier and one for an unknown slot: the third one is next, with or without a
measurement in between. -/
theorem replay_of_run_duplicate :
    let slots : List (Slot Float) := [.ofSpec ⟨"a", none⟩, .ofSpec ⟨"b", none⟩, .ofSpec ⟨"a", none⟩]
    let decisions : List Decision := [⟨"a", 500⟩, ⟨"z", 20⟩, ⟨"b", 3⟩]
    let events : List (Event Float) := [.next, .operate 2 (.setProgress 0.5), .next]
    ∃ portfolio schedule, Portfolio.ofSlots slots = .ok portfolio ∧
      Config.default.validate = .ok () ∧ Config.default.maxTimePerSlot ≤ limitCeiling ∧
      start portfolio (Replay.ofDecisions decisions) Config.default = .ok schedule ∧
      Replayed slots 100 decisions 2 (run events schedule) ∧
      outcome (run events schedule) = outcome (run [.next, .next] schedule) ∧
      outcome (run events schedule) = .ok (1, "b", 10) := by
  intro slots decisions events
  obtain ⟨portfolio, hportfolio⟩ : ∃ portfolio, Portfolio.ofSlots slots = .ok portfolio := ⟨_, rfl⟩
  have hvalid : Config.default.validate = .ok () := rfl
  have hfits : Config.default.maxTimePerSlot ≤ limitCeiling := by decide
  obtain ⟨schedule, hstart, hreplayed, hagree⟩ := replay_of_run hportfolio hvalid hfits decisions
  have houtcome : outcome (run events schedule) = .ok (1, "b", 10) := by
    cases hportfolio
    cases hstart
    rfl
  exact ⟨portfolio, schedule, hportfolio, hvalid, hfits, hstart, hreplayed events,
    hagree events [.next, .next] rfl, houtcome⟩

end AlgorithmPortfolio.Controlled
