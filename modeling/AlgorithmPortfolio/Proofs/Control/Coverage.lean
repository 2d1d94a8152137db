import AlgorithmPortfolio.Proofs.Control.Conversation

/-!
# What controllers hear of covered targets

Recorded targets stay with a slot until someone resets it, and schedules of a controller never
do. The report on a slot therefore has the targets of all its runs and not only those of the
last.

- `Controlled.recordedAt`: the targets that calls record on a slot.
- `progressedAt_run`: without a reset, calls add these to the ones that the slot has.
- `coverage_of_run`: what the controller hears of a slot that was handed out. It is what was
  recorded since then if and only if nothing was recorded before.
-/

namespace AlgorithmPortfolio.Controlled

open Controller (Recorded)

variable {σ α : Type}

/-! ## Recorded targets -/

/-- Whether a call drops what was recorded on a slot. -/
def Event.resets : Event α → Bool
  | .operate _ operation => operation.resets
  | _ => false

/-- The targets that a call records on the slot at a position. -/
def Event.recordedAt (position : Nat) : Event α → List Nat
  | .operate changed operation => if changed = position then operation.records else []
  | _ => []

/-- The targets that calls record on the slot at a position, in their order. -/
def recordedAt (position : Nat) (events : List (Event α)) : List Nat :=
  events.flatMap (Event.recordedAt position)

/-- The targets that the slot at a position has. -/
def progressedAt (position : Nat) (schedule : Controlled σ α) : Option (List Nat) :=
  (schedule.portfolio.slots.map Slot.progressed)[position]?

theorem progressedAt_of_get? {position : Nat} {schedule : Controlled σ α} {slot : Slot α}
    (h : schedule.portfolio.get? position = some slot) :
    progressedAt position schedule = some slot.progressed :=
  List.getElem?_map.trans (congrArg (Option.map Slot.progressed) h)

variable [Controller σ α] [Arith α]

/-- Turns leave all recorded targets where they are. -/
theorem progressedAt_next (position : Nat) (schedule : Controlled σ α) :
    progressedAt position schedule.next.2 = progressedAt position schedule := by
  have hkept (proposed : Nat) (slot : Slot α) :
      (schedule.handed proposed slot).progressed = slot.progressed := rfl
  unfold progressedAt
  rcases portfolio_next schedule with h | ⟨changed, proposed, h⟩
  · rw [h]
  · rw [h, Portfolio.map_modify_of_frame (hkept proposed)]

/-- A call that drops nothing adds what it records. -/
theorem progressedAt_step (position : Nat) (schedule : Controlled σ α) {event : Event α}
    (h : event.resets = false) :
    progressedAt position (event.step schedule) =
      (progressedAt position schedule).map (· ++ event.recordedAt position) := by
  have hnothing : ∀ recorded? : Option (List Nat), recorded?.map (· ++ []) = recorded? := by simp
  cases event with
  | next => exact (progressedAt_next position schedule).trans (hnothing _).symm
  | hasNext => exact (hnothing _).symm
  | setMetrics metrics => exact (hnothing _).symm
  | operate changed operation =>
    have hslots :
        (Event.step schedule (.operate changed operation)).portfolio.slots.map Slot.progressed =
        (schedule.portfolio.slots.map Slot.progressed).modify changed (· ++ operation.records) :=
      Portfolio.map_modify (fun slot => Slot.progressed_apply_of_unreset slot h) changed
        schedule.portfolio
    rw [progressedAt, hslots, List.getElem?_modify, Event.recordedAt, progressedAt]
    -- only the slot that the operation is for gets what it records
    by_cases hat : changed = position
    · simp only [if_pos hat]
      rfl
    · simp only [if_neg hat, List.append_nil]
      rfl

/-- Without a reset the slot keeps its targets, and calls add to them what they record. -/
theorem progressedAt_run (position : Nat) {events : List (Event α)} (schedule : Controlled σ α)
    (h : ∀ event ∈ events, event.resets = false) :
    progressedAt position (run events schedule) =
      (progressedAt position schedule).map (· ++ recordedAt position events) := by
  induction events generalizing schedule with
  | nil => simp [recordedAt, run]
  | cons event rest ih =>
    obtain ⟨hevent, hrest⟩ := List.forall_mem_cons.mp h
    -- what the step records comes before what the rest does
    show progressedAt position (run rest (event.step schedule)) = _
    rw [ih _ hrest, progressedAt_step position schedule hevent, Option.map_map]
    congr 1
    funext recorded
    exact List.append_assoc _ _ _

/-! ## Reported targets -/

/-- A slot that was handed out is the last one until the next turn. -/
theorem current_of_turn {schedule : Controlled σ α} {earlier during : List (Event α)}
    {turn : Turn α} (dispatched : (run earlier schedule).next.1 = .ok turn)
    (same : ∀ event ∈ during, event.isNext = false) :
    (run (earlier ++ .next :: during) schedule).current = some turn.position := by
  have hturn := current_next (run earlier schedule)
  rw [dispatched] at hturn
  rw [run, List.foldl_append]
  exact (current_run _ same).trans hturn

/-- **What a controller hears of covered targets.** Of the slot that was handed out last it
hears, when the next turn is asked for, all targets that the slot was made with and those that
were recorded on it since: before it was handed out as well as afterwards. Those recorded
afterwards are all of them if and only if there were none before. -/
theorem coverage_of_run {slots : List (Slot α)} {portfolio : Portfolio α} {controller : σ}
    {config : Config} {schedule : Controlled σ α} (made : Portfolio.ofSlots slots = .ok portfolio)
    (started : start portfolio controller config = .ok schedule) {earlier during : List (Event α)}
    {turn : Turn α} (dispatched : (run earlier schedule).next.1 = .ok turn)
    (same : ∀ event ∈ during, event.isNext = false)
    (unreset : ∀ event ∈ earlier ++ during, event.resets = false) :
    let events := earlier ++ .next :: during
    ∃ first now recorded, slots[turn.position]? = some first ∧
      (run events schedule).portfolio.get? turn.position = some now ∧
      start portfolio (Recorded.fresh controller) config = .ok recorded ∧
      (run events recorded).unrecorded = run events schedule ∧
      (run events recorded).next.2.calls =
        (run events recorded).calls ++ (report now ++ [.next]) ∧
      now.progressed =
        first.progressed ++ recordedAt turn.position earlier ++ recordedAt turn.position during ∧
      (now.progressed = recordedAt turn.position during ↔
        first.progressed = [] ∧ recordedAt turn.position earlier = []) := by
  intro events
  obtain ⟨menu, recorded, -, hrecorded, hunrecorded, -⟩ := start_recorded started
  have hslots : schedule.portfolio.slots = slots := by
    rw [portfolio_start started, (Portfolio.of_ofSlots made).2.1]
  have hrun : (run events recorded).unrecorded = run events schedule := by
    rw [unrecorded_run, hunrecorded]
  -- the slot that was handed out is there from the start and to the end
  have hlt : turn.position < schedule.portfolio.size := by
    rw [← size_run earlier schedule]
    exact position_lt_of_next dispatched
  obtain ⟨now, hnow⟩ : ∃ now, (run events schedule).portfolio.get? turn.position = some now := by
    rw [← size_run events schedule] at hlt
    exact ⟨_, List.getElem?_eq_getElem hlt⟩
  obtain ⟨first, hfirst⟩ : ∃ first, schedule.portfolio.get? turn.position = some first :=
    ⟨_, List.getElem?_eq_getElem hlt⟩
  -- it is the one that the report is about
  have hcalls : (run events recorded).next.2.calls =
      (run events recorded).calls ++ (report now ++ [.next]) := by
    have hreport : (run events recorded).unrecorded.current.bind
        (run events recorded).unrecorded.portfolio.get? = some now := by
      rw [hrun, current_of_turn dispatched same]
      exact hnow
    have hlast : (run events recorded).current.bind (run events recorded).portfolio.get? =
        some now :=
      hreport
    rw [calls_next, hlast]
    rfl
  have hprogressed : now.progressed =
      first.progressed ++ recordedAt turn.position earlier ++ recordedAt turn.position during := by
    have hresets : ∀ event ∈ events, event.resets = false := by
      intro event hmem
      rcases List.mem_append.mp hmem with hearlier | hlater
      · exact unreset event (List.mem_append_left _ hearlier)
      · rcases List.mem_cons.mp hlater with rfl | hduring
        · rfl
        · exact unreset event (List.mem_append_right _ hduring)
    have hprogressed := progressedAt_run turn.position schedule hresets
    rw [progressedAt_of_get? hnow, progressedAt_of_get? hfirst] at hprogressed
    have hevents : recordedAt turn.position events =
        recordedAt turn.position earlier ++ recordedAt turn.position during :=
      List.flatMap_append
    rw [List.append_assoc, ← hevents]
    exact Option.some.inj hprogressed
  refine ⟨first, now, recorded, ?_, hnow, hrecorded, hrun, hcalls, hprogressed, ?_⟩
  · rw [← hslots]
    exact hfirst
  · rw [hprogressed, List.append_left_eq_self, List.append_eq_nil_iff]

/-- One slot with targets of another one before its turn: the controller hears of its own. -/
theorem coverage_of_run_first :
    let slots : List (Slot Float) := [.ofSpec ⟨"a", none⟩, .ofSpec ⟨"b", none⟩]
    let controller : Replay Float := .ofDecisions [⟨"a", 20⟩]
    let earlier : List (Event Float) := [.operate 1 (.record [1])]
    let during : List (Event Float) := [.operate 0 (.record [2]), .operate 0 (.record [3])]
    ∃ portfolio schedule turn, Portfolio.ofSlots slots = .ok portfolio ∧
      start portfolio controller Config.default = .ok schedule ∧
      (run earlier schedule).next.1 = .ok turn ∧ turn.position = 0 ∧
      (∀ event ∈ during, event.isNext = false) ∧
      (∀ event ∈ earlier ++ during, event.resets = false) ∧
      ∃ now recorded, start portfolio (Recorded.fresh controller) Config.default = .ok recorded ∧
        (run (earlier ++ .next :: during) recorded).next.2.calls =
          (run (earlier ++ .next :: during) recorded).calls ++ (report now ++ [.next]) ∧
        now.progressed = [2, 3] := by
  intro slots controller earlier during
  obtain ⟨portfolio, hportfolio⟩ : ∃ portfolio, Portfolio.ofSlots slots = .ok portfolio := ⟨_, rfl⟩
  obtain ⟨schedule, turn, hstart, hturn, hposition⟩ : ∃ schedule turn,
      start portfolio controller Config.default = .ok schedule ∧
        (run earlier schedule).next.1 = .ok turn ∧ turn.position = 0 := by
    cases hportfolio
    exact ⟨_, _, rfl, rfl, rfl⟩
  have hsame : ∀ event ∈ during, event.isNext = false := by simp [during, Event.isNext]
  have hunreset : ∀ event ∈ earlier ++ during, event.resets = false := by
    simp [earlier, during, Event.resets, Slot.Operation.resets]
  obtain ⟨first, now, recorded, hfirst, -, hrecorded, -, hcalls, hprogressed, -⟩ :=
    coverage_of_run hportfolio hstart hturn hsame hunreset
  rw [hposition] at hfirst hprogressed
  cases hfirst
  exact ⟨portfolio, schedule, turn, hportfolio, hstart, hturn, hposition, hsame, hunreset, now,
    recorded, hrecorded, hcalls, hprogressed⟩

/-- A slot that is handed out twice: what was recorded after the first time is reported
again. -/
theorem coverage_reported_again :
    let again : List (Event Float) := [.operate 0 (.record [2])]
    let events := [.next, .operate 0 (.record [1]), .next] ++ again ++ [.next]
    ∃ (portfolio : Portfolio Float) (schedule : Controlled (Replay Float) Float),
      Portfolio.ofSpecs [⟨"a", none⟩] = .ok portfolio ∧
        start portfolio (Replay.ofDecisions [⟨"a", 20⟩, ⟨"a", 20⟩, ⟨"a", 20⟩]) Config.default =
          .ok schedule ∧
        (run events schedule).controller.coverageReports = [[1], [1, 2]] ∧
        recordedAt 0 again = [2] :=
  ⟨_, _, rfl, rfl, rfl, rfl⟩

end AlgorithmPortfolio.Controlled
