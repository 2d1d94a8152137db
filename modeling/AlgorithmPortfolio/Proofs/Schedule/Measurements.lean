import AlgorithmPortfolio.Proofs.Schedule.Turns

/-!
# What a round is judged by

The turn after a completed round runs a pass and then drops all measurements. So a pass sees
what was measured in its own round, whoever measured it and whatever else was called in between.

- `EndsRound`: whether the next turn runs a pass. It does after every whole number of rounds
  (`endsRound_run_iff`).
- `readings`: what the calls of a run left a slot measured with since the last completed round.
  Every completed round starts them over (`readings_append`).
- `progressAt_run`: the progress of a slot is the last reading. One step at a time
  (`progressAt_step`), calls that do not measure keep it, and the end of a round drops it.
- `skipped_of_unmeasured`: a pass over a slot without a measurement changes no limit.
- `judged_on_readings`: every pass at the end of a round is judged by the readings of that
  round.
-/

namespace AlgorithmPortfolio

namespace RoundRobin

variable {σ α : Type}

/-- Whether the next turn ends a round and runs a pass: all slots had their turns. -/
def EndsRound (schedule : RoundRobin σ α) : Prop := schedule.inCycle = schedule.portfolio.size

instance (schedule : RoundRobin σ α) : Decidable schedule.EndsRound :=
  inferInstanceAs (Decidable (schedule.inCycle = schedule.portfolio.size))

/-- The measurement of the slot at a position. -/
def progressAt (position : Nat) (schedule : RoundRobin σ α) : Option α :=
  (schedule.portfolio.get? position).bind Slot.progress

/-- Whether a call ends a round of a schedule. -/
def Event.endsRound (schedule : RoundRobin σ α) : Event α → Bool
  | .next _ => decide schedule.EndsRound
  | _ => false

/-- Whether a call sets or drops the measurement of the slot at a position. -/
def Event.measures (position : Nat) : Event α → Bool
  | .operate changed operation => decide (changed = position) && operation.measures
  | _ => false

variable [PathSampler σ] [Arith α]

/-- After a run the next turn ends a round if as many turns as some whole rounds were had. -/
theorem endsRound_run_iff {portfolio : Portfolio α} {models : Dict (PathModel α)} {sampler : σ}
    {config : Config} {unseeded : Generator} {schedule : RoundRobin σ α}
    (started : start portfolio models sampler config unseeded = .ok schedule)
    (nonempty : 0 < portfolio.size) (events : List (Event α)) :
    (run events schedule).EndsRound ↔ ∃ k, 1 ≤ k ∧ turns events = k * portfolio.size := by
  have hlength : (portfolio.slots.map Slot.account).length = portfolio.size := List.length_map _
  have hne : 0 < (portfolio.slots.map Slot.account).length := hlength.symm ▸ nonempty
  have hpaced := paced_run hne (paced_start started) events
  have hcomplete := hpaced.complete_iff hne
  rw [EndsRound, hpaced.size, hcomplete, hlength]
  simp only [Nat.add_right_cancel_iff]

/-! ## Readings -/

/-- What calls that measured the slot at a position left it with since the last completed round,
in order; `earlier` are the readings before these calls. -/
def readings (position : Nat) (earlier : List (Option α)) (schedule : RoundRobin σ α) :
    List (Event α) → List (Option α)
  | [] => earlier
  | event :: rest =>
    let after := event.step schedule
    readings position
      (if event.endsRound schedule then []
        else if event.measures position then earlier ++ [after.progressAt position]
        else earlier)
      after rest

/-- Calls after others go on with their readings. -/
theorem readings_append (position : Nat) (earlier : List (Option α)) (schedule : RoundRobin σ α)
    (past since : List (Event α)) :
    readings position earlier schedule (past ++ since) =
      readings position (readings position earlier schedule past) (run past schedule) since := by
  induction past generalizing earlier schedule with
  | nil => rfl
  | cons event rest ih => exact ih _ _

/-- After a completed round, readings start over. -/
theorem readings_of_endsRound (position : Nat) (earlier : List (Option α))
    (schedule : RoundRobin σ α) (past since : List (Event α)) (engines : Engines α)
    (ends : (run past schedule).EndsRound) :
    readings position earlier schedule (past ++ .next engines :: since) =
      readings position [] (run (past ++ [.next engines]) schedule) since := by
  have hrun : run (past ++ [.next engines]) schedule = ((run past schedule).next engines).2 :=
    List.foldl_append
  rw [readings_append, hrun]
  show readings position (if decide (run past schedule).EndsRound then [] else _) _ since = _
  rw [if_pos (decide_eq_true ends)]
  rfl

/-! ## The last reading is the measurement -/

omit [PathSampler σ] [Arith α] in
/-- Schedules whose slots have the same measurements. -/
theorem progressAt_congr {schedule other : RoundRobin σ α}
    (h : other.portfolio.slots.map Slot.progress = schedule.portfolio.slots.map Slot.progress)
    (position : Nat) : other.progressAt position = schedule.progressAt position := by
  have lookup (schedule : RoundRobin σ α) : schedule.progressAt position =
      (schedule.portfolio.slots.map Slot.progress)[position]?.join := by
    rw [List.getElem?_map, progressAt, Portfolio.get?]
    cases schedule.portfolio.slots[position]? with
    | none => rfl
    | some slot => rfl
  rw [lookup, lookup, h]

/-- A turn within a round keeps all measurements. -/
theorem progress_next_of_running {schedule : RoundRobin σ α} (running : ¬ schedule.EndsRound)
    (engines : Engines α) :
    (schedule.next engines).2.portfolio.slots.map Slot.progress =
      schedule.portfolio.slots.map Slot.progress := by
  have hturn : schedule.atTurn engines = schedule := if_neg running
  have hkept (slot : Slot α) : slot.dispatch.progress = slot.progress := rfl
  rw [portfolio_next, hturn]
  exact Portfolio.map_modify_of_frame hkept _ _

/-- The turn after a completed round leaves no measurement. -/
theorem progressAt_next_of_endsRound {schedule : RoundRobin σ α} (ends : schedule.EndsRound)
    (engines : Engines α) (position : Nat) :
    (schedule.next engines).2.progressAt position = none := by
  have hturn : schedule.atTurn engines = schedule.finishRound engines := if_pos ends
  -- the round ends with a reset of all slots, and the dispatch measures nothing
  have hreset : (schedule.finishRound engines).portfolio =
      (schedule.counted.rebalance engines).2.portfolio.mapSlots Slot.reset := rfl
  rw [progressAt, portfolio_next, hturn, hreset, Portfolio.get?_modify, Portfolio.get?_mapSlots]
  cases (schedule.counted.rebalance engines).2.portfolio.get? position with
  | none => rfl
  | some slot =>
    rw [Option.map_some, Option.map_some, Option.bind_some]
    split
    · rfl
    · rfl

/-- What one call does to the measurement of a slot: the end of a round drops it, and unless the
call measures, nothing else changes it. -/
theorem progressAt_step (schedule : RoundRobin σ α) (event : Event α) (position : Nat) :
    (event.step schedule).progressAt position =
      if event.endsRound schedule then none
      else if event.measures position then (event.step schedule).progressAt position
      else schedule.progressAt position := by
  cases event with
  | next engines =>
    by_cases ends : schedule.EndsRound
    · rw [Event.endsRound, if_pos (decide_eq_true ends)]
      exact progressAt_next_of_endsRound ends engines position
    · rw [Event.endsRound, if_neg (by simpa using ends)]
      exact progressAt_congr (progress_next_of_running ends engines) position
  | rebalance engines =>
    -- a direct pass writes targets and limits alone
    exact progressAt_congr (Rebalance.map_slots_pass (fun _ _ _ => rfl) engines schedule.knobs
      schedule.round schedule.models schedule.portfolio.slots schedule.draws) position
  | setModel id model => rfl
  | setMetrics metrics => rfl
  | operate changed operation =>
    have hget : (Event.step schedule (.operate changed operation)).portfolio.get? position = _ :=
      Portfolio.get?_modify changed (fun slot => operation.apply slot) schedule.portfolio position
    show _ = if Event.measures position (.operate changed operation) then _ else _
    -- an operation elsewhere, or one that measures nothing, keeps the progress
    split
    · rfl
    · rename_i unmeasured
      rw [progressAt, hget, progressAt]
      cases schedule.portfolio.get? position with
      | none => rfl
      | some slot =>
        rw [Option.map_some, Option.bind_some, Option.bind_some]
        split
        · rename_i hat
          have hquiet : operation.measures = false := by
            simpa [Event.measures, hat] using unmeasured
          exact Slot.progress_apply slot hquiet
        · rfl

/-- After a run, a slot's measurement is the last of its readings, if the same holds before the
run. -/
theorem progressAt_run (position : Nat) (events : List (Event α)) {schedule : RoundRobin σ α}
    {earlier : List (Option α)} (h : schedule.progressAt position = earlier.getLast?.join) :
    (run events schedule).progressAt position =
      (readings position earlier schedule events).getLast?.join := by
  -- the induction is on the calls, with the readings so far and the state they lead to
  induction events generalizing schedule earlier with
  | nil => exact h
  | cons event rest ih =>
    refine ih ?_
    rw [progressAt_step]
    split
    · rfl
    · split
      · rw [List.getLast?_concat]
        rfl
      · exact h

/-! ## Passes over slots without a measurement -/

/-- A pass over slots one of which has no measurement is skipped for that slot or one in front
of it, and changes no limit. -/
theorem skipped_of_unmeasured {schedule : RoundRobin σ α} (later : schedule.round ≠ 0)
    (engines : Engines α) {position : Nat} {slot : Slot α}
    (hget : schedule.portfolio.get? position = some slot) (unmeasured : slot.progress = none) :
    (∃ first found, first ≤ position ∧ schedule.portfolio.get? first = some found ∧
      ((schedule.rebalance engines).1 = .skipped (.missingProgress found.id) ∨
        (schedule.rebalance engines).1 = .skipped (.missingTargets found.id))) ∧
      (schedule.rebalance engines).2.portfolio.limits = schedule.portfolio.limits := by
  -- the slot stops the pass, unless one before it does
  have hunready : slot.isUnready engines = true := by
    rw [Slot.isUnready, unmeasured]
    rfl
  obtain ⟨hlt, hslot⟩ := List.getElem?_eq_some_iff.mp hget
  cases hfind : schedule.portfolio.slots.find? (Slot.isUnready engines) with
  | none =>
    have hready := List.find?_eq_none.mp hfind slot (List.mem_of_getElem? hget)
    exact absurd hunready hready
  | some found =>
    obtain ⟨-, first, hfirst, hfound, hfront⟩ := List.find?_eq_some_iff_getElem.mp hfind
    -- the slot that is found is the first one, so it is not after the one that is known
    have hle : first ≤ position := by
      refine Nat.not_lt.mp fun hlt => ?_
      have hready := hfront position hlt
      rw [hslot, hunready] at hready
      cases hready
    have hpass : schedule.currentPass engines = (.skipped found.fault, _, schedule.draws) :=
      Rebalance.pass_unready later hfind
    rw [rebalance_of_pass hpass]
    refine ⟨⟨first, found, hle, List.getElem?_eq_some_iff.mpr ⟨hfirst, hfound⟩, ?_⟩, ?_⟩
    · show Rebalance.Outcome.skipped found.fault = _ ∨ Rebalance.Outcome.skipped found.fault = _
      rw [Slot.fault]
      cases found.progress with
      | none => exact .inl rfl
      | some progress => exact .inr rfl
    · have hlimit (slot : Slot α) (listed : Option TargetSet) :
          ({ slot with listed } : Slot α).limit = slot.limit := rfl
      -- a skipped pass writes targets alone
      exact Rebalance.map_refreshed hlimit
        (Rebalance.refreshed_survey engines schedule.portfolio.slots)

/-! ## The end of a round -/

/-- What a turn that ends a round goes by, where `reading` gives what each slot was left with in
the round. -/
structure JudgedOn (reading : Nat → Option α)
    (engines : Engines α) (before after : RoundRobin σ α) :
    Prop where
  /-- The outcome that the turn leaves is that of a pass over the slots before it. -/
  outcome : after.lastOutcome = some (before.counted.rebalance engines).1
  /-- That pass sees the readings. -/
  progress : ∀ position slot, before.counted.portfolio.get? position = some slot →
    slot.progress = reading position
  /-- A slot that was left without a measurement keeps the pass from changing limits. -/
  unmeasured : ∀ position < before.portfolio.size, reading position = none →
    (∃ first found, first ≤ position ∧ before.portfolio.get? first = some found ∧
      (after.lastOutcome = some (.skipped (.missingProgress found.id)) ∨
        after.lastOutcome = some (.skipped (.missingTargets found.id)))) ∧
      after.portfolio.limits = before.portfolio.limits

/-- A turn that ends a round is judged on the measurements that the slots have before it. -/
theorem judgedOn_next {schedule : RoundRobin σ α} (ends : schedule.EndsRound) (engines : Engines α)
    {slot : Slot α}
    (turn : (schedule.atTurn engines).portfolio.get? (schedule.atTurn engines).cursor = some slot) :
    JudgedOn schedule.progressAt engines schedule (schedule.next engines).2 := by
  -- the pass is over the state before the turn, with the round already counted
  have hturn : schedule.atTurn engines = schedule.finishRound engines := if_pos ends
  have houtcome : (schedule.next engines).2.lastOutcome =
      some (schedule.counted.rebalance engines).1 := by
    rw [next_of_slot turn, hturn]
    rfl
  refine ⟨houtcome, fun position found hfound => ?_, fun position hlt hnone => ?_⟩
  · have hget : schedule.portfolio.get? position = some found := hfound
    rw [progressAt, hget]
    rfl
  · -- counting the round measures nothing, so the slot is still without progress
    have hget : schedule.counted.portfolio.get? position = some _ := List.getElem?_eq_getElem hlt
    have hprogress : schedule.counted.progressAt position = none := hnone
    rw [progressAt, hget] at hprogress
    obtain ⟨hskipped, hlimits⟩ :=
      skipped_of_unmeasured (Nat.succ_ne_zero schedule.round) engines hget hprogress
    refine ⟨?_, ?_⟩
    · obtain ⟨first, found, hle, hfound, houtcomes⟩ := hskipped
      refine ⟨first, found, hle, hfound, ?_⟩
      rw [houtcome]
      exact houtcomes.imp (congrArg some) (congrArg some)
    · have hkept : (schedule.next engines).2.portfolio.limits =
          (schedule.finishRound engines).portfolio.limits := by
        rw [next_of_slot turn, hturn]
        rw [hturn] at turn
        -- neither the reset nor the dispatch writes a limit
        exact limits_dispatch turn
      have hreset : (schedule.finishRound engines).portfolio.limits =
          (schedule.counted.rebalance engines).2.portfolio.limits := List.map_map
      rw [hkept, hreset]
      exact hlimits

/-- **Every round is judged on its own measurements.** The turn that ends a round succeeds and
leaves the outcome of a pass, in which the progress of each slot is the last reading of that
round: what the last call that measured the slot left since the round before was completed. In
the first round that is since the schedule was made, starting from what the slot was made with.
A slot without a reading or with an empty last one keeps the pass from changing limits, and of
the readings before a completed round none counts any more. -/
theorem judged_on_readings {portfolio : Portfolio α} {models : Dict (PathModel α)} {sampler : σ}
    {config : Config} {unseeded : Generator} {schedule : RoundRobin σ α}
    (started : start portfolio models sampler config unseeded = .ok schedule)
    (nonempty : 0 < portfolio.size) (events : List (Event α)) (engines : Engines α)
    (ends : (run events schedule).EndsRound) :
    let made (position : Nat) := [(portfolio.get? position).bind Slot.progress]
    ∃ turn after, (run events schedule).next engines = (.ok turn, after) ∧
      JudgedOn (fun position => (readings position (made position) schedule events).getLast?.join)
        engines (run events schedule) after ∧
      ∀ past since others, events = past ++ .next others :: since → (run past schedule).EndsRound →
        ∀ position, readings position (made position) schedule events =
          readings position [] (run (past ++ [.next others]) schedule) since := by
  intro made
  have hne : 0 < (portfolio.slots.map Slot.account).length := by
    rw [List.length_map]
    exact nonempty
  obtain ⟨slot, hslot, hcursor, hnext, -⟩ :=
    paced_next hne engines (paced_run hne (paced_start started) events)
  rw [← hcursor] at hslot
  have hjudged := judgedOn_next ends engines hslot
  -- the progress before the turn is the last reading
  have hreading : (run events schedule).progressAt =
      fun position => (readings position (made position) schedule events).getLast?.join := by
    funext position
    refine progressAt_run position events ?_
    rw [progressAt, portfolio_start started]
    rfl
  rw [hreading] at hjudged
  refine ⟨_, _, hnext, ?_, ?_⟩
  · rw [hnext] at hjudged
    exact hjudged
  · -- the turn that ends a round takes earlier readings away
    rintro past since others rfl hends position
    exact readings_of_endsRound position _ schedule past since others hends

/-- Two slots in their second round: the first was measured in the round before and the second
in this one, so nothing counts for the first. -/
theorem judged_on_readings_second :
    let engines : Engines Float := fun _ => ⟨none, 0.0⟩
    let events := [.next engines, .operate 0 (.setProgress 0.5), .next engines, .next engines,
      .next engines, .operate 1 (.setProgress 0.25)]
    ∃ (portfolio : Portfolio Float) (schedule : RoundRobin PathFunction Float),
      Portfolio.ofSpecs [⟨"a", none⟩, ⟨"b", none⟩] = .ok portfolio ∧
        start portfolio Dict.empty ⟨fun _ _ => []⟩ Config.default (Generator.ofSeed 3) =
          .ok schedule ∧
        0 < portfolio.size ∧ (run events schedule).EndsRound ∧
        ∃ turn after, (run events schedule).next engines = (.ok turn, after) ∧
          JudgedOn (fun position =>
            (readings position [(portfolio.get? position).bind Slot.progress] schedule
              events).getLast?.join) engines (run events schedule) after := by
  intro engines events
  obtain ⟨portfolio, hportfolio, hsize⟩ : ∃ portfolio : Portfolio Float,
      Portfolio.ofSpecs [⟨"a", none⟩, ⟨"b", none⟩] = .ok portfolio ∧ portfolio.size = 2 :=
    ⟨_, rfl, rfl⟩
  obtain ⟨schedule, hstart⟩ : ∃ schedule : RoundRobin PathFunction Float,
      start portfolio Dict.empty ⟨fun _ _ => []⟩ Config.default (Generator.ofSeed 3) =
        .ok schedule := ⟨_, rfl⟩
  have hpos := Portfolio.size_pos_of_ofSlots hportfolio
  have hends : (run events schedule).EndsRound := by
    rw [endsRound_run_iff hstart hpos, hsize]
    exact ⟨2, by decide, rfl⟩
  obtain ⟨turn, after, hnext, hjudged, -⟩ := judged_on_readings hstart hpos events engines hends
  exact ⟨portfolio, schedule, hportfolio, hstart, hpos, hends, turn, after, hnext, hjudged⟩

end RoundRobin

end AlgorithmPortfolio
