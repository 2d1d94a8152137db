import AlgorithmPortfolio.Controller.Replay
import AlgorithmPortfolio.Proofs.Portfolio.Index
import AlgorithmPortfolio.Proofs.Schedule.Evolution

/-!
# The floor of time limits

Whoever sets a limit raises it to the floor, except for an annotation: it may name any positive
number of seconds, and the slot keeps them until someone else sets its limit.

- `Annotation.NamesBelowFloor`: annotations that name less than the floor. They and no others
  give a slot a limit below it (`limit_lt_floor_iff`).
- `Slot.History.limit`: what becomes of a limit along any changes.
- `FloorLaw`: how the limits of a schedule stand to the floor, before and after any calls.
- `limits_at_floor_iff`: both kinds of schedules keep to it. All limits are at least the floor
  if and only if no annotation names less.
-/

namespace AlgorithmPortfolio

namespace Annotation

/-- An annotation names a positive number of seconds that is less than the floor. -/
def NamesBelowFloor (written : Option String) : Prop :=
  ∃ text token seconds limit, written = some text ∧
    Text.splitFirst '_' text.toList = some (token, seconds) ∧
    Text.readNumeral limitBound seconds = .ok limit ∧ 0 < limit ∧ limit < limitFloor

/-- Only a positive numeral below the floor is read as a limit below it. -/
theorem readLimit_lt_floor_iff (cs : List Char) :
    readLimit cs < limitFloor ↔
      ∃ limit, Text.readNumeral limitBound cs = .ok limit ∧ 0 < limit ∧ limit < limitFloor := by
  unfold readLimit
  cases Text.readNumeral limitBound cs with
  | error fault => simp
  | ok limit =>
    by_cases h : limit = 0
    · simp [h]
    · have hpos : 0 < limit := Nat.pos_of_ne_zero h
      simp [h, hpos]

theorem limit_lt_floor_iff (written : Option String) :
    (ofText written).limit < limitFloor ↔ NamesBelowFloor written := by
  unfold ofText NamesBelowFloor
  cases written with
  | none => simp [default]
  | some text =>
    simp only [ofChars, Option.some.injEq]
    cases hsplit : Text.splitFirst '_' text.toList with
    | none => simp [hsplit]
    | some parts =>
      obtain ⟨token, seconds⟩ := parts
      rw [readLimit_lt_floor_iff]
      constructor
      · rintro ⟨limit, hread, hlimit⟩
        exact ⟨text, token, seconds, limit, rfl, hsplit, hread, hlimit⟩
      · rintro ⟨_, _, _, limit, rfl, hsplit', hread, hlimit⟩
        rw [hsplit] at hsplit'
        cases hsplit'
        exact ⟨limit, hread, hlimit⟩

end Annotation

variable {α : Type} [Arith α]

/-- Changes of a slot keep its limit or leave one that is not below the floor. -/
theorem Slot.History.limit {before after : Slot α} (h : Slot.History before after) :
    after.limit = before.limit ∨ limitFloor ≤ after.limit := by
  -- follow the history back to the last write of the limit
  induction h with
  | refl => exact .inl rfl
  | @tail between _ _ change ih =>
    cases change with
    | dispatch => exact ih
    | operate operation =>
      rw [Slot.limit_apply]
      rcases Slot.limitAfter_cases between operation with hkept | hfloor
      · rw [hkept]
        exact ih
      · exact .inr hfloor

/-- How the limits of a schedule that was made of specifications stand to the floor. The slots
are given for every sequence of calls. -/
structure FloorLaw {ε : Type} (specs : List SlotSpec) (slotsAfter : List ε → List (Slot α)) :
    Prop where
  /-- Slots start with the limits of their annotations. -/
  initial : List.Forall₂ (fun spec slot => slot.limit = spec.reading.limit) specs (slotsAfter [])
  /-- More calls keep a limit or leave one that is not below the floor. -/
  later : ∀ earlier events,
    List.Forall₂ (fun before after => after.limit = before.limit ∨ limitFloor ≤ after.limit)
      (slotsAfter earlier) (slotsAfter (earlier ++ events))
  /-- No limit is ever below the floor if and only if no annotation names less. -/
  safe_iff : (∀ events, ∀ slot ∈ slotsAfter events, limitFloor ≤ slot.limit) ↔
    ∀ spec ∈ specs, ¬ Annotation.NamesBelowFloor spec.annotation

/-- A schedule keeps to the law if its calls only change slots. -/
theorem floorLaw_of_evolves {ε : Type} {specs : List SlotSpec} {portfolio : Portfolio α}
    (made : Portfolio.ofSpecs specs = .ok portfolio) {after : List ε → Portfolio α}
    (initial : after [] = portfolio)
    (evolves : ∀ earlier events, (after earlier).Evolves (after (earlier ++ events))) :
    FloorLaw specs fun events => (after events).slots := by
  -- the slots are those of the specifications, with the limits that were read
  have hslots : (after []).slots = specs.map Slot.ofSpec := by
    rw [initial, (Portfolio.of_ofSlots made).2.1]
  have hinitial : List.Forall₂ (fun spec slot => slot.limit = spec.reading.limit) specs
      (after []).slots := by
    rw [hslots, List.forall₂_map_right_iff]
    exact List.forall₂_same.mpr fun spec _ => rfl
  refine ⟨hinitial, fun earlier events => (evolves earlier events).imp fun _ _ h => h.limit, ?_⟩
  constructor
  · -- the state before all calls is enough
    intro hsafe spec hspec hbelow
    have hslot := hsafe [] (.ofSpec spec) (hslots ▸ List.mem_map_of_mem hspec)
    have hlimit : spec.reading.limit < limitFloor :=
      Annotation.limit_lt_floor_iff spec.annotation |>.mpr hbelow
    exact Nat.not_lt.mpr hslot hlimit
  · intro hspecs events slot hslot
    have hevolves : (after []).Evolves (after events) := evolves [] events
    rw [Portfolio.Evolves, hslots, List.forall₂_map_left_iff] at hevolves
    obtain ⟨position, hlt, rfl⟩ := List.getElem_of_mem hslot
    have hspec : position < specs.length := hevolves.length_eq ▸ hlt
    have hhistory : Slot.History (.ofSpec specs[position]) (after events).slots[position] :=
      hevolves.get hspec hlt
    -- a limit that was written since is above the floor
    rcases hhistory.limit with hkept | hfloor
    · rw [hkept]
      refine Nat.not_lt.mp fun hbelow => hspecs _ (List.getElem_mem hspec) ?_
      exact Annotation.limit_lt_floor_iff _ |>.mp hbelow
    · exact hfloor

/-- **The floor holds up to annotations.** In schedules in turn and in schedules of a controller
limits are those of the annotations until a call sets them, which raises them to the floor. So
all limits of all states are at least the floor if and only if no annotation names less. -/
theorem limits_at_floor_iff {specs : List SlotSpec} {portfolio : Portfolio α}
    (made : Portfolio.ofSpecs specs = .ok portfolio) :
    (∀ {σ : Type} [PathSampler σ] {models : Dict (PathModel α)} {sampler : σ} {config : Config}
        {unseeded : Generator} {schedule : RoundRobin σ α},
        RoundRobin.start portfolio models sampler config unseeded = .ok schedule →
          FloorLaw specs fun events => (RoundRobin.run events schedule).portfolio.slots) ∧
      ∀ {σ : Type} [Controller σ α] {controller : σ} {config : Config} {schedule : Controlled σ α},
        Controlled.start portfolio controller config = .ok schedule →
          FloorLaw specs fun events => (Controlled.run events schedule).portfolio.slots := by
  constructor
  · intro σ _ models sampler config unseeded schedule started
    refine floorLaw_of_evolves made (RoundRobin.portfolio_start started) fun earlier events => ?_
    simp only [RoundRobin.run, List.foldl_append]
    exact Portfolio.evolves_foldl RoundRobin.portfolio RoundRobin.evolves_step events _
  · intro σ _ controller config schedule started
    refine floorLaw_of_evolves made (Controlled.portfolio_start started) fun earlier events => ?_
    simp only [Controlled.run, List.foldl_append]
    exact Portfolio.evolves_foldl Controlled.portfolio Controlled.evolves_step events _

/-- Two slots, the second of which is annotated with fifteen seconds: no call of either kind of
schedule leaves a limit below the floor. -/
theorem limits_at_floor_fifteen :
    let specs := [⟨"a", none⟩, ⟨"b", some "continue_15"⟩]
    ∃ (portfolio : Portfolio Float) (inTurn : RoundRobin PathFunction Float)
      (controlled : Controlled (Replay Float) Float),
      Portfolio.ofSpecs specs = .ok portfolio ∧
        RoundRobin.start portfolio Dict.empty ⟨fun _ _ => []⟩ Config.default (Generator.ofSeed 3) =
          .ok inTurn ∧
        Controlled.start portfolio (Replay.ofDecisions [⟨"a", 20⟩]) Config.default =
          .ok controlled ∧
        (∀ spec ∈ specs, ¬ Annotation.NamesBelowFloor spec.annotation) ∧
        (∀ events, ∀ slot ∈ (RoundRobin.run events inTurn).portfolio.slots,
          limitFloor ≤ slot.limit) ∧
        ∀ events, ∀ slot ∈ (Controlled.run events controlled).portfolio.slots,
          limitFloor ≤ slot.limit := by
  intro specs
  obtain ⟨portfolio, hportfolio⟩ : ∃ portfolio : Portfolio Float,
      Portfolio.ofSpecs specs = .ok portfolio := ⟨_, rfl⟩
  obtain ⟨inTurn, hinTurn⟩ : ∃ inTurn : RoundRobin PathFunction Float,
      RoundRobin.start portfolio Dict.empty ⟨fun _ _ => []⟩ Config.default (Generator.ofSeed 3) =
        .ok inTurn := ⟨_, rfl⟩
  obtain ⟨controlled, hcontrolled⟩ : ∃ controlled : Controlled (Replay Float) Float,
      Controlled.start portfolio (Replay.ofDecisions [⟨"a", 20⟩]) Config.default = .ok controlled :=
    ⟨_, rfl⟩
  have hspecs : ∀ spec ∈ specs, ¬ Annotation.NamesBelowFloor spec.annotation := by
    intro spec hspec
    rw [← Annotation.limit_lt_floor_iff]
    revert spec
    decide
  obtain ⟨hturns, hdecisions⟩ := limits_at_floor_iff hportfolio
  exact ⟨portfolio, inTurn, controlled, hportfolio, hinTurn, hcontrolled, hspecs,
    (hturns hinTurn).safe_iff.mpr hspecs, (hdecisions hcontrolled).safe_iff.mpr hspecs⟩

/-- A slot annotated with five seconds is handed out with five seconds. -/
theorem limit_below_floor :
    let engines : Engines Float := fun _ => ⟨none, 0.0⟩
    ∃ (portfolio : Portfolio Float) (inTurn : RoundRobin PathFunction Float)
      (controlled : Controlled (Replay Float) Float),
      Portfolio.ofSpecs [⟨"a", some "_5"⟩] = .ok portfolio ∧
        RoundRobin.start portfolio Dict.empty ⟨fun _ _ => []⟩ Config.default (Generator.ofSeed 3) =
          .ok inTurn ∧
        Controlled.start portfolio (Replay.ofDecisions []) Config.default = .ok controlled ∧
        (RoundRobin.run [.next engines] inTurn).portfolio.limits = [5] ∧
        (Controlled.run [] controlled).portfolio.limits = [5] ∧ 5 < limitFloor := by
  intro engines
  exact ⟨_, _, _, rfl, rfl, rfl, rfl, rfl, by decide⟩

end AlgorithmPortfolio
