import AlgorithmPortfolio.Controller.Replay
import AlgorithmPortfolio.Proofs.Control.Run
import AlgorithmPortfolio.Proofs.Schedule.Turns

/-!
# The gauge of the limits

Metrics show the time limits by identifier, next to the slots that have them. A limit that
changes has to be shown again, and of slots with the same identifier it is the last one whose
limit is shown.

- `MetricSet.Shows`: the gauge says of every identifier what a look-up of the slot says.
- `shows_setLimits`: to show all limits is enough, also with slots of the same identifier.
- `Shown`: an indexed portfolio and metrics that show its limits. Other slots are shown by
  showing all limits (`Shown.setLimits`), a slot that is handed out by its own limit
  (`Shown.recordDispatch`).
- `Controlled.Undisturbed`, `RoundRobin.Undisturbed`: runs in which only the schedule changes
  limits.
- `Controlled.shown_step`, `RoundRobin.shown_step`: such a call keeps all limits shown.
- `gauge_of_run`: after such a run the gauge says what the limits are.
-/

namespace AlgorithmPortfolio

variable {σ α : Type}

namespace Portfolio

/-- The limit of the slot that an identifier leads to. -/
def limitOf? (portfolio : Portfolio α) (id : String) : Option Nat :=
  (portfolio.find? id).map fun found => found.2.limit

/-- A limit is read off the limits in order and the index. -/
theorem limitOf?_eq (portfolio : Portfolio α) (id : String) :
    portfolio.limitOf? id = (portfolio.position id).bind (portfolio.limits[·]?) := by
  rw [limitOf?, find?]
  cases portfolio.position id with
  | none => rfl
  | some position =>
    show ((portfolio.get? position).bind fun slot => some (position, slot)).map _ =
      (portfolio.slots.map Slot.limit)[position]?
    rw [List.getElem?_map, ← get?]
    cases portfolio.get? position with
    | none => rfl
    | some slot => rfl

theorem map_fst_limitsById (portfolio : Portfolio α) :
    portfolio.limitsById.map Prod.fst = portfolio.slots.map Slot.id := by
  rw [limitsById, List.map_map]
  rfl

theorem map_snd_limitsById (portfolio : Portfolio α) :
    portfolio.limitsById.map Prod.snd = portfolio.limits := by
  rw [limitsById, List.map_map]
  rfl

end Portfolio

/-! ## What a gauge shows -/

/-- Metrics that show of every identifier the limit of the slot that it leads to, and nothing
else. -/
def MetricSet.Shows (portfolio : Portfolio α) (metrics : MetricSet) : Prop :=
  ∀ id, metrics.limits.get? id = portfolio.limitOf? id

theorem MetricSet.limits_setLimits (pairs : List (String × Nat)) (metrics : MetricSet) :
    (metrics.setLimits pairs).limits = metrics.limits.insertAll pairs := by
  induction pairs generalizing metrics with
  | nil => rfl
  | cons pair rest ih => exact ih (metrics.setLimit pair.1 pair.2)

variable {ids : List String} {portfolio : Portfolio α} {metrics : MetricSet}

/-- Metrics that show nothing of other slots come to show all limits. -/
theorem shows_setLimits (indexed : portfolio.Indexed ids)
    (own : ∀ id, id ∉ ids → metrics.limits.get? id = none) :
    (metrics.setLimits portfolio.limitsById).Shows portfolio := by
  intro id
  -- the gauge has an entry for each slot, in their order
  have hkeys : portfolio.limitsById.map Prod.fst = ids :=
    portfolio.map_fst_limitsById.trans indexed.ids_eq
  rw [MetricSet.limits_setLimits, Portfolio.limitOf?_eq]
  cases hposition : portfolio.position id with
  -- what the portfolio does not know is not written
  | none =>
    have hid := (indexed.position_none_iff id).mp hposition
    rw [Dict.get?_insertAll_of_notMem (hkeys.symm ▸ hid), own id hid]
    rfl
  | some position =>
    -- of several slots with the name, the last is the one that is written last
    have hlast := (indexed.position_iff id position).mp hposition
    rw [Portfolio.get?_insertAll_of_isLast (hkeys.symm ▸ hlast), Portfolio.map_snd_limitsById]
    rfl

/-- An indexed portfolio and metrics that show its limits. -/
structure Shown (ids : List String) (portfolio : Portfolio α) (metrics : MetricSet) : Prop where
  indexed : portfolio.Indexed ids
  shows : metrics.Shows portfolio

namespace Shown

/-- Metrics without limits are ready to show those of any slots. -/
theorem attach (indexed : portfolio.Indexed ids) (blank : metrics.limits = Dict.empty) :
    Shown ids portfolio (metrics.setLimits portfolio.limitsById) := by
  refine ⟨indexed, shows_setLimits indexed fun id _ => ?_⟩
  rw [blank]
  exact Dict.get?_empty id

/-- Slots with the same identifiers and limits are shown as well. -/
theorem congr (h : Shown ids portfolio metrics) {slots : List (Slot α)} {later : MetricSet}
    (hids : slots.map Slot.id = ids) (hlimits : slots.map Slot.limit = portfolio.limits)
    (hlater : later.limits = metrics.limits) : Shown ids { portfolio with slots } later := by
  refine ⟨h.indexed.withSlots hids, fun id => ?_⟩
  rw [hlater, h.shows, Portfolio.limitOf?_eq, Portfolio.limitOf?_eq, ← hlimits]
  rfl

/-- To show all limits again is enough, whatever became of them. -/
theorem setLimits (h : Shown ids portfolio metrics) {slots : List (Slot α)} {later : MetricSet}
    (hids : slots.map Slot.id = ids) (hlater : later.limits = metrics.limits) :
    Shown ids { portfolio with slots }
      (later.setLimits (Portfolio.limitsById { portfolio with slots })) := by
  have hindexed := h.indexed.withSlots hids
  refine ⟨hindexed, shows_setLimits hindexed fun id hid => ?_⟩
  have hnone := (h.indexed.find?_eq_none_iff id).mpr hid
  rw [hlater, h.shows, Portfolio.limitOf?, hnone]
  rfl

/-- The slot that its identifier leads to is handed out and its limit shown. -/
theorem recordDispatch (h : Shown ids portfolio metrics) {position : Nat} {slot : Slot α}
    (hfind : portfolio.find? slot.id = some (position, slot)) {change : Slot α → Slot α}
    (hid : ∀ slot, (change slot).id = slot.id) :
    Shown ids (portfolio.modify position change)
      (metrics.recordDispatch slot.id (change slot).limit) := by
  refine ⟨h.indexed.modify hid position, fun id => ?_⟩
  obtain ⟨hposition, hlast, hslot, -⟩ := h.indexed.of_find? hfind
  have hshown := h.shows id
  show (metrics.limits.insert slot.id (change slot).limit).get? id = _
  rw [Portfolio.limitOf?_eq] at hshown
  rw [Dict.get?_insert, Portfolio.limitOf?_eq, Portfolio.position_modify]
  -- the slot that was found is the one that its identifier leads to
  by_cases hsame : id = slot.id
  · have hlimit : (portfolio.modify position change).limits[position]? =
        some (change slot).limit := by
      show ((portfolio.slots.modify position change).map Slot.limit)[position]? = _
      rw [List.getElem?_map, List.getElem?_modify_eq]
      exact congrArg (fun found => (found.map change).map Slot.limit) hslot
    rw [if_pos hsame, hsame, hposition]
    exact hlimit.symm
  · rw [if_neg hsame, hshown]
    cases hother : portfolio.position id with
    | none => rfl
    | some other =>
      -- another identifier leads to another position
      have hne : position ≠ other := by
        rintro rfl
        have hhere := ((h.indexed.position_iff id position).mp hother).here
        exact hsame (Option.some.inj (hhere.symm.trans hlast.here))
      show portfolio.limits[other]? =
        ((portfolio.slots.modify position change).map Slot.limit)[other]?
      rw [List.getElem?_map, List.getElem?_modify_ne _ _ hne, ← List.getElem?_map]
      rfl

end Shown

/-! ## Schedules of a controller -/

namespace Controlled

variable [Controller σ α] [Arith α]

/-- Whether a call leaves it to the schedule to change limits: a change of a slot keeps all
limits, and new metrics show none yet. -/
def Event.Harmless (schedule : Controlled σ α) : Event α → Prop
  | .setMetrics metrics => metrics.limits = Dict.empty
  | .operate position operation =>
    (Event.step schedule (.operate position operation)).portfolio.limits = schedule.portfolio.limits
  | _ => True

/-- A run in which only the schedule changes limits. -/
def Undisturbed : Controlled σ α → List (Event α) → Prop
  | _, [] => True
  | schedule, event :: rest => event.Harmless schedule ∧ Undisturbed (event.step schedule) rest

variable {ids : List String} {schedule : Controlled σ α}

/-- A turn shows the limit that it gives. -/
theorem shown_next (h : Shown ids schedule.portfolio schedule.metrics) :
    Shown ids schedule.next.2.portfolio schedule.next.2.metrics := by
  rcases next_cases schedule with ⟨-, hnext⟩ | ⟨_, -, -, hnext⟩ |
    ⟨decided, position, slot, -, hfind, hnext⟩
  · -- no slot is handed out, and no limit is written
    rw [hnext]
    exact h
  · rw [hnext]
    exact ⟨h.indexed, h.shows⟩
  · obtain ⟨-, -, -, hid⟩ := h.indexed.of_find? hfind
    rw [← hid] at hfind
    rw [hnext]
    exact h.recordDispatch hfind fun _ => rfl

theorem shown_step (h : Shown ids schedule.portfolio schedule.metrics) {event : Event α}
    (harmless : event.Harmless schedule) :
    Shown ids (event.step schedule).portfolio (event.step schedule).metrics := by
  cases event with
  | next => exact shown_next h
  | hasNext => exact h
  | setMetrics metrics => exact .attach h.indexed harmless
  | operate position operation =>
    have hids := Portfolio.map_modify_of_frame (fun slot => Slot.id_apply slot operation) position
      schedule.portfolio
    exact h.congr (hids.trans h.indexed.ids_eq) harmless rfl

theorem shown_run (h : Shown ids schedule.portfolio schedule.metrics) {events : List (Event α)}
    (undisturbed : Undisturbed schedule events) :
    Shown ids (run events schedule).portfolio (run events schedule).metrics := by
  induction events generalizing schedule with
  | nil => exact h
  | cons event rest ih => exact ih (shown_step h undisturbed.1) undisturbed.2

end Controlled

/-! ## Schedules in turn -/

namespace RoundRobin

variable [PathSampler σ] [Arith α]

/-- Whether a call leaves it to the schedule to change limits: a change of a slot keeps all
limits, and new metrics show none yet. -/
def Event.Harmless (schedule : RoundRobin σ α) : Event α → Prop
  | .setMetrics metrics => metrics.limits = Dict.empty
  | .operate position operation =>
    (Event.step schedule (.operate position operation)).portfolio.limits = schedule.portfolio.limits
  | _ => True

/-- A run in which only the schedule changes limits. -/
def Undisturbed : RoundRobin σ α → List (Event α) → Prop
  | _, [] => True
  | schedule, event :: rest => event.Harmless schedule ∧ Undisturbed (event.step schedule) rest

variable {ids : List String} {schedule : RoundRobin σ α}

/-- A pass shows the limits that it gives, and a skipped one gives none. -/
theorem shown_rebalance (h : Shown ids schedule.portfolio schedule.metrics) (engines : Engines α) :
    Shown ids (schedule.rebalance engines).2.portfolio (schedule.rebalance engines).2.metrics := by
  have hids : (schedule.currentPass engines).2.1.map Slot.id =
      schedule.portfolio.slots.map Slot.id :=
    Rebalance.map_slots_pass (fun _ _ _ => rfl) engines schedule.knobs schedule.round
      schedule.models schedule.portfolio.slots schedule.draws
  rcases Rebalance.pass_cases engines schedule.knobs schedule.round schedule.models
      schedule.portfolio.slots schedule.draws with
    ⟨reason, after, hrefreshed, hskipped⟩ | ⟨votes, after, -, -, -, -, hpass⟩
  · -- a skipped pass changes no limit
    have hpass : schedule.currentPass engines = (.skipped reason, after, schedule.draws) :=
      hskipped schedule.models schedule.draws rfl
    have hlimits : after.map Slot.limit = schedule.portfolio.limits :=
      Rebalance.map_refreshed (fun _ _ => rfl) hrefreshed
    rw [hpass] at hids
    rw [rebalance_of_pass hpass]
    exact h.congr (hids.trans h.indexed.ids_eq) hlimits rfl
  · -- an applied pass shows all limits anew
    change schedule.currentPass engines = _ at hpass
    rw [hpass] at hids
    rw [rebalance_of_pass hpass]
    exact h.setLimits (hids.trans h.indexed.ids_eq) rfl

/-- The end of a round shows the limits of the next one. -/
theorem shown_atTurn (h : Shown ids schedule.portfolio schedule.metrics) (engines : Engines α) :
    Shown ids (schedule.atTurn engines).portfolio (schedule.atTurn engines).metrics := by
  unfold atTurn
  split
  · have hcounted : Shown ids schedule.counted.portfolio schedule.counted.metrics :=
      ⟨h.indexed, h.shows⟩
    have hpass := shown_rebalance hcounted engines
    refine hpass.congr ?_ ?_ rfl
    · -- the reset of the round keeps identifiers and limits
      rw [List.map_map]
      exact hpass.indexed.ids_eq
    · rw [List.map_map]
      rfl
  · exact h

theorem shown_next (distinct : ids.Nodup) (h : Shown ids schedule.portfolio schedule.metrics)
    (engines : Engines α) :
    Shown ids (schedule.next engines).2.portfolio (schedule.next engines).2.metrics := by
  have hturn := shown_atTurn h engines
  cases hslot : (schedule.atTurn engines).portfolio.get? (schedule.atTurn engines).cursor with
  | none =>
    rw [next_of_none hslot]
    exact hturn
  | some slot =>
    rw [next_of_slot hslot, portfolio_dispatch hslot]
    exact hturn.recordDispatch (hturn.indexed.find?_of_nodup distinct hslot) fun _ => rfl

theorem shown_step (distinct : ids.Nodup) (h : Shown ids schedule.portfolio schedule.metrics)
    {event : Event α} (harmless : event.Harmless schedule) :
    Shown ids (event.step schedule).portfolio (event.step schedule).metrics := by
  cases event with
  | next engines => exact shown_next distinct h engines
  | rebalance engines => exact shown_rebalance h engines
  | setModel id model => exact h
  | setMetrics metrics => exact .attach h.indexed harmless
  | operate position operation =>
    have hids := Portfolio.map_modify_of_frame (fun slot => Slot.id_apply slot operation) position
      schedule.portfolio
    exact h.congr (hids.trans h.indexed.ids_eq) harmless rfl

theorem shown_run (distinct : ids.Nodup) (h : Shown ids schedule.portfolio schedule.metrics)
    {events : List (Event α)} (undisturbed : Undisturbed schedule events) :
    Shown ids (run events schedule).portfolio (run events schedule).metrics := by
  induction events generalizing schedule with
  | nil => exact h
  | cons event rest ih => exact ih (shown_step distinct h undisturbed.1) undisturbed.2

end RoundRobin

/-! ## After a run -/

variable [Arith α]

/-- **The gauge tracks the limits.** In a run in which only the schedule changes limits, be it
on a controller's decision or in a reallocation pass, the gauge has at any time for each
identifier the limit of the slot that a look-up finds, and no value for any other word; metrics
may be replaced by fresh ones in between. A schedule in turn hands out all slots with the same
identifier, so there it takes distinct identifiers; a schedule of a controller only hands out
what a look-up finds. -/
theorem gauge_of_run {slots : List (Slot α)} {portfolio : Portfolio α}
    (made : Portfolio.ofSlots slots = .ok portfolio) :
    (∀ {σ : Type} [Controller σ α] {controller : σ} {config : Config} {schedule : Controlled σ α}
        {events : List (Controlled.Event α)},
        Controlled.start portfolio controller config = .ok schedule →
        Controlled.Undisturbed schedule events →
          (Controlled.run events schedule).metrics.Shows
            (Controlled.run events schedule).portfolio) ∧
      ((slots.map Slot.id).Nodup →
        ∀ {σ : Type} [PathSampler σ] {models : Dict (PathModel α)} {sampler : σ} {config : Config}
          {unseeded : Generator} {schedule : RoundRobin σ α} {events : List (RoundRobin.Event α)},
          RoundRobin.start portfolio models sampler config unseeded = .ok schedule →
          RoundRobin.Undisturbed schedule events →
            (RoundRobin.run events schedule).metrics.Shows
              (RoundRobin.run events schedule).portfolio) := by
  have indexed := Portfolio.indexed_ofSlots made
  constructor
  · intro σ _ controller config schedule events started undisturbed
    have hstart : Shown (slots.map Slot.id) schedule.portfolio schedule.metrics := by
      rw [← Controlled.portfolio_start started] at indexed
      rw [← Controlled.withMetrics_start started]
      exact .attach indexed rfl
    exact (Controlled.shown_run hstart undisturbed).shows
  · intro distinct σ _ models sampler config unseeded schedule events started undisturbed
    have hstart : Shown (slots.map Slot.id) schedule.portfolio schedule.metrics := by
      rw [← RoundRobin.portfolio_start started] at indexed
      rw [← RoundRobin.withMetrics_start started]
      exact .attach indexed rfl
    exact (RoundRobin.shown_run distinct hstart undisturbed).shows

/-- Slots of which two have the same identifier, under a controller that decides on two of them,
and distinct slots in turn, up to the second round. Both get new metrics after their first
turn. -/
theorem gauge_of_run_replaced :
    let slots : List (Slot Float) := [.ofSpec ⟨"a", none⟩, .ofSpec ⟨"b", none⟩, .ofSpec ⟨"a", none⟩]
    let others : List (Slot Float) := [.ofSpec ⟨"a", none⟩, .ofSpec ⟨"b", none⟩]
    let engines : Engines Float := fun _ => ⟨none, 0.0⟩
    let decisions : List (Controlled.Event Float) :=
      [.next, .setMetrics (.fresh "own"), .next, .next]
    let turns : List (RoundRobin.Event Float) :=
      [.next engines, .setMetrics (.fresh "own"), .next engines, .operate 0 (.record [1]),
        .rebalance engines, .next engines]
    ∃ (portfolio other : Portfolio Float) (controlled : Controlled (Replay Float) Float)
      (inTurn : RoundRobin PathFunction Float),
      Portfolio.ofSlots slots = .ok portfolio ∧ Portfolio.ofSlots others = .ok other ∧
        (others.map Slot.id).Nodup ∧
        Controlled.start portfolio (.ofDecisions [⟨"a", 30⟩, ⟨"b", 20⟩]) Config.default =
          .ok controlled ∧
        RoundRobin.start other Dict.empty ⟨fun _ _ => []⟩ Config.default (Generator.ofSeed 3) =
          .ok inTurn ∧
        Controlled.Undisturbed controlled decisions ∧ RoundRobin.Undisturbed inTurn turns ∧
        (Controlled.run decisions controlled).metrics.limits.get? "a" = some 30 ∧
        (Controlled.run decisions controlled).metrics.limits.get? "b" = some 20 ∧
        (RoundRobin.run turns inTurn).metrics.limits.get? "a" = some 10 ∧
        (RoundRobin.run turns inTurn).metrics.limits.get? "own" = none := by
  intro slots others engines decisions turns
  obtain ⟨portfolio, hportfolio⟩ : ∃ portfolio, Portfolio.ofSlots slots = .ok portfolio := ⟨_, rfl⟩
  obtain ⟨other, hother⟩ : ∃ other, Portfolio.ofSlots others = .ok other := ⟨_, rfl⟩
  obtain ⟨controlled, hcontrolled⟩ : ∃ controlled : Controlled (Replay Float) Float,
      Controlled.start portfolio (.ofDecisions [⟨"a", 30⟩, ⟨"b", 20⟩]) Config.default =
        .ok controlled := ⟨_, rfl⟩
  obtain ⟨inTurn, hinTurn⟩ : ∃ inTurn : RoundRobin PathFunction Float,
      RoundRobin.start other Dict.empty ⟨fun _ _ => []⟩ Config.default (Generator.ofSeed 3) =
        .ok inTurn := ⟨_, rfl⟩
  have hdistinct : (others.map Slot.id).Nodup := by decide
  have hdecisions : Controlled.Undisturbed controlled decisions :=
    ⟨trivial, rfl, trivial, trivial, trivial⟩
  -- recording progress writes no limit
  have hturns : RoundRobin.Undisturbed inTurn turns := by
    refine ⟨trivial, rfl, trivial, ?_, trivial, trivial, trivial⟩
    exact @Portfolio.map_modify_of_frame _ _ Slot.limit (fun slot => slot.record [1])
      (fun _ => rfl) 0 _
  have hlimits : (Controlled.run decisions controlled).portfolio.limitOf? "a" = some 30 ∧
      (Controlled.run decisions controlled).portfolio.limitOf? "b" = some 20 := by
    cases hportfolio
    cases hcontrolled
    exact ⟨rfl, rfl⟩
  have hkept : (RoundRobin.run turns inTurn).portfolio.limitOf? "a" = some 10 ∧
      (RoundRobin.run turns inTurn).portfolio.limitOf? "own" = none := by
    cases hother
    cases hinTurn
    decide +kernel
  have hshown := (gauge_of_run hportfolio).1 hcontrolled hdecisions
  have hshownInTurn := (gauge_of_run hother).2 hdistinct hinTurn hturns
  refine ⟨portfolio, other, controlled, inTurn, hportfolio, hother, hdistinct, hcontrolled, hinTurn,
    hdecisions, hturns, ?_, ?_, ?_, ?_⟩
  · rw [hshown, hlimits.1]
  · rw [hshown, hlimits.2]
  · rw [hshownInTurn, hkept.1]
  · rw [hshownInTurn, hkept.2]

end AlgorithmPortfolio
