import AlgorithmPortfolio.Controller.Replay
import AlgorithmPortfolio.Proofs.Control.Run
import AlgorithmPortfolio.Proofs.Schedule.Turns
import Mathlib.Data.List.Basic

/-!
# Slots and their index

A portfolio is made in one pass that keeps all slots, the last position of each identifier and
the first place of each identifier among the distinct ones. The three agree from then on:
nothing that is done to slots, by callers or by a schedule, changes an identifier.

- `FirstPlaces`: the distinct words of a list in the order of their first places, which
  `List.eraseDups` makes (`firstPlaces_eraseDups`).
- `Consistent`: what identifiers, positions and look-ups say of each other. An indexed portfolio
  is consistent (`Indexed.consistent`).
- `operated`: a portfolio after changes of its slots.
- `RoundRobin.indexed_step`: the calls of a schedule in turn keep the index right.
- `consistent_of_slots`: every portfolio that is made is consistent, and stays so.
-/

namespace AlgorithmPortfolio

variable {α : Type}

namespace Portfolio

/-! ## First places -/

/-- The distinct words of a list, in the order of their first places in it. -/
structure FirstPlaces (words distinct : List String) : Prop where
  nodup : distinct.Nodup
  mem_iff : ∀ word, word ∈ distinct ↔ word ∈ words
  ascending : distinct.Pairwise fun a b => words.idxOf a < words.idxOf b

theorem firstPlaces_eraseDups (words : List String) : FirstPlaces words words.eraseDups := by
  refine ⟨nodup_eraseDups words, fun word => List.mem_eraseDups, ?_⟩
  induction words using List.reverseRecOn with
  | nil => exact .nil
  | append_singleton words word ih =>
    -- one more word at the end leaves all first places as they are
    have hplace {other : String} (hother : other ∈ words.eraseDups) :
        (words ++ [word]).idxOf other = words.idxOf other :=
      List.idxOf_append_of_mem (List.mem_eraseDups.mp hother)
    have hearlier : words.eraseDups.Pairwise fun a b =>
        (words ++ [word]).idxOf a < (words ++ [word]).idxOf b := by
      refine ih.imp_of_mem fun ha hb hlt => ?_
      rwa [hplace ha, hplace hb]
    rw [eraseDups_concat]
    by_cases hmem : word ∈ words
    · rwa [if_pos hmem]
    · rw [if_neg hmem, List.pairwise_append]
      refine ⟨hearlier, List.pairwise_singleton _ _, fun a ha b hb => ?_⟩
      obtain rfl := List.mem_singleton.mp hb
      rw [hplace ha, List.idxOf_append_of_notMem hmem, List.idxOf_cons_self, Nat.add_zero]
      exact List.idxOf_lt_length_of_mem (List.mem_eraseDups.mp ha)

/-! ## Consistent portfolios -/

/-- A portfolio of slots with the given identifiers that agrees with its index: its identifiers
are the distinct ones in the order of their first slots, a position is the greatest with an
identifier, and there is one for exactly these. A look-up finds the slot at that position, which
has the identifier, and nothing else. -/
structure Consistent (ids : List String) (portfolio : Portfolio α) : Prop where
  ids_eq : portfolio.slots.map Slot.id = ids
  firstPlaces : FirstPlaces ids portfolio.identifiers
  position_iff : ∀ id position, portfolio.position id = some position ↔ IsLast ids id position
  position_isSome_iff : ∀ id, (portfolio.position id).isSome ↔ id ∈ portfolio.identifiers
  found : ∀ id ∈ portfolio.identifiers, ∃ position slot,
    portfolio.find? id = some (position, slot) ∧
    portfolio.position id = some position ∧ portfolio.get? position = some slot ∧ slot.id = id
  not_found : ∀ id, id ∉ portfolio.identifiers → portfolio.find? id = none

theorem Indexed.consistent {ids : List String} {portfolio : Portfolio α}
    (h : portfolio.Indexed ids) : portfolio.Consistent ids := by
  have hmem (id : String) : id ∈ portfolio.identifiers ↔ id ∈ ids := by
    rw [h.identifiers_eq, List.mem_eraseDups]
  refine ⟨h.ids_eq, h.identifiers_eq ▸ firstPlaces_eraseDups ids, h.position_iff, fun id => ?_,
    fun id hid => ?_, fun id hid => ?_⟩
  · -- the index has a position for each identifier and for no other
    rw [hmem, Option.isSome_iff_ne_none, Ne, h.position_none_iff, not_not]
  · cases hfind : portfolio.find? id with
    | none => exact absurd ((hmem id).mp hid) ((h.find?_eq_none_iff id).mp hfind)
    | some found =>
      obtain ⟨hposition, -, hslot, hown⟩ := h.of_find? hfind
      exact ⟨found.1, found.2, rfl, hposition, hslot, hown⟩
  · rw [h.find?_eq_none_iff, ← hmem]
    exact hid

/-- Every list of slots that is not empty makes an indexed portfolio of them. -/
theorem exists_ofSlots {slots : List (Slot α)} (nonempty : slots ≠ []) :
    ∃ portfolio, ofSlots slots = .ok portfolio ∧ portfolio.slots = slots ∧
      portfolio.Indexed (slots.map Slot.id) := by
  cases slots with
  | nil => exact absurd rfl nonempty
  | cons slot rest =>
    obtain ⟨portfolio, hmade⟩ : ∃ portfolio, ofSlots (slot :: rest) = .ok portfolio := ⟨_, rfl⟩
    exact ⟨portfolio, hmade, (of_ofSlots hmade).2.1, indexed_ofSlots hmade⟩

variable [Arith α]

/-- A portfolio after changes that callers made to slots, each at a position. -/
def operated (changes : List (Nat × Slot.Operation α)) (portfolio : Portfolio α) : Portfolio α :=
  changes.foldl (fun portfolio change => portfolio.modify change.1 change.2.apply) portfolio

theorem Indexed.operated {ids : List String} {portfolio : Portfolio α} (h : portfolio.Indexed ids)
    (changes : List (Nat × Slot.Operation α)) : (portfolio.operated changes).Indexed ids := by
  have hchange {reached : Portfolio α} (hreached : reached.Indexed ids)
      (change : Nat × Slot.Operation α) :
      (reached.modify change.1 change.2.apply).Indexed ids :=
    hreached.modify (fun slot => Slot.id_apply slot change.2) change.1
  exact Indexed.foldl id hchange h changes

end Portfolio

variable {σ : Type} {ids : List String} [Arith α]

/-! ## Schedules in turn -/

namespace RoundRobin

variable [PathSampler σ] {schedule : RoundRobin σ α}

theorem indexed_rebalance (h : schedule.portfolio.Indexed ids) (engines : Engines α) :
    (schedule.rebalance engines).2.portfolio.Indexed ids := by
  have hids : (schedule.rebalance engines).2.portfolio.slots.map Slot.id =
      schedule.portfolio.slots.map Slot.id :=
    Rebalance.map_slots_pass (fun _ _ _ => rfl) engines schedule.knobs schedule.round
      schedule.models schedule.portfolio.slots schedule.draws
  exact h.withSlots (hids.trans h.ids_eq)

theorem indexed_atTurn (h : schedule.portfolio.Indexed ids) (engines : Engines α) :
    (schedule.atTurn engines).portfolio.Indexed ids := by
  unfold atTurn
  split
  · -- the slots of the pass are reset
    have hcounted : schedule.counted.portfolio.Indexed ids := h
    have hpass := indexed_rebalance hcounted engines
    refine hpass.withSlots ?_
    rw [List.map_map]
    exact hpass.ids_eq
  · exact h

/-- No call changes an identifier or the index. -/
theorem indexed_step (h : schedule.portfolio.Indexed ids) (event : Event α) :
    (event.step schedule).portfolio.Indexed ids := by
  cases event with
  | next engines =>
    show (schedule.next engines).2.portfolio.Indexed ids
    have hid (slot : Slot α) : slot.dispatch.id = slot.id := rfl
    rw [portfolio_next]
    exact (indexed_atTurn h engines).modify hid _
  | rebalance engines => exact indexed_rebalance h engines
  | setModel id model => exact h
  | setMetrics metrics => exact h
  | operate position operation => exact h.modify (fun slot => Slot.id_apply slot operation) position

end RoundRobin

/-! ## From the start on -/

/-- **The index agrees with the slots.** Every list of slots that is not empty makes a portfolio
of these slots. It is consistent, and it still is after any changes of slots, and after any
calls of a schedule of either kind that it is given to. -/
theorem Portfolio.consistent_of_slots {slots : List (Slot α)} (nonempty : slots ≠ []) :
    ∃ portfolio, ofSlots slots = .ok portfolio ∧ portfolio.slots = slots ∧
      portfolio.Consistent (slots.map Slot.id) ∧
      ∀ changes, (portfolio.operated changes).Consistent (slots.map Slot.id) ∧
        (∀ {σ : Type} [PathSampler σ] {models : Dict (PathModel α)} {sampler : σ} {config : Config}
          {unseeded : Generator} {schedule : RoundRobin σ α},
          RoundRobin.start (portfolio.operated changes) models sampler config unseeded =
            .ok schedule →
            ∀ events, (RoundRobin.run events schedule).portfolio.Consistent (slots.map Slot.id)) ∧
        ∀ {σ : Type} [Controller σ α] {controller : σ} {config : Config}
          {schedule : Controlled σ α},
          Controlled.start (portfolio.operated changes) controller config = .ok schedule →
            ∀ events, (Controlled.run events schedule).portfolio.Consistent
              (slots.map Slot.id) := by
  obtain ⟨portfolio, hmade, hslots, hindexed⟩ := exists_ofSlots nonempty
  refine ⟨portfolio, hmade, hslots, hindexed.consistent, fun changes => ?_⟩
  have hoperated := hindexed.operated changes
  refine ⟨hoperated.consistent, ?_, ?_⟩
  · intro σ _ models sampler config unseeded schedule hstart events
    rw [← RoundRobin.portfolio_start hstart] at hoperated
    exact (Indexed.foldl RoundRobin.portfolio RoundRobin.indexed_step hoperated events).consistent
  · intro σ _ controller config schedule hstart events
    rw [← Controlled.portfolio_start hstart] at hoperated
    exact (Indexed.foldl Controlled.portfolio Controlled.indexed_step hoperated events).consistent

/-- Three slots, the first and the last of which have the same identifier: it leads to the last
one, also after the first one was given an engine and decisions for that identifier and for an
unknown one were made. -/
theorem Portfolio.consistent_of_slots_repeated :
    let slots : List (Slot Float) := [.ofSpec ⟨"a", none⟩, .ofSpec ⟨"b", none⟩, .ofSpec ⟨"a", none⟩]
    let decisions : List Decision := [⟨"a", 500⟩, ⟨"z", 20⟩]
    slots ≠ [] ∧ ∃ portfolio, ∃ schedule : Controlled (Replay Float) Float,
      ofSlots slots = .ok portfolio ∧
      Controlled.start (portfolio.operated [(0, .attach "e")]) (Replay.ofDecisions decisions)
        Config.default = .ok schedule ∧
      (Controlled.run [.next, .next] schedule).portfolio.Consistent ["a", "b", "a"] ∧
      (Controlled.run [.next, .next] schedule).portfolio.identifiers = ["a", "b"] ∧
      (Controlled.run [.next, .next] schedule).portfolio.position "a" = some 2 := by
  intro slots decisions
  have nonempty : slots ≠ [] := List.cons_ne_nil _ _
  obtain ⟨portfolio, hmade, -, -, hchanged⟩ := consistent_of_slots nonempty
  obtain ⟨schedule, hstart⟩ : ∃ schedule : Controlled (Replay Float) Float,
      Controlled.start (portfolio.operated [(0, .attach "e")]) (Replay.ofDecisions decisions)
        Config.default = .ok schedule := ⟨_, rfl⟩
  have hconsistent := (hchanged [(0, .attach "e")]).2.2 hstart [.next, .next]
  refine ⟨nonempty, portfolio, schedule, hmade, hstart, hconsistent, ?_, ?_⟩
  · cases hmade
    cases hstart
    rfl
  · cases hmade
    cases hstart
    rfl

end AlgorithmPortfolio
