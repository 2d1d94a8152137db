import AlgorithmPortfolio.Controller.Random
import AlgorithmPortfolio.Proofs.Control.Replay
import AlgorithmPortfolio.Proofs.TimeMenu.Offers
import Mathlib.Data.List.Nodup
import Mathlib.Data.Set.Function

/-!
# Schedules with random decisions

A controller that chooses pairs of a slot and an offer keeps to the protocol: as long as there
is a pair, every call for a turn hands out a slot with an offer of the menu.

- `RandomChoice.pairAt_eq`, `RandomChoice.bijOn_pairAt`: the numbers of pairs are those below
  their number, and each pair has one.
- `RandomChoice.next_fst`, `RandomChoice.next_snd`: a choice is the pair with a number that is
  drawn, and only the stream of random numbers moves on.
- `Dealing`: the controller has the identifiers of the slots and the offers of the menu, which
  every call leaves to it (`dealing_run`).
- `random_of_run`: what becomes of every run.
-/

namespace AlgorithmPortfolio

variable {α γ : Type}

/-! ## Pairs -/

namespace RandomChoice

variable (choice : RandomChoice α γ)

/-- Every number below the number of pairs is that of a pair. -/
theorem pairAt_eq {k : Nat} (h : k < choice.pairCount) :
    ∃ (hslot : k / choice.menu.length < choice.identifiers.length)
      (hoffer : k % choice.menu.length < choice.menu.length),
      choice.pairAt k = some ⟨choice.identifiers[k / choice.menu.length],
        choice.menu[k % choice.menu.length]⟩ := by
  -- there is a pair at all, so the menu is not empty
  have hpos : 0 < choice.menu.length := Nat.pos_of_ne_zero fun hzero => by
    rw [pairCount, hzero] at h
    exact Nat.not_lt_zero k h
  have hslot : k / choice.menu.length < choice.identifiers.length :=
    (Nat.div_lt_iff_lt_mul hpos).mpr h
  have hoffer : k % choice.menu.length < choice.menu.length := Nat.mod_lt k hpos
  refine ⟨hslot, hoffer, ?_⟩
  rw [pairAt, List.getElem?_eq_getElem hslot, List.getElem?_eq_getElem hoffer]
  rfl

/-- Without repetitions among identifiers and offers each pair has exactly one number. -/
theorem bijOn_pairAt (hidentifiers : choice.identifiers.Nodup) (hmenu : choice.menu.Nodup) :
    Set.BijOn choice.pairAt {k | k < choice.pairCount}
      {pair | ∃ id ∈ choice.identifiers, ∃ offer ∈ choice.menu, pair = some ⟨id, offer⟩} := by
  refine ⟨fun k hk => ?_, fun i hi j hj heq => ?_, ?_⟩
  · -- each pair is of a slot and an offer
    obtain ⟨hslot, hoffer, hpair⟩ := choice.pairAt_eq hk
    exact ⟨_, List.getElem_mem hslot, _, List.getElem_mem hoffer, hpair⟩
  · -- no pair comes twice
    obtain ⟨hslot, hoffer, hpair⟩ := choice.pairAt_eq hi
    obtain ⟨hslot', hoffer', hpair'⟩ := choice.pairAt_eq hj
    rw [hpair, hpair', Option.some.injEq, Decision.mk.injEq] at heq
    -- quotient and remainder are the same, so the numbers are
    have hdiv := hidentifiers.getElem_inj_iff.mp heq.1
    have hmod := hmenu.getElem_inj_iff.mp heq.2
    rw [← Nat.div_add_mod i choice.menu.length, hdiv, hmod, Nat.div_add_mod]
  · -- a pair is found at its row and column
    rintro _ ⟨id, hid, offer, hoffer, rfl⟩
    obtain ⟨row, hrow, rfl⟩ := List.getElem_of_mem hid
    obtain ⟨column, hcolumn, rfl⟩ := List.getElem_of_mem hoffer
    have hdiv : (row * choice.menu.length + column) / choice.menu.length = row := by
      rw [Nat.mul_comm, Nat.mul_add_div (Nat.zero_lt_of_lt hcolumn), Nat.div_eq_of_lt hcolumn]
      rfl
    have hmod : (row * choice.menu.length + column) % choice.menu.length = column := by
      rw [Nat.mul_comm, Nat.mul_add_mod, Nat.mod_eq_of_lt hcolumn]
    have hlt : row * choice.menu.length + column < choice.pairCount := by
      rw [pairCount, ← Nat.div_lt_iff_lt_mul (Nat.zero_lt_of_lt hcolumn), hdiv]
      exact hrow
    refine ⟨row * choice.menu.length + column, hlt, ?_⟩
    obtain ⟨hslot, hoffer', hpair⟩ := choice.pairAt_eq hlt
    rw [hpair]
    simp only [hdiv, hmod]

/-- There is a pair if and only if there are an identifier and an offer. -/
theorem hasNext_eq_false_iff :
    choice.hasNext = false ↔ choice.identifiers = [] ∨ choice.menu = [] := by
  rw [hasNext, decide_eq_false_iff_not, Nat.not_lt, Nat.le_zero, pairCount, Nat.mul_eq_zero,
    List.length_eq_zero_iff, List.length_eq_zero_iff]

variable [RandomStream γ]

/-- The number that is drawn next. -/
def drawn : Nat := (RandomStream.below choice.pairCount choice.generator).1

theorem drawn_lt (h : choice.hasNext = true) : choice.drawn < choice.pairCount :=
  RandomStream.below_lt (of_decide_eq_true h) choice.generator

/-- A choice is the pair with the number that is drawn. -/
theorem next_fst (h : choice.hasNext = true) : choice.next.1 = choice.pairAt choice.drawn := by
  rw [next, if_pos h]
  rfl

/-- A choice leaves all pairs to choose from. -/
theorem next_snd :
    choice.next.2.identifiers = choice.identifiers ∧ choice.next.2.menu = choice.menu := by
  unfold next
  cases choice.hasNext with
  | true => exact ⟨rfl, rfl⟩
  | false => exact ⟨rfl, rfl⟩

end RandomChoice

/-! ## Schedules -/

namespace Controlled

variable [RandomStream γ] [Arith α]
variable {schedule : Controlled (RandomChoice α γ) α} {ids : List String} {menu : TimeMenu}

/-- A controller with the distinct identifiers and the offers of a menu. -/
structure Dealing (ids : List String) (menu : TimeMenu) (choice : RandomChoice α γ) : Prop where
  identifiers_eq : choice.identifiers = ids.eraseDups
  menu_eq : choice.menu = menu.offers

/-- A controller that chooses at random takes no notice of feedback. -/
theorem decision_eq_next (schedule : Controlled (RandomChoice α γ) α) :
    schedule.decision = schedule.controller.next := by
  have hfeedback : schedule.feedback = schedule.controller := by
    unfold feedback
    cases schedule.current.bind schedule.portfolio.get? with
    | none => rfl
    | some slot => rfl
  rw [decision, hfeedback]
  rfl

theorem dealing_step (h : Dealing ids menu schedule.controller) (event : Event α) :
    Dealing ids menu (event.step schedule).controller := by
  cases event with
  | next =>
    -- the generator moves on; the slots and the menu stay
    obtain ⟨hidentifiers, hmenu⟩ := schedule.controller.next_snd
    show Dealing ids menu schedule.next.2.controller
    rw [controller_next, decision_eq_next]
    exact ⟨hidentifiers.trans h.identifiers_eq, hmenu.trans h.menu_eq⟩
  | hasNext => exact h
  | setMetrics metrics => exact h
  | operate position operation => exact h

theorem dealing_run (h : Dealing ids menu schedule.controller) (events : List (Event α)) :
    Dealing ids menu (run events schedule).controller :=
  List.foldlRecOn (motive := fun reached => Dealing ids menu reached.controller) events Event.step h
    fun _ hreached event _ => dealing_step hreached event

/-- A schedule of slots with given identifiers, each decision of which is a pair of one of them
and an offer of the menu. -/
structure Dealt (ids : List String) (config : Config) (menu : TimeMenu)
    (schedule : Controlled (RandomChoice α γ) α) : Prop where
  /-- Only multiples of more than the greatest limit leave it without a decision. -/
  hasNext_iff : schedule.hasNext.1 = false ↔
    config.scale = .uniform ∧ config.maxTimePerSlot < config.granularity
  /-- While there is a decision, the call for a turn hands out a slot with an offer. -/
  next_ok : schedule.hasNext.1 = true → ∃ turn offer, schedule.next.1 = .ok turn ∧
    turn.slot.id ∈ ids ∧ offer ∈ menu.offers ∧ offer ≤ config.maxTimePerSlot ∧
    turn.slot.limit = max limitFloor offer
  /-- The decision is the pair with the number that is drawn. -/
  drawn : schedule.hasNext.1 = true →
    schedule.controller.drawn < ids.eraseDups.length * menu.offers.length ∧
      schedule.decision.1 = schedule.controller.pairAt schedule.controller.drawn
  /-- Every identifier has one number with each offer. -/
  bijOn : Set.BijOn schedule.controller.pairAt {k | k < ids.eraseDups.length * menu.offers.length}
    {pair | ∃ id ∈ ids, ∃ offer ∈ menu.offers, pair = some ⟨id, offer⟩}

theorem dealt_of_dealing {config : Config} (hne : ids ≠ []) (hmenu : menu.scale = config.scale ∧
      menu.cap = config.maxTimePerSlot ∧ menu.granularity = config.granularity)
    (fits : config.maxTimePerSlot ≤ limitCeiling) (hsettled : Settled ids config schedule)
    (h : Dealing ids menu schedule.controller) : Dealt ids config menu schedule := by
  obtain ⟨hscale, hcap, hgranularity⟩ := hmenu
  have hcount : schedule.controller.pairCount = ids.eraseDups.length * menu.offers.length := by
    rw [RandomChoice.pairCount, h.identifiers_eq, h.menu_eq]
  have hdrawn (hnext : schedule.hasNext.1 = true) :
      schedule.controller.drawn < schedule.controller.pairCount ∧
        schedule.decision.1 = schedule.controller.pairAt schedule.controller.drawn := by
    refine ⟨schedule.controller.drawn_lt hnext, ?_⟩
    rw [decision_eq_next, schedule.controller.next_fst hnext]
  have hbij := schedule.controller.bijOn_pairAt
    (h.identifiers_eq ▸ Portfolio.nodup_eraseDups ids) (h.menu_eq ▸ menu.nodup_offers)
  simp only [h.identifiers_eq, h.menu_eq, List.mem_eraseDups] at hbij
  refine ⟨?_, fun hnext => ?_, hcount ▸ hdrawn, hcount ▸ hbij⟩
  · -- with a slot to choose, only an empty menu leaves no pair
    have hids : ids.eraseDups ≠ [] := by
      obtain ⟨id, hid⟩ := List.exists_mem_of_ne_nil ids hne
      exact List.ne_nil_of_mem (List.mem_eraseDups.mpr hid)
    show schedule.controller.hasNext = false ↔ _
    rw [RandomChoice.hasNext_eq_false_iff, h.identifiers_eq, h.menu_eq, menu.offers_eq_nil_iff,
      hscale, hcap, hgranularity]
    exact ⟨fun hor => hor.resolve_left hids, .inr⟩
  · -- the slot drawn exists and the offer is within the cap, so the call hands it out
    obtain ⟨hlt, hdecision⟩ := hdrawn hnext
    obtain ⟨id, hid, offer, hoffer, hpair⟩ := hbij.mapsTo hlt
    have hle : offer ≤ config.maxTimePerSlot := hcap ▸ (menu.bounds_of_mem_offers hoffer).2
    have hanswer := answers_next hsettled.indexed (hsettled.cap_eq ▸ fits)
    rw [hdecision, hpair, hsettled.cap_eq] at hanswer
    generalize schedule.next.1 = answer at hanswer ⊢
    cases hanswer with
    | unknown hunknown => exact absurd hid hunknown
    | handed hlast hslot hlimit =>
      rw [Nat.min_eq_left hle] at hlimit
      exact ⟨_, offer, rfl, hslot ▸ hid, hoffer, hle, hlimit⟩

/-- **Random decisions keep to the protocol.** With valid settings whose greatest limit has 32
bits, a schedule can be started on a controller that chooses at random, whatever its stream. In
every run it has another decision unless the menu offers nothing, and then every call for a turn
hands out a slot of the portfolio with an offer of the menu, raised to the least limit. The
numbers it draws stand one to one for the pairs of an identifier and an offer. -/
theorem random_of_run {slots : List (Slot α)} {portfolio : Portfolio α} {config : Config}
    (made : Portfolio.ofSlots slots = .ok portfolio) (valid : config.validate = .ok ())
    (fits : config.maxTimePerSlot ≤ limitCeiling) (stream : γ) :
    ∃ menu schedule, config.menu = .ok menu ∧
      start portfolio (RandomChoice.ofGenerator stream) config = .ok schedule ∧
      ∀ events, Dealt (slots.map Slot.id) config menu (run events schedule) := by
  obtain ⟨menu, hmenu, hsettings⟩ := Config.exists_menu valid
  obtain ⟨_, schedule, hmenu', hstart, hcontroller⟩ :=
    exists_start valid portfolio (RandomChoice.ofGenerator stream : RandomChoice α γ)
  obtain rfl : menu = _ := Except.ok.inj (hmenu.symm.trans hmenu')
  have hne : slots.map Slot.id ≠ [] := by
    intro hnil
    exact (Portfolio.of_ofSlots made).1 (List.map_eq_nil_iff.mp hnil)
  have hdealing : Dealing (slots.map Slot.id) menu schedule.controller := by
    rw [hcontroller]
    exact ⟨(Portfolio.of_ofSlots made).2.2, rfl⟩
  refine ⟨menu, schedule, hmenu, hstart, fun events => ?_⟩
  exact dealt_of_dealing hne hsettings fits ((Reachable.start made hstart).run events).settled
    (dealing_run hdealing events)

/-- Two slots of one identifier and another one, with five offers: after two turns and a change
of a limit there is a turn again, and one identifier and offer has exactly one of ten
numbers. -/
theorem random_of_run_duplicate :
    let slots : List (Slot Float) := [.ofSpec ⟨"a", none⟩, .ofSpec ⟨"b", none⟩, .ofSpec ⟨"a", none⟩]
    let events : List (Event Float) := [.next, .operate 2 (.adapt 7), .next]
    ∃ portfolio menu schedule, Portfolio.ofSlots slots = .ok portfolio ∧
      Config.default.validate = .ok () ∧ Config.default.maxTimePerSlot ≤ limitCeiling ∧
      start portfolio (RandomChoice.ofGenerator (Generator.ofSeed 7)) Config.default =
        .ok schedule ∧
      Dealt ["a", "b", "a"] Config.default menu (run events schedule) ∧
      (run events schedule).hasNext.1 = true ∧
      ∃ turn offer, (run events schedule).next.1 = .ok turn ∧
        turn.slot.limit = max limitFloor offer := by
  intro slots events
  obtain ⟨portfolio, hportfolio⟩ : ∃ portfolio, Portfolio.ofSlots slots = .ok portfolio := ⟨_, rfl⟩
  have hvalid : Config.default.validate = .ok () := rfl
  have hfits : Config.default.maxTimePerSlot ≤ limitCeiling := by decide
  obtain ⟨menu, schedule, -, hstart, hdealt⟩ :=
    random_of_run hportfolio hvalid hfits (Generator.ofSeed 7)
  have hnext : (run events schedule).hasNext.1 = true := by
    refine Bool.of_not_eq_false fun hfalse => ?_
    have hsettings := (hdealt events).hasNext_iff.mp hfalse
    exact absurd hsettings.2 (by decide)
  obtain ⟨turn, offer, hturn, -, -, -, hlimit⟩ := (hdealt events).next_ok hnext
  exact ⟨portfolio, menu, schedule, hportfolio, hvalid, hfits, hstart, hdealt events, hnext,
    turn, offer, hturn, hlimit⟩

end Controlled

end AlgorithmPortfolio
