import AlgorithmPortfolio.Portfolio
import AlgorithmPortfolio.Proofs.Dict.Entries
import Mathlib.Data.List.Induction

/-!
# Making portfolios

- `of_ofSlots`: a portfolio that is made has the given slots, of which there is one, and each of
  their identifiers once, in the order of their first slot.
- `IsLast`: the last position of a word in a list. A dictionary of pairs has the value from the
  last position of a key (`get?_insertAll_of_isLast`).
- `Indexed`: the index leads from each identifier of the slots to its last position, and from
  nothing else. A portfolio is made so (`indexed_ofSlots`) and stays so while no slot changes
  its identifier (`Indexed.modify`), also along any events that keep it so (`Indexed.foldl`).
- `Indexed.find?_eq_none_iff`, `Indexed.of_find?`: what a look-up in such a portfolio says.
-/

namespace AlgorithmPortfolio.Portfolio

variable {α : Type}

/-- Adding a word to the distinct words of a list. -/
theorem eraseDups_concat (words : List String) (word : String) :
    (words ++ [word]).eraseDups =
      if word ∈ words then words.eraseDups else words.eraseDups ++ [word] := by
  rw [List.eraseDups_append]
  by_cases h : word ∈ words
  · simp [List.removeAll, h]
  · simp [List.removeAll, h, List.eraseDups_cons]

theorem nodup_eraseDups (words : List String) : words.eraseDups.Nodup := by
  induction words using List.reverseRecOn with
  | nil => exact .nil
  | append_singleton words word ih =>
    rw [eraseDups_concat]
    by_cases h : word ∈ words
    · rwa [if_pos h]
    · rw [if_neg h, List.nodup_append]
      refine ⟨ih, List.pairwise_singleton _ word, fun other hother _ hword heq => h ?_⟩
      rw [← List.mem_singleton.mp hword, ← heq]
      exact List.mem_eraseDups.mp hother

/-- Indexing more slots goes on with the identifiers of those before. -/
theorem indexFrom_identifiers (slots : List (Slot α)) {position : Nat} {index : Dict Nat}
    {earlier : List String} (h : ∀ id, index.contains id = true ↔ id ∈ earlier) :
    (indexFrom position index earlier.eraseDups slots).2 =
      (earlier ++ slots.map Slot.id).eraseDups := by
  induction slots generalizing position index earlier with
  | nil => simp [indexFrom]
  | cons slot rest ih =>
    -- the index so far has the identifiers of the slots so far
    have hnext : ∀ id, (index.insert slot.id position).contains id = true ↔
        id ∈ earlier ++ [slot.id] := by
      intro id
      rw [Dict.contains, Dict.get?_insert, List.mem_append, List.mem_singleton, ← h id,
        Dict.contains]
      by_cases hid : id = slot.id
      · simp [hid]
      · simp [hid]
    have hidentifiers : (if index.contains slot.id then earlier.eraseDups
        else earlier.eraseDups ++ [slot.id]) = (earlier ++ [slot.id]).eraseDups := by
      rw [eraseDups_concat]
      simp only [h]
    rw [indexFrom, hidentifiers, ih hnext, List.map_cons, List.append_assoc]
    rfl

/-- A portfolio that is made has the given slots and each of their identifiers once. -/
theorem of_ofSlots {slots : List (Slot α)} {portfolio : Portfolio α}
    (h : ofSlots slots = .ok portfolio) :
    slots ≠ [] ∧ portfolio.slots = slots ∧
      portfolio.identifiers = (slots.map Slot.id).eraseDups := by
  unfold ofSlots at h
  cases slots with
  | nil => cases h
  | cons slot rest =>
    cases h
    refine ⟨List.cons_ne_nil slot rest, rfl, ?_⟩
    exact @indexFrom_identifiers _ (slot :: rest) 0 Dict.empty []
      (fun id => by simp [Dict.contains, Dict.get?, Dict.empty])

/-! ## Last positions -/

/-- The last position of a word in a list. -/
structure IsLast (words : List String) (word : String) (position : Nat) : Prop where
  here : words[position]? = some word
  later : ∀ other, position < other → words[other]? ≠ some word

theorem isLast_cons_succ {first : String} {rest : List String} {word : String} {position : Nat} :
    IsLast (first :: rest) word (position + 1) ↔ IsLast rest word position := by
  constructor
  · intro h
    refine ⟨h.here, fun other hother => ?_⟩
    exact h.later (other + 1) (Nat.succ_lt_succ hother)
  · intro h
    refine ⟨h.here, fun other hother => ?_⟩
    obtain ⟨other, rfl⟩ := Nat.exists_eq_succ_of_ne_zero (Nat.ne_zero_of_lt hother)
    exact h.later other (Nat.lt_of_succ_lt_succ hother)

theorem isLast_cons_zero {first : String} {rest : List String} {word : String} :
    IsLast (first :: rest) word 0 ↔ first = word ∧ word ∉ rest := by
  constructor
  · intro h
    refine ⟨Option.some.inj h.here, fun hmem => ?_⟩
    obtain ⟨other, hother⟩ := List.mem_iff_getElem?.mp hmem
    exact h.later (other + 1) (Nat.succ_pos other) hother
  · rintro ⟨rfl, hrest⟩
    refine ⟨rfl, fun other hother => ?_⟩
    obtain ⟨other, rfl⟩ := Nat.exists_eq_succ_of_ne_zero (Nat.ne_zero_of_lt hother)
    exact fun hword => hrest (List.mem_of_getElem? hword)

theorem IsLast.mem {words : List String} {word : String} {position : Nat}
    (h : IsLast words word position) : word ∈ words :=
  List.mem_of_getElem? h.here

theorem IsLast.unique {words : List String} {word : String} {first second : Nat}
    (h : IsLast words word first) (h' : IsLast words word second) : first = second :=
  Nat.le_antisymm (Nat.not_lt.mp fun hlt => h'.later first hlt h.here)
    (Nat.not_lt.mp fun hlt => h.later second hlt h'.here)

theorem exists_isLast {words : List String} {word : String} (h : word ∈ words) :
    ∃ last, IsLast words word last := by
  induction words with
  | nil => exact absurd h List.not_mem_nil
  | cons first rest ih =>
    by_cases hrest : word ∈ rest
    · obtain ⟨last, hlast⟩ := ih hrest
      exact ⟨last + 1, isLast_cons_succ.mpr hlast⟩
    · have hfirst := (List.mem_cons.mp h).resolve_right hrest
      exact ⟨0, isLast_cons_zero.mpr ⟨hfirst.symm, hrest⟩⟩

theorem isLast_of_nodup {words : List String} (h : words.Nodup) {word : String} {position : Nat}
    (here : words[position]? = some word) : IsLast words word position := by
  refine ⟨here, fun other hother hword => ?_⟩
  have hlt := (List.getElem?_eq_some_iff.mp here).1
  exact Nat.ne_of_lt hother ((List.getElem?_inj hlt h).mp (here.trans hword.symm))

/-- Of pairs with the same key the last one stays. -/
theorem get?_insertAll_of_isLast {β : Type} {pairs : List (String × β)} {key : String}
    {position : Nat} (h : IsLast (pairs.map Prod.fst) key position) (d : Dict β) :
    (d.insertAll pairs).get? key = (pairs.map Prod.snd)[position]? := by
  induction pairs generalizing position d with
  | nil => exact absurd h.mem List.not_mem_nil
  | cons pair rest ih =>
    show ((d.insert pair.1 pair.2).insertAll rest).get? key = _
    -- the last pair of the key is this one, or it is among those that are inserted later
    cases position with
    | zero =>
      obtain ⟨rfl, hrest⟩ := isLast_cons_zero.mp h
      rw [Dict.get?_insertAll_of_notMem hrest, Dict.get?_insert, if_pos rfl]
      rfl
    | succ position => exact ih (isLast_cons_succ.mp h) _

/-- Indexing more slots leads to the last of those with an identifier, and else to where it led
before. -/
theorem get?_indexFrom (slots : List (Slot α)) {position : Nat} {index : Dict Nat}
    {identifiers : List String} (id : String) :
    (∃ last, IsLast (slots.map Slot.id) id last ∧
        (indexFrom position index identifiers slots).1.get? id = some (position + last)) ∨
      (id ∉ slots.map Slot.id ∧
        (indexFrom position index identifiers slots).1.get? id = index.get? id) := by
  induction slots generalizing position index identifiers with
  | nil => exact .inr ⟨List.not_mem_nil, rfl⟩
  | cons slot rest ih =>
    rw [indexFrom, List.map_cons]
    -- a later slot of the same identifier has the last word
    rcases ih with ⟨last, hlast, hget⟩ | ⟨hrest, hget⟩
    · refine .inl ⟨last + 1, isLast_cons_succ.mpr hlast, ?_⟩
      rw [hget]
      congr 1
      omega
    · -- no later slot has the identifier, so it is for this one to have it
      rw [Dict.get?_insert] at hget
      by_cases hid : id = slot.id
      · rw [if_pos hid] at hget
        exact .inl ⟨0, isLast_cons_zero.mpr ⟨hid.symm, hrest⟩, hget⟩
      · rw [if_neg hid] at hget
        exact .inr ⟨List.not_mem_cons_of_ne_of_not_mem hid hrest, hget⟩

/-! ## Indexed portfolios -/

/-- A slot that is looked up is the one at its position. -/
theorem get?_of_find? {portfolio : Portfolio α} {id : String} {position : Nat} {slot : Slot α}
    (h : portfolio.find? id = some (position, slot)) :
    portfolio.position id = some position ∧ portfolio.get? position = some slot := by
  obtain ⟨found, hposition, h⟩ := Option.bind_eq_some_iff.mp h
  obtain ⟨_, hslot, h⟩ := Option.bind_eq_some_iff.mp h
  cases h
  exact ⟨hposition, hslot⟩

/-- A portfolio of slots with the given identifiers, whose index leads to the last position of
each. -/
structure Indexed (ids : List String) (portfolio : Portfolio α) : Prop where
  ids_eq : portfolio.slots.map Slot.id = ids
  identifiers_eq : portfolio.identifiers = ids.eraseDups
  position_iff : ∀ id position, portfolio.position id = some position ↔ IsLast ids id position
  position_none_iff : ∀ id, portfolio.position id = none ↔ id ∉ ids

theorem indexed_ofSlots {slots : List (Slot α)} {portfolio : Portfolio α}
    (h : ofSlots slots = .ok portfolio) : portfolio.Indexed (slots.map Slot.id) := by
  obtain ⟨-, hslots, hidentifiers⟩ := of_ofSlots h
  have hposition (id : String) :
      portfolio.position id = (indexFrom 0 Dict.empty [] slots).1.get? id := by
    unfold ofSlots at h
    cases slots with
    | nil => cases h
    | cons slot rest =>
      cases h
      rfl
  refine ⟨by rw [hslots], hidentifiers, fun id position => ?_, fun id => ?_⟩
  · rw [hposition]
    rcases get?_indexFrom slots id with ⟨last, hlast, hget⟩ | ⟨hid, hget⟩
    · rw [hget, Nat.zero_add, Option.some.injEq]
      exact ⟨fun heq => heq ▸ hlast, hlast.unique⟩
    · rw [hget]
      exact ⟨(nomatch ·), fun hlast => absurd hlast.mem hid⟩
  · rw [hposition]
    rcases get?_indexFrom slots id with ⟨last, hlast, hget⟩ | ⟨hid, hget⟩
    · rw [hget]
      exact ⟨(nomatch ·), fun hid => absurd hlast.mem hid⟩
    · rw [hget]
      exact ⟨fun _ => hid, fun _ => rfl⟩

namespace Indexed

variable {ids : List String} {portfolio : Portfolio α}

/-- Other slots with the same identifiers keep the index right. -/
theorem withSlots (h : portfolio.Indexed ids) {slots : List (Slot α)}
    (hids : slots.map Slot.id = ids) : Indexed ids { portfolio with slots } :=
  ⟨hids, h.identifiers_eq, h.position_iff, h.position_none_iff⟩

/-- Changes that keep the identifier of a slot keep the index right. -/
theorem modify (h : portfolio.Indexed ids) {change : Slot α → Slot α}
    (hid : ∀ slot, (change slot).id = slot.id) (position : Nat) :
    (portfolio.modify position change).Indexed ids :=
  h.withSlots ((map_modify_of_frame hid position portfolio).trans h.ids_eq)

/-- An index that every event keeps right stays right along all of them, whatever it is part
of. -/
theorem foldl {ε τ : Type} (portfolio : τ → Portfolio α) {step : τ → ε → τ}
    (kept : ∀ {state}, (portfolio state).Indexed ids →
      ∀ event, (portfolio (step state event)).Indexed ids)
    {state : τ} (h : (portfolio state).Indexed ids) (events : List ε) :
    (portfolio (events.foldl step state)).Indexed ids :=
  List.foldlRecOn (motive := fun reached => (portfolio reached).Indexed ids) events step h
    fun _ hreached event _ => kept hreached event

/-- A look-up finds nothing if no slot has the identifier. -/
theorem find?_eq_none_iff (h : portfolio.Indexed ids) (id : String) :
    portfolio.find? id = none ↔ id ∉ ids := by
  rw [← h.position_none_iff]
  unfold find?
  cases hposition : portfolio.position id with
  | none => exact ⟨fun _ => rfl, fun _ => rfl⟩
  | some position =>
    -- the index leads to a position of the list, so there is a slot
    have hlast := (h.position_iff id position).mp hposition
    have hlt : position < portfolio.slots.length := by
      rw [← List.length_map Slot.id, h.ids_eq]
      exact (List.getElem?_eq_some_iff.mp hlast.here).1
    have hslot : portfolio.get? position = some portfolio.slots[position] :=
      List.getElem?_eq_getElem hlt
    simp [hslot]

/-- A look-up finds the last slot with the identifier. -/
theorem of_find? (h : portfolio.Indexed ids) {id : String} {position : Nat} {slot : Slot α}
    (hfind : portfolio.find? id = some (position, slot)) :
    portfolio.position id = some position ∧ IsLast ids id position ∧
      portfolio.get? position = some slot ∧ slot.id = id := by
  obtain ⟨hposition, hslot⟩ := get?_of_find? hfind
  have hlast := (h.position_iff id position).mp hposition
  refine ⟨hposition, hlast, hslot, ?_⟩
  have hid : (portfolio.slots.map Slot.id)[position]? = some slot.id :=
    List.getElem?_map.trans (congrArg (Option.map Slot.id) hslot)
  rw [h.ids_eq, hlast.here] at hid
  exact (Option.some.inj hid).symm

/-- Among distinct identifiers a look-up finds every slot. -/
theorem find?_of_nodup (h : portfolio.Indexed ids) (distinct : ids.Nodup) {position : Nat}
    {slot : Slot α} (hslot : portfolio.get? position = some slot) :
    portfolio.find? slot.id = some (position, slot) := by
  have hid : (portfolio.slots.map Slot.id)[position]? = some slot.id :=
    List.getElem?_map.trans (congrArg (Option.map Slot.id) hslot)
  rw [h.ids_eq] at hid
  have hposition := (h.position_iff slot.id position).mpr (isLast_of_nodup distinct hid)
  rw [find?, hposition]
  show (portfolio.get? position).bind _ = _
  rw [hslot]
  rfl

end Indexed

end AlgorithmPortfolio.Portfolio
