import AlgorithmPortfolio.Slot.Basic

/-!
# Portfolios

The slots of a schedule in their order, with an index of their identifiers. Slots with the same
identifier all take their turn, and the last of them is the one that the identifier leads to.

- `Portfolio`: slots, index and distinct identifiers.
- `Portfolio.ofSlots`, `Portfolio.ofSpecs`: the portfolio of a list that is not empty.
- `Portfolio.position`, `Portfolio.find?`: the last slot with an identifier.
- `Portfolio.modify`, `Portfolio.mapSlots`: changes of one slot and of all slots.
- `Portfolio.get?_modify`, `Portfolio.get?_mapSlots`: the slot at a position after a change.
- `Portfolio.map_modify`: what a function of slots sees of a change of one slot.
-/

namespace AlgorithmPortfolio

variable {α : Type}

/-- The slots of a schedule, the position of each identifier and the identifiers in the order of
their first slot. -/
structure Portfolio (α : Type) where
  slots : List (Slot α)
  index : Dict Nat
  identifiers : List String

namespace Portfolio

/-- The index and the identifiers with more slots, the first of which has the given position. -/
def indexFrom (position : Nat) (index : Dict Nat) (identifiers : List String) :
    List (Slot α) → Dict Nat × List String
  | [] => (index, identifiers)
  | slot :: rest =>
    indexFrom (position + 1) (index.insert slot.id position)
      (if index.contains slot.id then identifiers else identifiers ++ [slot.id]) rest

/-- The portfolio of slots, of which there has to be one. -/
def ofSlots (slots : List (Slot α)) : Except PortfolioError (Portfolio α) :=
  if slots.isEmpty then .error .emptyPortfolio
  else
    let (index, identifiers) := indexFrom 0 Dict.empty [] slots
    .ok ⟨slots, index, identifiers⟩

/-- The portfolio of slot specifications. -/
def ofSpecs (specs : List SlotSpec) : Except PortfolioError (Portfolio α) :=
  ofSlots (specs.map Slot.ofSpec)

/-- The number of slots. -/
def size (portfolio : Portfolio α) : Nat := portfolio.slots.length

/-- The position of the last slot with an identifier. -/
def position (portfolio : Portfolio α) (id : String) : Option Nat := portfolio.index.get? id

/-- The slot at a position. -/
def get? (portfolio : Portfolio α) (position : Nat) : Option (Slot α) := portfolio.slots[position]?

/-- The last slot with an identifier, and its position. -/
def find? (portfolio : Portfolio α) (id : String) : Option (Nat × Slot α) := do
  let position ← portfolio.position id
  let slot ← portfolio.get? position
  return (position, slot)

/-- The portfolio with a change of the slot at a position. -/
def modify (position : Nat) (change : Slot α → Slot α) (portfolio : Portfolio α) : Portfolio α :=
  { portfolio with slots := portfolio.slots.modify position change }

/-- The portfolio with a change of every slot. -/
def mapSlots (change : Slot α → Slot α) (portfolio : Portfolio α) : Portfolio α :=
  { portfolio with slots := portfolio.slots.map change }

/-- The time limits in the order of the slots. -/
def limits (portfolio : Portfolio α) : List Nat := portfolio.slots.map Slot.limit

/-- The identifiers and time limits in the order of the slots. -/
def limitsById (portfolio : Portfolio α) : List (String × Nat) :=
  portfolio.slots.map fun slot => (slot.id, slot.limit)

@[simp] theorem size_modify (position : Nat) (change : Slot α → Slot α) (portfolio : Portfolio α) :
    (portfolio.modify position change).size = portfolio.size := by
  simp [modify, size]

@[simp] theorem position_modify (changed : Nat) (change : Slot α → Slot α) (portfolio : Portfolio α)
    (id : String) : (portfolio.modify changed change).position id = portfolio.position id :=
  rfl

/-- The slot at a position after a change of one slot. -/
theorem get?_modify (changed : Nat) (change : Slot α → Slot α) (portfolio : Portfolio α)
    (position : Nat) :
    (portfolio.modify changed change).get? position =
      (portfolio.get? position).map fun slot => if changed = position then change slot else slot :=
  List.getElem?_modify change changed portfolio.slots position

/-- The slot at a position after a change of every slot. -/
theorem get?_mapSlots (change : Slot α → Slot α) (portfolio : Portfolio α) (position : Nat) :
    (portfolio.mapSlots change).get? position = (portfolio.get? position).map change :=
  List.getElem?_map

/-- Every portfolio that is made has a slot. -/
theorem size_pos_of_ofSlots {slots : List (Slot α)} {portfolio : Portfolio α}
    (h : ofSlots slots = .ok portfolio) : 0 < portfolio.size := by
  unfold ofSlots at h
  by_cases hempty : slots.isEmpty
  · rw [if_pos hempty] at h
    cases h
  · rw [if_neg hempty] at h
    cases h
    exact List.length_pos_iff.mpr fun hnil => hempty (List.isEmpty_iff.mpr hnil)

/-- A change of one slot, as seen through a function of slots. -/
theorem map_modify {β : Type} {f : Slot α → β} {change : Slot α → Slot α} {seen : β → β}
    (h : ∀ slot, f (change slot) = seen (f slot)) (changed : Nat) (portfolio : Portfolio α) :
    (portfolio.modify changed change).slots.map f =
      (portfolio.slots.map f).modify changed seen := by
  show (portfolio.slots.modify changed change).map f = _
  generalize portfolio.slots = slots
  induction slots generalizing changed with
  | nil => simp
  | cons slot rest ih =>
    cases changed with
    | zero => simp [h]
    | succ changed => simp [ih]

/-- A change that a function of slots does not see. -/
theorem map_modify_of_frame {β : Type} {f : Slot α → β} {change : Slot α → Slot α}
    (h : ∀ slot, f (change slot) = f slot) (changed : Nat) (portfolio : Portfolio α) :
    (portfolio.modify changed change).slots.map f = portfolio.slots.map f :=
  (map_modify h changed portfolio).trans (List.modify_id changed _)

/-- Putting the changed slot in its place is the change of the slot. -/
theorem modify_const {slot : Slot α} {changed : Nat} {portfolio : Portfolio α}
    (h : portfolio.get? changed = some slot) (change : Slot α → Slot α) :
    (portfolio.modify changed fun _ => change slot) = portfolio.modify changed change := by
  have hslots : (portfolio.slots.modify changed fun _ => change slot) =
      portfolio.slots.modify changed change := by
    have hslot : portfolio.slots[changed]? = some slot := h
    refine List.ext_getElem? fun i => ?_
    by_cases hi : changed = i
    · subst hi
      rw [List.getElem?_modify_eq, List.getElem?_modify_eq, hslot]
      rfl
    · rw [List.getElem?_modify_ne _ _ hi, List.getElem?_modify_ne _ _ hi]
  rw [modify, modify, hslots]

@[simp] theorem size_mapSlots (change : Slot α → Slot α) (portfolio : Portfolio α) :
    (portfolio.mapSlots change).size = portfolio.size := by
  simp [mapSlots, size]

end Portfolio

end AlgorithmPortfolio
