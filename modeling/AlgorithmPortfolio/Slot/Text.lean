import AlgorithmPortfolio.Slot.Basic
import AlgorithmPortfolio.Text.Quoted
import AlgorithmPortfolio.Text.Record

/-!
# Descriptions of slots

- `idText`: an identifier.
- `Slot.describe`: the state of a slot on one line.
-/

namespace AlgorithmPortfolio

/-- The description of a slot's identifier. -/
def idText (id : String) : String := "SlotId(" ++ Text.quote id ++ ")"

/-- The state of a slot on one line. -/
def Slot.describe (now : Nat) (slot : Slot Float) : String :=
  Text.record "AlgorithmSlot" [
    ("id", idText slot.id),
    ("reuse_mode", slot.reuse.label),
    ("time_limit", toString slot.limit),
    ("progress", Binary64.compact slot.shownProgress),
    ("total_time_spent", toString (slot.timeSpent now) ++ "ns"),
    ("has_engine", Text.bool slot.engine.isSome)]

end AlgorithmPortfolio
