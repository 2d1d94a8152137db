import AlgorithmPortfolio.Document.Value
import AlgorithmPortfolio.Proofs.Dict.Entries

/-!
# Documents laid over each other

A document laid over another one says for some paths what stands there, and says nothing about
others. Of many documents laid over each other, the last one that says something about a path
has its way.

- `Shape`, `Value.shape?`: what stands at a path, which is a table or some other value.
- `Value.verdict`: what a document that is laid over others says about a path. It may also say
  that nothing stands there, where it has some other value in place of a table.
- `Value.Ordered`: documents whose tables are in key order. Normalized ones are
  (`ordered_normalize`), and what is made of such documents is (`Ordered.overlay`).
- `shape?_overlay`, `shape?_foldl_overlay`: the shapes of documents laid over each other.
- `Ordered.ext`: ordered documents with the same shapes are the same.
-/

namespace AlgorithmPortfolio.Document

/-- What stands somewhere in a document: a table or some other value. -/
inductive Shape
  | table
  | leaf (value : Value)

namespace Value

/-! ## Shapes -/

/-- The shape of a value. -/
def shape : Value → Shape
  | .table _ => .table
  | value => .leaf value

/-- The shape of what stands at a path. -/
def shape? : List String → Value → Option Shape
  | [], value => some value.shape
  | key :: rest, .table entries => (lookup key entries).bind (shape? rest)
  | _ :: _, _ => none

/-- What a document that is laid over another one says about a path: nothing, that nothing
stands there, or the shape of what does. -/
def verdict : List String → Value → Option (Option Shape)
  | [], value => some (some value.shape)
  | key :: rest, .table entries => (lookup key entries).bind (verdict rest)
  | _ :: _, _ => some none

/-- Without anything below, the verdict is the document. -/
theorem shape?_eq (path : List String) (value : Value) :
    value.shape? path = (value.verdict path).getD none := by
  induction path generalizing value with
  | nil => rfl
  | cons key rest ih =>
    cases value with
    | table entries =>
      rw [shape?, verdict]
      cases lookup key entries with
      | none => rfl
      | some value => exact ih value
    | _ => rfl

/-- A value that is no table replaces what is below it. -/
theorem overlay_of_shape {top : Value} (h : top.shape = .leaf top) (base : Value) :
    base.overlay top = top := by
  cases top with
  | table entries => cases h
  | _ => rfl

theorem eq_table_of_shape {value : Value} (h : value.shape = .table) :
    ∃ entries, value = .table entries := by
  cases value with
  | table entries => exact ⟨entries, rfl⟩
  | _ => cases h

theorem eq_of_shape {value other : Value} (h : value.shape = .leaf other) : value = other := by
  cases value with
  | table entries => cases h
  | _ => exact Shape.leaf.inj h

theorem shape_of_ne {value : Value} (h : value.shape ≠ .table) : value.shape = .leaf value := by
  cases value with
  | table entries => exact absurd rfl h
  | _ => rfl

/-- A value that is no table is all there is. -/
theorem below_leaf {value : Value} (h : value.shape = .leaf value) (key : String)
    (rest : List String) :
    value.shape? (key :: rest) = none ∧ value.verdict (key :: rest) = some none := by
  cases value with
  | table entries => cases h
  | _ => exact ⟨rfl, rfl⟩

/-! ## Documents in key order -/

/-- A document whose tables are in key order. -/
inductive Ordered : Value → Prop
  | leaf {value : Value} (h : value.shape = .leaf value) : Ordered value
  | table {entries : List (String × Value)} (inOrder : InKeyOrder entries)
      (each : ∀ entry ∈ entries, Ordered entry.2) : Ordered (.table entries)

theorem ordered_nil : Ordered (.table []) := by
  refine .table .nil ?_
  intro entry hentry
  cases hentry

theorem Ordered.insertEntry {entries : List (String × Value)} (h : Ordered (.table entries))
    (key : String) {value : Value} (hvalue : value.Ordered) :
    Ordered (.table (insertEntry key value entries)) := by
  cases h with
  | leaf h => cases h
  | table inOrder each =>
    refine .table (inKeyOrder_insertEntry key value inOrder) ?_
    intro entry hentry
    rcases mem_insertEntry hentry with rfl | hold
    · exact hvalue
    · exact each entry hold

theorem Ordered.of_lookup {entries : List (String × Value)} (h : Ordered (.table entries))
    {key : String} {value : Value} (hvalue : lookup key entries = some value) :
    value.Ordered := by
  cases h with
  | leaf h => cases h
  | table inOrder each => exact each (key, value) (mem_of_lookup hvalue)

theorem Ordered.single (key : String) {value : Value} (h : value.Ordered) :
    (single key value).Ordered := by
  refine .table (List.pairwise_singleton _ _) ?_
  intro entry hentry
  cases List.mem_singleton.mp hentry
  exact h

theorem ordered_inKeyOrder {entries sorted : List (String × Value)} (h : Ordered (.table sorted))
    (each : ∀ entry ∈ entries, Ordered entry.2) :
    Ordered (.table
      (entries.foldl (fun sorted entry => insertEntry entry.1 entry.2 sorted) sorted)) := by
  induction entries generalizing sorted with
  | nil => exact h
  | cons entry rest ih =>
    obtain ⟨hentry, hrest⟩ := List.forall_mem_cons.mp each
    exact ih (h.insertEntry entry.1 hentry) hrest

mutual

/-- A normalized document is in key order. -/
theorem ordered_normalize : ∀ value : Value, (normalize value).Ordered
  | .list _ => .leaf rfl
  | .table entries =>
    ordered_inKeyOrder ordered_nil (ordered_normalizeEntries entries)
  | .null => .leaf rfl
  | .bool _ => .leaf rfl
  | .integer _ => .leaf rfl
  | .float _ => .leaf rfl
  | .text _ => .leaf rfl
  | .character _ => .leaf rfl
  | .moment _ => .leaf rfl

theorem ordered_normalizeEntries :
    ∀ entries : List (String × Value), ∀ entry ∈ normalizeEntries entries, Ordered entry.2
  | [] => by
    intro entry hentry
    cases hentry
  | (_, value) :: rest => by
    intro entry hentry
    rcases List.mem_cons.mp hentry with rfl | hrest
    · exact ordered_normalize value
    · exact ordered_normalizeEntries rest entry hrest

end

/-! ## One document over another -/

/-- What stands under a key of entries after something was laid over it. -/
def laidUnder (key : String) (top : Value) (entries : List (String × Value)) : Value :=
  match lookup key entries with
  | some old => old.overlay top
  | none => top

theorem overlay_single (key : String) (top : Value) (entries : List (String × Value)) :
    (Value.table entries).overlay (.single key top) =
      .table (insertEntry key (laidUnder key top entries) entries) :=
  rfl

/-- A value that is no table stands there as it is. -/
theorem laidUnder_of_shape {top : Value} (h : top.shape = .leaf top) (key : String)
    (entries : List (String × Value)) : laidUnder key top entries = top := by
  rw [laidUnder]
  split
  · exact overlay_of_shape h _
  · rfl

/-- Under a key there is what was there, laid over by what the top has there. -/
theorem lookup_overlayEntries {base top : List (String × Value)} (h : InKeyOrder top)
    (key : String) :
    lookup key (overlayEntries base top) =
      match lookup key top with
      | none => lookup key base
      | some value => some (match lookup key base with
        | some old => old.overlay value
        | none => value) := by
  induction top generalizing base with
  | nil => rfl
  | cons entry rest ih =>
    obtain ⟨name, value⟩ := entry
    obtain ⟨hfirst, hrest⟩ := List.pairwise_cons.mp h
    rw [overlayEntries, ih hrest, lookup]
    by_cases hkey : key = name
    · subst hkey
      -- the names are in order, so no later entry has this one again
      have hnone : lookup key rest = none := by
        apply lookup_eq_none
        intro entry hentry heq
        exact String.lt_irrefl key (by simpa [heq] using hfirst entry hentry)
      rw [hnone, if_pos rfl]
      exact (lookup_insertEntry _ _ _ _).trans (if_pos rfl)
    · rw [if_neg hkey, lookup_insertEntry, if_neg hkey]

/-- What stands at a path is what the top says, and what stood there if it says nothing. -/
theorem shape?_overlay {top : Value} (h : top.Ordered) (base : Value) (path : List String) :
    (base.overlay top).shape? path = (top.verdict path).getD (base.shape? path) := by
  induction path generalizing base top with
  | nil =>
    cases top with
    | table entries =>
      cases base with
      | _ => rfl
    | _ => rfl
  | cons key rest ih =>
    cases h with
    | leaf hleaf =>
      rw [overlay_of_shape hleaf, (below_leaf hleaf key rest).1, (below_leaf hleaf key rest).2]
      rfl
    | @table entries inOrder each =>
      -- a table over a table goes entry by entry, and over a leaf it replaces it
      by_cases hbase : base.shape = .table
      · obtain ⟨old, rfl⟩ := eq_table_of_shape hbase
        rw [overlay, shape?, verdict, shape?, lookup_overlayEntries inOrder]
        cases hkey : lookup key entries with
        | none => rfl
        | some value =>
          have hvalue := each (key, value) (mem_of_lookup hkey)
          cases lookup key old with
          | none => exact shape?_eq rest value
          | some under => exact ih hvalue under
      · -- a table in place of some other value is all there is
        have hleaf := shape_of_ne hbase
        have hreplaced : base.overlay (.table entries) = .table entries := by
          cases base with
          | table old => exact absurd rfl hbase
          | _ => rfl
        rw [hreplaced, shape?_eq, (below_leaf hleaf key rest).1]

theorem Ordered.overlay {base top : Value} (h : base.Ordered) (h' : top.Ordered) :
    (base.overlay top).Ordered := by
  -- the induction is on the top, for whatever it is laid over
  induction h' generalizing base with
  | leaf hleaf =>
    rw [overlay_of_shape hleaf]
    exact .leaf hleaf
  | @table entries inOrder each ih =>
    cases h with
    | leaf hleaf =>
      have hreplaced : base.overlay (.table entries) = .table entries := by
        cases base with
        | table old => cases hleaf
        | _ => rfl
      rw [hreplaced]
      exact .table inOrder each
    | @table old inOrder' each' =>
      have hold : Ordered (.table old) := .table inOrder' each'
      -- the entries are laid one after the other, so the table below changes with each
      rw [Value.overlay]
      clear inOrder inOrder' each'
      induction entries generalizing old with
      | nil => exact hold
      | cons entry rest ihEntries =>
        obtain ⟨name, value⟩ := entry
        obtain ⟨hvalue, hrest⟩ := List.forall_mem_cons.mp each
        rw [overlayEntries]
        refine ihEntries hrest (fun entry hentry => ih entry (List.mem_cons_of_mem _ hentry))
          (hold.insertEntry name ?_)
        cases hname : lookup name old with
        | none => exact hvalue
        | some under => exact ih (name, value) List.mem_cons_self (hold.of_lookup hname)

/-- Ordered documents with the same shapes everywhere are the same. -/
theorem Ordered.ext {value other : Value} (h : value.Ordered) (h' : other.Ordered)
    (same : ∀ path, value.shape? path = other.shape? path) : value = other := by
  induction h generalizing other with
  | leaf hleaf =>
    have hroot := Option.some.inj (same [])
    rw [hleaf] at hroot
    exact (eq_of_shape hroot.symm).symm
  | @table entries inOrder each ih =>
    obtain ⟨entries', rfl⟩ := eq_table_of_shape (Option.some.inj (same [])).symm
    cases h' with
    | leaf hleaf => cases hleaf
    | table inOrder' each' =>
      -- entries with the same name have the same leaves below, so they are the same
      have hlookup : ∀ key, lookup key entries = lookup key entries' := by
        intro key
        have hbelow (path : List String) : (lookup key entries).bind (shape? path) =
            (lookup key entries').bind (shape? path) := same (key :: path)
        cases hentry : lookup key entries with
        | none =>
          rw [hentry] at hbelow
          cases hentry' : lookup key entries' with
          | none => rfl
          | some value' =>
            rw [hentry'] at hbelow
            cases hbelow []
        | some value =>
          rw [hentry] at hbelow
          cases hentry' : lookup key entries' with
          | none =>
            rw [hentry'] at hbelow
            cases hbelow []
          | some value' =>
            rw [hentry'] at hbelow
            have hvalue' := each' (key, value') (mem_of_lookup hentry')
            exact congrArg some (ih (key, value) (mem_of_lookup hentry) hvalue' hbelow)
      have hdict : (⟨entries, inOrder⟩ : Dict Value) = ⟨entries', inOrder'⟩ := Dict.ext_get? hlookup
      exact congrArg (fun dict : Dict Value => Value.table dict.entries) hdict

/-! ## Many documents -/

/-- The last thing that documents say about a path. -/
def decision (path : List String) : List Value → Option (Option Shape)
  | [] => none
  | layer :: rest => (decision path rest).or (layer.verdict path)

theorem decision_append (path : List String) (first second : List Value) :
    decision path (first ++ second) = (decision path second).or (decision path first) := by
  induction first with
  | nil => exact (Option.or_none).symm
  | cons layer rest ih => rw [List.cons_append, decision, ih, decision, Option.or_assoc]

theorem ordered_foldl_overlay {layers : List Value} (h : ∀ layer ∈ layers, layer.Ordered)
    {base : Value} (hbase : base.Ordered) : (layers.foldl overlay base).Ordered := by
  induction layers generalizing base with
  | nil => exact hbase
  | cons layer rest ih =>
    obtain ⟨hlayer, hrest⟩ := List.forall_mem_cons.mp h
    exact ih hrest (hbase.overlay hlayer)

/-- At every path stands what was said last, and what stood there before if nothing was said. -/
theorem shape?_foldl_overlay {layers : List Value} (h : ∀ layer ∈ layers, layer.Ordered)
    (base : Value) (path : List String) :
    (layers.foldl overlay base).shape? path = (decision path layers).getD (base.shape? path) := by
  induction layers generalizing base with
  | nil => rfl
  | cons layer rest ih =>
    obtain ⟨hlayer, hrest⟩ := List.forall_mem_cons.mp h
    rw [List.foldl_cons, ih hrest, shape?_overlay hlayer, decision]
    cases decision path rest with
    | none => rfl
    | some said => rfl

end Value

end AlgorithmPortfolio.Document
