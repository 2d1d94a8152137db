import AlgorithmPortfolio.Proofs.Dict.Entries
import AlgorithmPortfolio.Proofs.Text.Lines
import AlgorithmPortfolio.TokenModel.File

/-!
# What is read from a model file

- `readLine_eq_ok_iff`: a line is a name without tabs, a tab and a count.
- `addAll`, `addLines_eq_ok_iff`: lines are read if each of them that is not empty is, and the
  model gets their entries one after the other.
- `addAll_known`: once the number of paths is known, every entry is a token.
- `Representable`, `representable_of_ofText`: the names that a file can hold.
-/

namespace AlgorithmPortfolio.TokenModel

/-! ## One line -/

theorem readLine_eq_ok_iff {line : List Char} {entry : String × Nat} :
    readLine line = .ok entry ↔
      ∃ count, line = entry.1.toList ++ '\t' :: count ∧ '\t' ∉ entry.1.toList ∧
        Text.readNumeral countBound count = .ok entry.2 := by
  constructor
  · intro h
    rw [readLine] at h
    split at h
    · exact nomatch h
    · rename_i name count hsplit
      split at h
      · rename_i value hcount
        cases h
        refine ⟨count, ?_, ?_, hcount⟩
        · rw [String.toList_ofList]
          exact Text.splitFirst_eq_some hsplit
        · rw [String.toList_ofList]
          exact Text.not_mem_of_splitFirst hsplit
      · exact nomatch h
  · rintro ⟨count, rfl, htab, hcount⟩
    rw [readLine, Text.splitFirst_append htab]
    simp only [hcount, String.ofList_toList]

/-! ## All lines -/

/-- A model with the entries of more lines; `pathsKnown` tells whether the number of paths was
read. -/
def addAll (model : TokenModel) (pathsKnown : Bool) : List (String × Nat) → TokenModel
  | [] => model
  | entry :: rest =>
    addAll (addLine model pathsKnown entry).1 (addLine model pathsKnown entry).2 rest

/-- Whether these are the entries of the lines that are not empty. -/
def AreRead (lines : List (List Char)) (entries : List (String × Nat)) : Prop :=
  (lines.filter (· ≠ [])).map readLine = entries.map .ok

theorem areRead_nil_cons {rest : List (List Char)} {entries : List (String × Nat)} :
    AreRead ([] :: rest) entries ↔ AreRead rest entries := by
  simp [AreRead]

theorem areRead_cons {line : List Char} {rest : List (List Char)} {entries : List (String × Nat)}
    (hline : line ≠ []) :
    AreRead (line :: rest) entries ↔
      ∃ entry tail, entries = entry :: tail ∧ readLine line = .ok entry ∧ AreRead rest tail := by
  have hfilter : (line :: rest).filter (· ≠ []) = line :: rest.filter (· ≠ []) := by simp [hline]
  rw [AreRead, hfilter, List.map_cons, eq_comm, List.map_eq_cons_iff]
  constructor
  · rintro ⟨entry, tail, hentries, hentry, htail⟩
    exact ⟨entry, tail, hentries, hentry.symm, htail.symm⟩
  · rintro ⟨entry, tail, hentries, hentry, htail⟩
    exact ⟨entry, tail, hentries, hentry.symm, htail.symm⟩

theorem AreRead.exists_line {lines : List (List Char)} {entries : List (String × Nat)}
    (h : AreRead lines entries) {entry : String × Nat} (hentry : entry ∈ entries) :
    ∃ line ∈ lines, readLine line = .ok entry := by
  have hmem : Except.ok entry ∈ (lines.filter (· ≠ [])).map readLine := by
    rw [h]
    exact List.mem_map_of_mem hentry
  obtain ⟨line, hline, hread⟩ := List.mem_map.mp hmem
  exact ⟨line, List.mem_of_mem_filter hline, hread⟩

theorem addLines_cons {model : TokenModel} {pathsKnown : Bool} {number : Nat} {line : List Char}
    {rest : List (List Char)} (hline : line ≠ []) :
    addLines model pathsKnown number (line :: rest) =
      match readLine line with
      | .error fault => .error (number, fault)
      | .ok entry =>
        addLines (addLine model pathsKnown entry).1 (addLine model pathsKnown entry).2 (number + 1)
          rest := by
  cases line with
  | nil => exact absurd rfl hline
  | cons c cs => rfl

theorem addLines_eq_ok_iff {model loaded : TokenModel} {pathsKnown : Bool} {number : Nat}
    {lines : List (List Char)} :
    addLines model pathsKnown number lines = .ok loaded ↔
      ∃ entries, AreRead lines entries ∧ addAll model pathsKnown entries = loaded := by
  induction lines generalizing model pathsKnown number with
  | nil => simp [addLines, AreRead, addAll]
  | cons line rest ih =>
    -- an empty line is numbered, but nothing is read from it
    by_cases hline : line = []
    · subst hline
      simp only [addLines, areRead_nil_cons, ih]
    · rw [addLines_cons hline]
      simp only [areRead_cons hline]
      cases hentry : readLine line with
      | error fault => simp
      | ok entry =>
        constructor
        · intro h
          obtain ⟨tail, htail, hloaded⟩ := ih.mp h
          exact ⟨entry :: tail, ⟨entry, tail, rfl, rfl, htail⟩, hloaded⟩
        · rintro ⟨_, ⟨_, tail, rfl, hread, htail⟩, hloaded⟩
          cases hread
          exact ih.mpr ⟨tail, htail, hloaded⟩

theorem addAll_known (model : TokenModel) (entries : List (String × Nat)) :
    addAll model true entries =
      { model with
        counts := model.counts.insertAll entries
        seenTokens := model.seenTokens + (entries.map Prod.snd).sum } := by
  induction entries generalizing model with
  | nil => rfl
  | cons entry rest ih =>
    rw [addAll, addLine]
    simp only [Bool.not_true, Bool.false_and, Bool.false_eq_true, if_false, ih, Dict.insertAll,
      List.foldl_cons, List.map_cons, List.sum_cons, Nat.add_assoc]

theorem mem_keys_of_addLine {model : TokenModel} {pathsKnown : Bool} {entry : String × Nat}
    {key : String} (h : key ∈ (addLine model pathsKnown entry).1.counts.keys) :
    key = entry.1 ∨ key ∈ model.counts.keys := by
  rw [addLine] at h
  split at h
  · exact .inr h
  · exact Dict.mem_keys_insert.mp h

theorem mem_keys_of_addAll {model : TokenModel} {pathsKnown : Bool} {entries : List (String × Nat)}
    {key : String} (h : key ∈ (addAll model pathsKnown entries).counts.keys) :
    key ∈ entries.map Prod.fst ∨ key ∈ model.counts.keys := by
  induction entries generalizing model pathsKnown with
  | nil => exact .inr h
  | cons entry rest ih =>
    rw [List.map_cons, List.mem_cons]
    obtain hrest | hline := ih h
    · exact .inl (.inr hrest)
    · exact (mem_keys_of_addLine hline).imp_left .inl

/-! ## Names that a file can hold -/

/-- A name that stands in a model file as it is. -/
structure Representable (name : String) : Prop where
  tab_not_mem : '\t' ∉ name.toList
  newline_not_mem : '\n' ∉ name.toList

theorem representable_of_ofText {ngramSize : Nat} {setBased : Bool} {text : String}
    {loaded : TokenModel} (h : ofText ngramSize setBased text = .ok loaded) {key : String}
    (hkey : key ∈ loaded.counts.keys) : Representable key := by
  obtain ⟨entries, hread, rfl⟩ := addLines_eq_ok_iff.mp h
  obtain hentry | hfresh := mem_keys_of_addAll hkey
  · obtain ⟨entry, hmem, rfl⟩ := List.mem_map.mp hentry
    obtain ⟨line, hline, hentryOfLine⟩ := hread.exists_line hmem
    obtain ⟨count, hparts, htab, -⟩ := readLine_eq_ok_iff.mp hentryOfLine
    have hnewline := Text.newline_not_mem_of_mem_lines hline
    rw [hparts, List.mem_append] at hnewline
    exact ⟨htab, fun h => hnewline (.inl h)⟩
  · exact absurd hfresh List.not_mem_nil

end AlgorithmPortfolio.TokenModel
