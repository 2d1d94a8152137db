import AlgorithmPortfolio.Proofs.Text.Numeral
import AlgorithmPortfolio.Proofs.TokenModel.Total

/-!
# The grammar of model files

A file is accepted line by line: every line that is not empty has to have an entry. The first
line that has none is reported by its number, in which empty lines count.

- `HasEntry`, `Faulty`: what a line may be.
- `forall₂_hasEntry_iff`: what is read are the entries of the lines.
- `addLines_eq_error`: the line that is reported is the first faulty one.
- `load_of_grammar`: the files that are loaded, what is reported of the others, and the counts
  of what is loaded.
-/

namespace AlgorithmPortfolio.TokenModel

/-! ## Lines -/

/-- A line with an entry: its key, which has no tab, then a tab and the digits of its count,
perhaps with a plus sign before them. The count is one of 64 bits. -/
def HasEntry (line : List Char) (entry : String × Nat) : Prop :=
  '\t' ∉ entry.1.toList ∧ entry.2 ≤ countBound ∧
    ∃ digits, Text.IsDigits digits ∧ Nat.ofDigitChars 10 digits 0 = entry.2 ∧
      (line = entry.1.toList ++ '\t' :: digits ∨ line = entry.1.toList ++ '\t' :: '+' :: digits)

/-- A line that is neither empty nor has an entry. -/
def Faulty (line : List Char) : Prop := line ≠ [] ∧ ∀ entry, ¬HasEntry line entry

theorem hasEntry_iff {line : List Char} {entry : String × Nat} :
    HasEntry line entry ↔ readLine line = .ok entry := by
  rw [readLine_eq_ok_iff]
  -- the sign in front of the digits is part of the numeral
  constructor
  · rintro ⟨htab, hbound, digits, hdigits, hvalue, hline | hline⟩
    · exact ⟨digits, hline, htab,
        Text.readNumeral_eq_ok_iff.mpr ⟨digits, .inl rfl, hdigits, hvalue, hbound⟩⟩
    · exact ⟨'+' :: digits, hline, htab,
        Text.readNumeral_eq_ok_iff.mpr ⟨digits, .inr rfl, hdigits, hvalue, hbound⟩⟩
  · rintro ⟨count, rfl, htab, hcount⟩
    obtain ⟨digits, hsign, hdigits, hvalue, hbound⟩ := Text.readNumeral_eq_ok_iff.mp hcount
    refine ⟨htab, hbound, digits, hdigits, hvalue, ?_⟩
    rcases hsign with rfl | rfl
    · exact .inl rfl
    · exact .inr rfl

theorem faulty_iff {line : List Char} :
    Faulty line ↔ line ≠ [] ∧ ∃ fault, readLine line = .error fault := by
  simp only [Faulty, hasEntry_iff]
  cases readLine line with
  | error fault => simp
  | ok entry => simp

theorem not_faulty_iff {line : List Char} :
    ¬Faulty line ↔ (line ≠ [] → ∃ entry, HasEntry line entry) := by
  simp only [Faulty, not_and, not_forall, not_not]

/-- The fault of a line tells whether it has a tab. -/
theorem readLine_eq_noTab_iff {line : List Char} {fault : ModelLineFault}
    (h : readLine line = .error fault) : fault = .noTab ↔ '\t' ∉ line := by
  rw [readLine] at h
  -- the line has a tab, so the fault is in its number
  split at h
  · rename_i hsplit
    cases h
    exact iff_of_true rfl (Text.splitFirst_eq_none_iff.mp hsplit)
  · rename_i name count hsplit
    have htab : '\t' ∈ line := by
      rw [Text.splitFirst_eq_some hsplit]
      exact List.mem_append_right _ List.mem_cons_self
    split at h
    · cases h
    · cases h
      refine iff_of_false ?_ (not_not_intro htab)
      intro hfault
      cases hfault

/-! ## Files -/

/-- The entries that are read are those of the lines that are not empty, in order. -/
theorem forall₂_hasEntry_iff {lines : List (List Char)} {entries : List (String × Nat)} :
    List.Forall₂ HasEntry (lines.filter (· ≠ [])) entries ↔ AreRead lines entries := by
  rw [AreRead]
  generalize lines.filter (· ≠ []) = filled
  induction filled generalizing entries with
  | nil => cases entries <;> simp
  | cons line rest ih =>
    cases entries with
    | nil => simp
    | cons entry tail =>
      rw [List.forall₂_cons, ih, hasEntry_iff, List.map_cons, List.map_cons, List.cons.injEq]

/-- A file is refused for its first faulty line. -/
theorem addLines_eq_error {model : TokenModel} {pathsKnown : Bool} {number found : Nat}
    {lines : List (List Char)} {fault : ModelLineFault}
    (h : addLines model pathsKnown number lines = .error (found, fault)) :
    ∃ before line rest, lines = before ++ line :: rest ∧ (∀ other ∈ before, ¬Faulty other) ∧
      line ≠ [] ∧ readLine line = .error fault ∧ found = number + before.length := by
  induction lines generalizing model pathsKnown number with
  | nil => cases h
  | cons line rest ih =>
    -- a line before the faulty one, empty or not, is one more to number
    have hlater {model : TokenModel} {pathsKnown : Bool} (hline : ¬Faulty line)
        (h : addLines model pathsKnown (number + 1) rest = .error (found, fault)) :
        ∃ before faulty after, line :: rest = before ++ faulty :: after ∧
          (∀ other ∈ before, ¬Faulty other) ∧ faulty ≠ [] ∧ readLine faulty = .error fault ∧
          found = number + before.length := by
      obtain ⟨before, faulty, after, rfl, hbefore, hnonempty, hread, rfl⟩ := ih h
      refine ⟨line :: before, faulty, after, rfl, List.forall_mem_cons.mpr ⟨hline, hbefore⟩,
        hnonempty, hread, ?_⟩
      rw [List.length_cons]
      omega
    by_cases hempty : line = []
    · subst hempty
      exact hlater (fun hline => hline.1 rfl) h
    · rw [addLines_cons hempty] at h
      cases hread : readLine line with
      | error cause =>
        rw [hread] at h
        cases h
        refine ⟨[], line, rest, rfl, ?_, hempty, hread, rfl⟩
        intro other hother
        cases hother
      | ok entry =>
        rw [hread] at h
        exact hlater (fun hline => hline.2 entry (hasEntry_iff.mpr hread)) h

/-- A file is accepted if no line of it is faulty. -/
theorem exists_areRead {lines : List (List Char)} (h : ∀ line ∈ lines, ¬Faulty line) :
    ∃ entries, AreRead lines entries := by
  induction lines with
  | nil => exact ⟨[], rfl⟩
  | cons line rest ih =>
    obtain ⟨hline, hrest⟩ := List.forall_mem_cons.mp h
    obtain ⟨tail, htail⟩ := ih hrest
    by_cases hempty : line = []
    · subst hempty
      exact ⟨tail, areRead_nil_cons.mpr htail⟩
    · obtain ⟨entry, hentry⟩ := not_faulty_iff.mp hline hempty
      exact ⟨entry :: tail,
        (areRead_cons hempty).mpr ⟨entry, tail, rfl, hasEntry_iff.mp hentry, htail⟩⟩

theorem AreRead.not_faulty {lines : List (List Char)} {entries : List (String × Nat)}
    (h : AreRead lines entries) : ∀ line ∈ lines, ¬Faulty line := by
  intro line hline hfaulty
  obtain ⟨hnonempty, fault, hread⟩ := faulty_iff.mp hfaulty
  have hmem : readLine line ∈ entries.map .ok := by
    rw [← h]
    exact List.mem_map_of_mem (List.mem_filter.mpr ⟨hline, decide_eq_true hnonempty⟩)
  obtain ⟨entry, -, hentry⟩ := List.mem_map.mp hmem
  rw [hread] at hentry
  cases hentry

/-- What is loaded of the entries of a file. -/
theorem addAll_fresh (ngramSize : Nat) (setBased : Bool) (entries : List (String × Nat))
    (key : String) :
    (addAll (fresh ngramSize setBased) false entries).count key =
      (((entries.eraseP isPathsEntry).reverse.find? fun entry => entry.1 = key).map
        Prod.snd).getD 0 := by
  rw [addAll_eq, count, Dict.get?_insertAll_eq_find?]
  exact congrArg (Option.getD · 0) Option.or_none

/-- **The files that are loaded.** A text has its lines, each of which ends in a line feed or in
a carriage return and a line feed, but for a last one that does not end. It is loaded if and
only if every line that is not empty has an entry. Otherwise the first line without one is
reported by its number, which counts from 1 and takes in the empty lines. What is loaded has the
count of the first entry for the number of paths as this number, and under each key the count of
the last entry with that key, that first one left out. -/
theorem load_of_grammar {tree : Storage.Tree} {path text : String}
    (hread : tree.read path = .ok text) (ngramSize : Nat) (setBased : Bool) :
    ∃ lines, Text.Splits text.toList lines ∧
      ((∃ loaded, load tree path ngramSize setBased = .ok loaded) ↔
        ∀ line ∈ lines, line ≠ [] → ∃ entry, HasEntry line entry) ∧
      (∀ error, load tree path ngramSize setBased = .error error →
        ∃ before line rest fault, lines = before ++ line :: rest ∧
          (∀ other ∈ before, ¬Faulty other) ∧
          Faulty line ∧ (fault = .noTab ↔ '\t' ∉ line) ∧
          error = .modelLine path (before.length + 1) fault) ∧
      ∀ loaded, load tree path ngramSize setBased = .ok loaded →
        ∃ entries, List.Forall₂ HasEntry (lines.filter (· ≠ [])) entries ∧
          loaded.seenPaths = ((entries.find? isPathsEntry).map Prod.snd).getD 0 ∧
          (∀ key, loaded.count key =
            (((entries.eraseP isPathsEntry).reverse.find? fun entry => entry.1 = key).map
              Prod.snd).getD 0) ∧
          ∀ key, key ∈ loaded.vocabulary ↔ key ∈ (entries.eraseP isPathsEntry).map Prod.fst := by
  -- to load a file is to read its lines and then add up the entries
  have hloaded (loaded : TokenModel) : load tree path ngramSize setBased = .ok loaded ↔
      ∃ entries, AreRead (Text.lines text.toList) entries ∧
        addAll (fresh ngramSize setBased) false entries = loaded :=
    (load_eq_ok_iff hread).trans addLines_eq_ok_iff
  refine ⟨Text.lines text.toList, Text.splits_lines _, ?_, ?_, ?_⟩
  · -- the file loads exactly if no line is faulty
    simp only [← not_faulty_iff]
    constructor
    · rintro ⟨loaded, h⟩
      obtain ⟨entries, hentries, -⟩ := (hloaded loaded).mp h
      exact hentries.not_faulty
    · intro h
      obtain ⟨entries, hentries⟩ := exists_areRead h
      exact ⟨_, (hloaded _).mpr ⟨entries, hentries, rfl⟩⟩
  · intro error h
    rw [load, hread] at h
    cases htext : ofText ngramSize setBased text with
    | ok model =>
      simp only [htext] at h
      cases h
    | error found =>
      simp only [htext] at h
      cases h
      obtain ⟨before, line, rest, hlines, hbefore, hnonempty, hfault, hnumber⟩ :=
        addLines_eq_error htext
      -- lines are numbered from 1
      refine ⟨before, line, rest, found.2, hlines, hbefore, faulty_iff.mpr ⟨hnonempty, _, hfault⟩,
        readLine_eq_noTab_iff hfault, ?_⟩
      rw [hnumber, Nat.add_comm]
  · intro loaded h
    obtain ⟨entries, hentries, rfl⟩ := (hloaded loaded).mp h
    refine ⟨entries, forall₂_hasEntry_iff.mpr hentries, ?_,
      addAll_fresh ngramSize setBased entries, ?_⟩
    · rw [addAll_eq]
      rfl
    · intro key
      rw [addAll_eq]
      exact Dict.mem_keys_insertAll.trans (or_iff_left List.not_mem_nil)

theorem AreRead.unique {lines : List (List Char)} {entries others : List (String × Nat)}
    (h : AreRead lines entries) (h' : AreRead lines others) : entries = others :=
  List.map_injective_iff.mpr (fun _ _ => Except.ok.inj) (h.symm.trans h')

/-- A file with both ways to end a line, an empty line, and lines that a later one replaces. Its
second line for the number of paths is one of a token. -/
theorem load_of_grammar_mixed :
    let text := "a\t1\r\nnumSeenPaths\t+7\n\nnumSeenPaths\t3\na\t02"
    (fileOf text).read "a.tsv" = .ok text ∧
    ∃ loaded, load (fileOf text) "a.tsv" 1 true = .ok loaded ∧
      loaded.seenPaths = 7 ∧ loaded.count "a" = 2 ∧ loaded.count "numSeenPaths" = 3 := by
  intro text
  have hread : (fileOf text).read "a.tsv" = .ok text := by decide +kernel
  obtain ⟨lines, hlines, haccepted, -, hcounts⟩ := load_of_grammar hread 1 true
  have hentries : AreRead lines [("a", 1), ("numSeenPaths", 7), ("numSeenPaths", 3), ("a", 2)] := by
    rw [← Text.splits_iff.mp hlines]
    unfold AreRead
    decide +kernel
  obtain ⟨loaded, hload⟩ := haccepted.mpr fun line hline =>
    not_faulty_iff.mp (hentries.not_faulty line hline)
  obtain ⟨entries, hall, hpaths, hcount, -⟩ := hcounts loaded hload
  obtain rfl := (forall₂_hasEntry_iff.mp hall).unique hentries
  exact ⟨hread, loaded, hload, hpaths, hcount "a", hcount "numSeenPaths"⟩

end AlgorithmPortfolio.TokenModel
