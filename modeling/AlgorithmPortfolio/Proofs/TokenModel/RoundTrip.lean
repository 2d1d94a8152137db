import AlgorithmPortfolio.Proofs.Storage.Written
import AlgorithmPortfolio.Proofs.Text.Numeral
import AlgorithmPortfolio.Proofs.TokenModel.Learned
import AlgorithmPortfolio.Proofs.TokenModel.Reading

/-!
# Model files that are read back

- `lineChars`, `fileEntries`, `toList_toText`: the lines of a file as it is written.
- `ofText_toText`: a model whose tokens are representable and whose numbers fit is read back.
- `representable_keys_learnAll_iff`: the tokens of learned paths are representable exactly if
  the labels of the paths are.
- `load_of_save_iff`: what was learned from paths is read back exactly if no label of them has a
  tab or a line feed.
-/

namespace AlgorithmPortfolio.TokenModel

/-! ## The lines of a file -/

/-- The line of an entry, without a line feed. -/
def lineChars (entry : String × Nat) : List Char :=
  entry.1.toList ++ '\t' :: (toString entry.2).toList

/-- The entries of the lines of a model's file. -/
def fileEntries (model : TokenModel) : List (String × Nat) :=
  (pathsKey, model.seenPaths) :: model.counts.entries

theorem toList_lineText (entry : String × Nat) :
    (lineText entry.1 entry.2).toList = lineChars entry ++ ['\n'] := by
  simp [lineText, lineChars]

theorem toList_toText (model : TokenModel) :
    model.toText.toList =
      (model.fileEntries.map lineChars).flatMap fun line => line ++ ['\n'] := by
  rw [toText, String.toList_append, String.toList_join, List.flatMap_map, fileEntries,
    List.map_cons, List.flatMap_cons, List.flatMap_map, toList_lineText (pathsKey, model.seenPaths)]
  simp only [toList_lineText]

theorem lineChars_ne_nil (entry : String × Nat) : lineChars entry ≠ [] := by
  simp [lineChars]

theorem isPlainLine_lineChars {entry : String × Nat} (h : Representable entry.1) :
    Text.IsPlainLine (lineChars entry) where
  -- a name that can be saved has no newline, and neither has a number
  newline_not_mem := by
    intro hmem
    obtain hname | hrest := List.mem_append.mp hmem
    · exact h.newline_not_mem hname
    · obtain htab | hcount := List.mem_cons.mp hrest
      · exact absurd htab (by decide)
      · exact Text.not_mem_toString _ (by decide) hcount
  getLast?_ne := by
    -- a line ends with a digit
    intro hlast
    have hdigits : (toString entry.2).toList ≠ [] := (Text.isDigits_toString _).ne_nil
    have hcount : '\r' ∈ (toString entry.2).toList := by
      rw [lineChars, List.append_cons, List.getLast?_append_of_ne_nil _ hdigits] at hlast
      exact List.mem_of_getLast? hlast
    exact Text.not_mem_toString _ (by decide) hcount

theorem readLine_lineChars {entry : String × Nat} (h : Representable entry.1)
    (hcount : entry.2 ≤ countBound) : readLine (lineChars entry) = .ok entry :=
  readLine_eq_ok_iff.mpr ⟨_, rfl, h.tab_not_mem, Text.readNumeral_toString hcount⟩

theorem areRead_map_lineChars {entries : List (String × Nat)}
    (hname : ∀ entry ∈ entries, Representable entry.1)
    (hcount : ∀ entry ∈ entries, entry.2 ≤ countBound) :
    AreRead (entries.map lineChars) entries := by
  have hfilter : (entries.map lineChars).filter (· ≠ []) = entries.map lineChars := by
    rw [List.filter_eq_self]
    intro line hline
    obtain ⟨entry, -, rfl⟩ := List.mem_map.mp hline
    exact decide_eq_true (lineChars_ne_nil entry)
  rw [AreRead, hfilter, List.map_map]
  exact List.map_congr_left fun entry hentry =>
    readLine_lineChars (hname entry hentry) (hcount entry hentry)

/-! ## A text that is read back -/

theorem addAll_fileEntries (model : TokenModel) (ngramSize : Nat) (setBased : Bool) :
    addAll (fresh ngramSize setBased) false model.fileEntries =
      { fresh ngramSize setBased with
        counts := model.counts
        seenPaths := model.seenPaths
        seenTokens := model.counts.total } := by
  have hcounts : Dict.empty.insertAll model.counts.entries = model.counts :=
    Dict.ofList_entries model.counts
  have hline : addLine (fresh ngramSize setBased) false (pathsKey, model.seenPaths) =
      ({ fresh ngramSize setBased with seenPaths := model.seenPaths }, true) := by
    simp [addLine]
  rw [fileEntries, addAll, hline, addAll_known]
  simp only [fresh, hcounts, Nat.zero_add, Dict.total]

theorem representable_pathsKey : Representable pathsKey := ⟨by decide, by decide⟩

/-- A model's file is read back as the model, if the names of its tokens can stand in a file and
its numbers fit. -/
theorem ofText_toText {model : TokenModel} {ngramSize : Nat} {setBased : Bool}
    (hnames : ∀ key ∈ model.counts.keys, Representable key) (htallied : model.Tallied)
    (hpaths : model.seenPaths ≤ countBound) (htokens : model.seenTokens ≤ countBound) :
    ofText ngramSize setBased model.toText =
      .ok { fresh ngramSize setBased with
        counts := model.counts
        seenPaths := model.seenPaths
        seenTokens := model.seenTokens } := by
  have hname : ∀ entry ∈ model.fileEntries, Representable entry.1 := by
    intro entry hentry
    obtain rfl | hentry := List.mem_cons.mp hentry
    · exact representable_pathsKey
    · exact hnames entry.1 (List.mem_map_of_mem hentry)
  -- no count is above the sum of all, which is within the bound
  have hcount : ∀ entry ∈ model.fileEntries, entry.2 ≤ countBound := by
    intro entry hentry
    obtain rfl | hentry := List.mem_cons.mp hentry
    · exact hpaths
    · have hle : entry.2 ≤ model.counts.total := Dict.le_total hentry
      rw [Tallied] at htallied
      omega
  have hlines : Text.lines model.toText.toList = model.fileEntries.map lineChars := by
    rw [toList_toText]
    apply Text.lines_flatMap
    intro line hline
    obtain ⟨entry, hentry, rfl⟩ := List.mem_map.mp hline
    exact isPlainLine_lineChars (hname entry hentry)
  rw [ofText, hlines, addLines_eq_ok_iff]
  refine ⟨model.fileEntries, areRead_map_lineChars hname hcount, ?_⟩
  rw [addAll_fileEntries, htallied]

/-! ## The names of what was learned -/

theorem mem_labelName_iff {label : String} {c : Char} (hc : c ∉ emptyLabel.toList) :
    c ∈ (labelName label).toList ↔ c ∈ label.toList := by
  rw [labelName]
  split
  · subst label
    simp only [hc, String.toList_empty, List.not_mem_nil]
  · rfl

/-- No token of learned paths has a character exactly if no label has it, apart from the
characters that tokens have of themselves. -/
theorem forall_key_learnAll_iff (ngramSize : Nat) (setBased : Bool) (paths : List (List String))
    {c : Char} (hunderscore : c ≠ '_') (hempty : c ∉ emptyLabel.toList) :
    (∀ key ∈ ((fresh ngramSize setBased).learnAll paths).counts.keys, c ∉ key.toList) ↔
      ∀ path ∈ paths, ∀ label ∈ path, c ∉ label.toList := by
  constructor
  · -- each label is a token of its own, so its name is among the keys
    intro h path hpath label hlabel hc
    have hpos : 0 < (fresh ngramSize setBased).ngramSize := Nat.le_max_right ngramSize 1
    have htoken := labelName_mem_ngrams hpos hlabel
    exact h (labelName label) (mem_keys_learnAll.mpr (.inl ⟨path, hpath, htoken⟩))
      ((mem_labelName_iff hempty).mpr hc)
  · intro h key hkey hc
    -- a character of a key is from a label, since the underscore is the only one added
    obtain ⟨path, hpath, htoken⟩ | hfresh := mem_keys_learnAll.mp hkey
    · obtain ⟨label, hlabel, hc⟩ := exists_label_of_mem_ngrams htoken hc hunderscore
      exact h path hpath label hlabel ((mem_labelName_iff hempty).mp hc)
    · exact absurd hfresh List.not_mem_nil

theorem representable_keys_learnAll_iff (ngramSize : Nat) (setBased : Bool)
    (paths : List (List String)) :
    (∀ key ∈ ((fresh ngramSize setBased).learnAll paths).counts.keys, Representable key) ↔
      ∀ path ∈ paths, ∀ label ∈ path, '\t' ∉ label.toList ∧ '\n' ∉ label.toList := by
  have htab := forall_key_learnAll_iff ngramSize setBased paths (c := '\t') (by decide) (by decide)
  have hnewline :=
    forall_key_learnAll_iff ngramSize setBased paths (c := '\n') (by decide) (by decide)
  constructor
  · intro h path hpath label hlabel
    exact ⟨htab.mp (fun key hkey => (h key hkey).tab_not_mem) path hpath label hlabel,
      hnewline.mp (fun key hkey => (h key hkey).newline_not_mem) path hpath label hlabel⟩
  · intro h key hkey
    exact ⟨htab.mpr (fun path hpath label hlabel => (h path hpath label hlabel).1) key hkey,
      hnewline.mpr (fun path hpath label hlabel => (h path hpath label hlabel).2) key hkey⟩

/-! ## Saving and loading -/

theorem read_of_save {model : TokenModel} {path : String} {tree after : Storage.Tree}
    (h : model.save path tree = (.ok (), after)) : after.read path = .ok model.toText := by
  rw [save] at h
  split at h
  · rename_i written hwrite
    cases h
    exact Storage.read_of_writeWithDirectories hwrite
  · exact nomatch h

theorem load_eq_ok_iff {tree : Storage.Tree} {path text : String} {ngramSize : Nat}
    {setBased : Bool} {loaded : TokenModel} (hread : tree.read path = .ok text) :
    load tree path ngramSize setBased = .ok loaded ↔
      ofText ngramSize setBased text = .ok loaded := by
  simp only [load, hread]
  cases ofText ngramSize setBased text with
  | ok model => simp only [Except.ok.injEq]
  | error fault => exact ⟨(nomatch ·), (nomatch ·)⟩

/-- **Model files that are read back.** Where a model that learned from paths, with numbers of
64 bits, was saved, the same counts and totals are loaded exactly if no label of the paths has a
tab or a line feed. -/
theorem load_of_save_iff {ngramSize : Nat} {setBased : Bool} {paths : List (List String)}
    {model : TokenModel} (hmodel : model = (fresh ngramSize setBased).learnAll paths)
    (hpaths : model.seenPaths ≤ countBound) (htokens : model.seenTokens ≤ countBound)
    {path : String} {tree after : Storage.Tree} (hsave : model.save path tree = (.ok (), after)) :
    (∃ loaded, load after path ngramSize setBased = .ok loaded ∧ loaded.counts = model.counts ∧
        loaded.seenPaths = model.seenPaths ∧ loaded.seenTokens = model.seenTokens) ↔
      ∀ labels ∈ paths, ∀ label ∈ labels, '\t' ∉ label.toList ∧ '\n' ∉ label.toList := by
  subst hmodel
  rw [← representable_keys_learnAll_iff ngramSize setBased]
  have hread := read_of_save hsave
  constructor
  · rintro ⟨loaded, hload, hcounts, -, -⟩
    -- whatever was saved, the names that are loaded stood in a line before a tab
    rw [← hcounts]
    intro key hkey
    exact representable_of_ofText ((load_eq_ok_iff hread).mp hload) hkey
  · intro hnames
    have htallied := (tallied_fresh ngramSize setBased).learnAll paths
    exact ⟨_, (load_eq_ok_iff hread).mpr (ofText_toText hnames htallied hpaths htokens), rfl,
      rfl, rfl⟩

/-- Labels that are called like the number of paths, end in a carriage return or are empty are
loaded as they were saved. -/
theorem load_of_save_iff_carriage_return :
    ∃ model loaded, model = (fresh 2 true).learnAll [["numSeenPaths", "a\r", ""], ["a\r", "a_b"]] ∧
      load (model.save "models/a.tsv" Storage.Tree.empty).2 "models/a.tsv" 2 true = .ok loaded ∧
      loaded.counts = model.counts ∧ loaded.seenPaths = 2 ∧ loaded.seenTokens = 8 := by
  have hsave : ((fresh 2 true).learnAll [["numSeenPaths", "a\r", ""], ["a\r", "a_b"]]).save
      "models/a.tsv" Storage.Tree.empty = (.ok (), _) := Prod.ext (by decide +kernel) rfl
  obtain ⟨loaded, hload, hcounts, hpaths, htokens⟩ :=
    (load_of_save_iff rfl (by decide +kernel) (by decide +kernel) hsave).mpr (by decide)
  exact ⟨_, loaded, rfl, hload, hcounts, hpaths.trans (by decide +kernel),
    htokens.trans (by decide +kernel)⟩

end AlgorithmPortfolio.TokenModel
