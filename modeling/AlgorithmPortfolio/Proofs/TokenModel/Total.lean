import AlgorithmPortfolio.Proofs.TokenModel.RoundTrip

/-!
# The total of tokens

A model keeps the total of its tokens next to their counts. Learning adds to both alike. A file
of a model may have several lines for one token; of these the last one counts, but the total
takes in all of them.

- `sum_count_vocabulary`: the sum of the counts over the vocabulary.
- `tokenLines`: the lines of a file that count tokens, which is all that is read apart from the
  first line for the number of paths (`addAll_eq`, `exists_of_ofText`).
- `seenTokens_of_learned`: the total is the sum of the counts for every model that only learned.
  For one that was loaded it is that sum and the counts of the lines that a later line replaces.
- `seenTokens_of_replaced_line`: a file of two lines for one token.
-/

namespace AlgorithmPortfolio.TokenModel

theorem sum_count_vocabulary (model : TokenModel) :
    (model.vocabulary.map model.count).sum = model.counts.total :=
  model.counts.sum_keys

/-! ## What is loaded -/

/-- Whether an entry could be that of the number of paths. -/
def isPathsEntry (entry : String × Nat) : Bool := entry.1 == pathsKey

/-- The entries of a file's lines that count tokens: all but the first that has the name of the
number of paths. -/
def tokenLines (text : String) : List (String × Nat) :=
  ((Text.lines text.toList).filterMap fun line => (readLine line).toOption).eraseP isPathsEntry

/-- Entries are counts of tokens, but for the first one that is the number of paths. -/
theorem addAll_eq (model : TokenModel) (entries : List (String × Nat)) :
    addAll model false entries =
      { model with
        counts := model.counts.insertAll (entries.eraseP isPathsEntry)
        seenPaths := ((entries.find? isPathsEntry).map Prod.snd).getD model.seenPaths
        seenTokens := model.seenTokens + ((entries.eraseP isPathsEntry).map Prod.snd).sum } := by
  induction entries generalizing model with
  | nil => rfl
  | cons entry rest ih =>
    -- the first entry for the paths is taken out, and any later one is counted as a token
    cases hentry : isPathsEntry entry with
    | true =>
      have hline : addLine model false entry = ({ model with seenPaths := entry.2 }, true) :=
        if_pos hentry
      rw [addAll, hline, addAll_known, List.eraseP_cons_of_pos hentry,
        List.find?_cons_of_pos hentry]
      rfl
    | false =>
      have hline : addLine model false entry =
          ({ model with
              counts := model.counts.insert entry.1 entry.2
              seenTokens := model.seenTokens + entry.2 }, false) :=
        if_neg (by simpa [isPathsEntry] using hentry)
      rw [addAll, hline, ih, List.eraseP_cons_of_neg (by simp [hentry]),
        List.find?_cons_of_neg (by simp [hentry]), List.map_cons, List.sum_cons, ← Nat.add_assoc]
      rfl

theorem filterMap_readLine {lines : List (List Char)} {entries : List (String × Nat)}
    (h : AreRead lines entries) :
    (lines.filterMap fun line => (readLine line).toOption) = entries := by
  induction lines generalizing entries with
  | nil =>
    rw [AreRead] at h
    exact (List.map_eq_nil_iff.mp h.symm).symm
  | cons line rest ih =>
    by_cases hline : line = []
    · subst hline
      exact ih (areRead_nil_cons.mp h)
    · obtain ⟨entry, tail, rfl, hentry, htail⟩ := (areRead_cons hline).mp h
      rw [List.filterMap_cons, hentry, ih htail]
      rfl

/-- A file that is read gives the counts of its token lines and, for the total, all of them. -/
theorem exists_of_ofText {ngramSize : Nat} {setBased : Bool} {text : String} {loaded : TokenModel}
    (h : ofText ngramSize setBased text = .ok loaded) :
    loaded.counts = Dict.ofList (tokenLines text) ∧
      loaded.seenTokens = ((tokenLines text).map Prod.snd).sum := by
  obtain ⟨entries, hread, rfl⟩ := addLines_eq_ok_iff.mp h
  rw [tokenLines, filterMap_readLine hread, addAll_eq]
  exact ⟨rfl, Nat.zero_add _⟩

/-- What the total of a loaded model has beyond the sum of its counts. -/
theorem seenTokens_of_ofText {ngramSize : Nat} {setBased : Bool} {text : String}
    {loaded : TokenModel} (h : ofText ngramSize setBased text = .ok loaded) :
    loaded.seenTokens = loaded.counts.total + ((replaced (tokenLines text)).map Prod.snd).sum := by
  obtain ⟨hcounts, htokens⟩ := exists_of_ofText h
  have hnone : ∀ line ∈ tokenLines text, (Dict.empty : Dict Nat).get? line.1 = none :=
    fun _ _ => rfl
  have htotal := Dict.total_insertAll hnone
  have hempty : (Dict.empty : Dict Nat).total = 0 := rfl
  rw [hcounts, htokens, Dict.ofList, htotal, hempty, Nat.zero_add]

/-! ## What is learned -/

/-- **The total of tokens.** A model that only learned from paths has the sum of its counts as
the total of its tokens. The total of one that learned after it was loaded exceeds that sum by
the counts of all lines that a later line with the same token replaces, so it is the sum exactly
if all of these are zero. -/
theorem seenTokens_of_learned (ngramSize : Nat) (setBased : Bool) (paths : List (List String)) :
    (∀ model, model = (fresh ngramSize setBased).learnAll paths →
      model.seenTokens = (model.vocabulary.map model.count).sum) ∧
    ∀ {tree : Storage.Tree} {path text : String} {loaded model : TokenModel},
      tree.read path = .ok text → load tree path ngramSize setBased = .ok loaded →
      model = loaded.learnAll paths →
        model.seenTokens = (model.vocabulary.map model.count).sum +
          ((replaced (tokenLines text)).map Prod.snd).sum ∧
        (model.seenTokens = (model.vocabulary.map model.count).sum ↔
          ∀ line ∈ replaced (tokenLines text), line.2 = 0) := by
  constructor
  · rintro model rfl
    rw [sum_count_vocabulary]
    exact (tallied_fresh ngramSize setBased).learnAll paths
  · rintro tree path text loaded model hread hload rfl
    -- only what the file says twice is counted twice, and what is learned after it is not
    have hloaded := seenTokens_of_ofText ((load_eq_ok_iff hread).mp hload)
    obtain ⟨learned, htokens, htotal⟩ := exists_of_learnAll loaded paths
    have hsum : (loaded.learnAll paths).seenTokens =
        ((loaded.learnAll paths).vocabulary.map (loaded.learnAll paths).count).sum +
          ((replaced (tokenLines text)).map Prod.snd).sum := by
      rw [sum_count_vocabulary, htokens, htotal, hloaded]
      omega
    refine ⟨hsum, ?_⟩
    rw [hsum, Nat.add_eq_left, List.sum_eq_zero_iff, List.forall_mem_map]

/-! ### Two lines for one token -/

/-- A tree with one model file. -/
def fileOf (text : String) : Storage.Tree := Storage.Tree.empty.put ["a.tsv"] (.file (some text))

theorem load_of_areRead {tree : Storage.Tree} {path text : String} {entries : List (String × Nat)}
    (hread : tree.read path = .ok text) (hentries : AreRead (Text.lines text.toList) entries)
    (ngramSize : Nat) (setBased : Bool) :
    load tree path ngramSize setBased = .ok (addAll (fresh ngramSize setBased) false entries) :=
  (load_eq_ok_iff hread).mpr (addLines_eq_ok_iff.mpr ⟨entries, hentries, rfl⟩)

/-- Of two lines for one token the second counts, also with the number of paths between them.
What is learned later leaves the total of tokens one above the sum of the counts. -/
theorem seenTokens_of_learned_between :
    let tree := fileOf "b\t1\nnumSeenPaths\t4\nb\t2\n"
    ∃ loaded, tree.read "a.tsv" = .ok "b\t1\nnumSeenPaths\t4\nb\t2\n" ∧
      load tree "a.tsv" 1 true = .ok loaded ∧ (loaded.learnAll [["b", "c"]]).seenTokens = 5 ∧
      ((loaded.learnAll [["b", "c"]]).vocabulary.map (loaded.learnAll [["b", "c"]]).count).sum =
        4 := by
  intro tree
  have hread : tree.read "a.tsv" = .ok "b\t1\nnumSeenPaths\t4\nb\t2\n" := by decide +kernel
  have hentries : AreRead (Text.lines "b\t1\nnumSeenPaths\t4\nb\t2\n".toList)
      [("b", 1), ("numSeenPaths", 4), ("b", 2)] := by
    unfold AreRead
    decide +kernel
  have hload := load_of_areRead hread hentries 1 true
  have htokens : ((addAll (fresh 1 true) false
      [("b", 1), ("numSeenPaths", 4), ("b", 2)]).learnAll [["b", "c"]]).seenTokens = 5 := by
    decide +kernel
  have hreplaced : replaced (tokenLines "b\t1\nnumSeenPaths\t4\nb\t2\n") = [("b", 1)] := by
    decide +kernel
  obtain ⟨hsum, -⟩ := (seenTokens_of_learned 1 true [["b", "c"]]).2 hread hload rfl
  rw [hreplaced, htokens] at hsum
  exact ⟨_, hread, hload, htokens, (Nat.succ_injective hsum).symm⟩

/-- A file with a count of 1 and then of 2 for the same token: the token counts 2, the total is
3. -/
theorem seenTokens_of_replaced_line :
    ∃ loaded, load (fileOf "b\t1\nb\t2\n") "a.tsv" 1 true = .ok loaded ∧
      loaded.vocabulary = ["b"] ∧ loaded.count "b" = 2 ∧ loaded.seenTokens = 3 ∧
      loaded.seenTokens ≠ (loaded.vocabulary.map loaded.count).sum := by
  have hread : (fileOf "b\t1\nb\t2\n").read "a.tsv" = .ok "b\t1\nb\t2\n" := by decide +kernel
  have hentries : AreRead (Text.lines "b\t1\nb\t2\n".toList) [("b", 1), ("b", 2)] := by
    unfold AreRead
    decide +kernel
  exact ⟨_, load_of_areRead hread hentries 1 true, by decide +kernel, by decide +kernel,
    by decide +kernel, by decide +kernel⟩

end AlgorithmPortfolio.TokenModel
