import AlgorithmPortfolio.Proofs.Dict.Entries
import AlgorithmPortfolio.TokenModel.Basic

/-!
# What a token model learns

- `mem_ngrams_iff`: the tokens of a path are the joined runs of its labels.
- `mem_keys_learnAll`: a model has counts for the tokens of the paths that it learned, and for
  those that it had counts for before.
- `exists_of_learnAll`: the total of tokens and the sum of the counts grow by the same number.
- `Tallied`, `Tallied.learnAll`: the total of tokens stays the sum of the counts.
-/

namespace AlgorithmPortfolio

/-! ## Runs of neighbours -/

theorem mem_of_mem_windows {β : Type} {size : Nat} {all window : List β} {x : β}
    (hwindow : window ∈ windows size all) (hx : x ∈ window) : x ∈ all := by
  induction all with
  | nil => simp [windows] at hwindow
  | cons y rest ih =>
    rw [windows] at hwindow
    split at hwindow
    · rcases List.mem_cons.mp hwindow with rfl | hwindow
      · exact List.mem_of_mem_take hx
      · exact List.mem_cons_of_mem _ (ih hwindow)
    · exact absurd hwindow List.not_mem_nil

theorem windows_one {β : Type} (all : List β) : windows 1 all = all.map ([·]) := by
  induction all with
  | nil => rfl
  | cons x rest ih => simp [windows, ih]

namespace TokenModel

/-! ## The tokens of a path -/

theorem mem_ngrams_iff {ngramSize : Nat} {path : List String} {token : String} :
    token ∈ ngrams ngramSize path ↔
      ∃ size, 0 < size ∧ size ≤ ngramSize ∧ size ≤ path.length ∧
        ∃ window ∈ windows size (path.map labelName), "_".intercalate window = token := by
  simp only [ngrams, List.mem_flatMap, List.mem_range', List.mem_map, List.length_map]
  constructor
  · rintro ⟨size, ⟨i, hi, rfl⟩, hwindow⟩
    exact ⟨1 + 1 * i, by omega, by omega, by omega, hwindow⟩
  · rintro ⟨size, hpos, hngram, hlength, hwindow⟩
    exact ⟨size, ⟨size - 1, by omega, by omega⟩, hwindow⟩

theorem labelName_mem_ngrams {ngramSize : Nat} (hpos : 0 < ngramSize) {path : List String}
    {label : String} (hlabel : label ∈ path) : labelName label ∈ ngrams ngramSize path := by
  refine mem_ngrams_iff.mpr ⟨1, Nat.one_pos, hpos, List.length_pos_of_mem hlabel,
    [labelName label], ?_, String.intercalate_singleton⟩
  rw [windows_one]
  exact List.mem_map_of_mem (List.mem_map_of_mem hlabel)

/-- A character of joined texts is one of the separator or of a text. -/
theorem mem_toList_intercalate {c : Char} {sep : String} {texts : List String}
    (h : c ∈ (sep.intercalate texts).toList) :
    c ∈ sep.toList ∨ ∃ text ∈ texts, c ∈ text.toList := by
  induction texts with
  | nil => simp at h
  | cons text rest ih =>
    by_cases hrest : rest = []
    · subst hrest
      rw [String.intercalate_singleton] at h
      exact .inr ⟨text, List.mem_singleton_self text, h⟩
    · rw [String.intercalate_cons_of_ne_nil hrest, String.toList_append, String.toList_append,
        List.mem_append, List.mem_append] at h
      obtain (htext | hsep) | hjoined := h
      · exact .inr ⟨text, List.mem_cons_self, htext⟩
      · exact .inl hsep
      · refine (ih hjoined).imp_right ?_
        rintro ⟨other, hother, hc⟩
        exact ⟨other, List.mem_cons_of_mem _ hother, hc⟩

/-- Every character of a token but the underscores between its labels is one of a label. -/
theorem exists_label_of_mem_ngrams {ngramSize : Nat} {path : List String} {token : String}
    {c : Char} (htoken : token ∈ ngrams ngramSize path) (hc : c ∈ token.toList) (hne : c ≠ '_') :
    ∃ label ∈ path, c ∈ (labelName label).toList := by
  obtain ⟨size, -, -, -, window, hwindow, rfl⟩ := mem_ngrams_iff.mp htoken
  obtain hsep | ⟨text, htext, hc⟩ := mem_toList_intercalate hc
  · exact absurd (by simpa using hsep) hne
  · obtain ⟨label, hlabel, rfl⟩ := List.mem_map.mp (mem_of_mem_windows hwindow htext)
    exact ⟨label, hlabel, hc⟩

theorem mem_distinct {tokens : List String} {token : String} :
    token ∈ distinct tokens ↔ token ∈ tokens := by
  simp [distinct, Dict.ofList, Dict.mem_keys_insertAll]

theorem mem_scoredTokens {model : TokenModel} {path : List String} {token : String} :
    token ∈ model.scoredTokens path ↔ token ∈ ngrams model.ngramSize path := by
  rw [scoredTokens]
  split
  · exact mem_distinct
  · rfl

/-! ## Keys -/

theorem mem_keys_learnToken {model : TokenModel} {token key : String} :
    key ∈ (model.learnToken token).counts.keys ↔ key = token ∨ key ∈ model.counts.keys :=
  Dict.mem_keys_insert

theorem mem_keys_foldl_learnToken {model : TokenModel} {tokens : List String} {key : String} :
    key ∈ (tokens.foldl learnToken model).counts.keys ↔ key ∈ tokens ∨ key ∈ model.counts.keys := by
  induction tokens generalizing model with
  | nil => simp
  | cons token rest ih =>
    rw [List.foldl_cons, ih, mem_keys_learnToken, List.mem_cons, or_left_comm, or_assoc]

theorem mem_keys_learn {model : TokenModel} {path : List String} {key : String} :
    key ∈ (model.learn path).counts.keys ↔
      key ∈ ngrams model.ngramSize path ∨ key ∈ model.counts.keys := by
  rw [← mem_scoredTokens]
  exact mem_keys_foldl_learnToken

theorem ngramSize_foldl_learnToken (model : TokenModel) (tokens : List String) :
    (tokens.foldl learnToken model).ngramSize = model.ngramSize := by
  induction tokens generalizing model with
  | nil => rfl
  | cons token rest ih => exact ih (model.learnToken token)

theorem ngramSize_learn (model : TokenModel) (path : List String) :
    (model.learn path).ngramSize = model.ngramSize :=
  ngramSize_foldl_learnToken model (model.scoredTokens path)

theorem mem_keys_learnAll {model : TokenModel} {paths : List (List String)} {key : String} :
    key ∈ (model.learnAll paths).counts.keys ↔
      (∃ path ∈ paths, key ∈ ngrams model.ngramSize path) ∨ key ∈ model.counts.keys := by
  induction paths generalizing model with
  | nil => simp [learnAll]
  | cons path rest ih =>
    rw [learnAll, List.foldl_cons]
    refine ih.trans ?_
    rw [mem_keys_learn, ngramSize_learn, List.exists_mem_cons_iff, or_left_comm, or_assoc]

/-! ## The total of tokens -/

theorem seenTokens_foldl_learnToken (model : TokenModel) (tokens : List String) :
    (tokens.foldl learnToken model).seenTokens = model.seenTokens + tokens.length := by
  induction tokens generalizing model with
  | nil => rfl
  | cons token rest ih =>
    rw [List.foldl_cons, ih, List.length_cons]
    show model.seenTokens + 1 + rest.length = _
    omega

theorem total_learnToken (model : TokenModel) (token : String) :
    (model.learnToken token).counts.total = model.counts.total + 1 := by
  have hinsert := model.counts.total_insert token (model.count token + 1)
  have hcount : (model.counts.get? token).getD 0 = model.count token := rfl
  show (model.counts.insert token (model.count token + 1)).total = _
  omega

theorem total_foldl_learnToken (model : TokenModel) (tokens : List String) :
    (tokens.foldl learnToken model).counts.total = model.counts.total + tokens.length := by
  induction tokens generalizing model with
  | nil => rfl
  | cons token rest ih =>
    rw [List.foldl_cons, ih, total_learnToken, List.length_cons]
    omega

/-- What was learned from paths adds as much to the total of tokens as to the sum of the
counts. -/
theorem exists_of_learnAll (model : TokenModel) (paths : List (List String)) :
    ∃ learned, (model.learnAll paths).seenTokens = model.seenTokens + learned ∧
      (model.learnAll paths).counts.total = model.counts.total + learned := by
  induction paths generalizing model with
  | nil => exact ⟨0, rfl, rfl⟩
  | cons path rest ih =>
    -- each path adds the tokens that it scores, to either sum
    obtain ⟨learned, htokens, htotal⟩ := ih (model.learn path)
    have hpath : (model.learn path).seenTokens =
        model.seenTokens + (model.scoredTokens path).length := seenTokens_foldl_learnToken _ _
    have hcounts : (model.learn path).counts.total =
        model.counts.total + (model.scoredTokens path).length := total_foldl_learnToken _ _
    refine ⟨(model.scoredTokens path).length + learned, ?_, ?_⟩
    · show ((model.learn path).learnAll rest).seenTokens = _
      rw [htokens, hpath, Nat.add_assoc]
    · show ((model.learn path).learnAll rest).counts.total = _
      rw [htotal, hcounts, Nat.add_assoc]

/-- The total of tokens is the sum of the counts. -/
def Tallied (model : TokenModel) : Prop := model.seenTokens = model.counts.total

theorem tallied_fresh (ngramSize : Nat) (setBased : Bool) :
    (fresh ngramSize setBased).Tallied :=
  rfl

theorem Tallied.learnAll {model : TokenModel} (h : model.Tallied) (paths : List (List String)) :
    (model.learnAll paths).Tallied := by
  obtain ⟨learned, htokens, htotal⟩ := exists_of_learnAll model paths
  rw [Tallied, htokens, htotal, h]

end TokenModel

end AlgorithmPortfolio
