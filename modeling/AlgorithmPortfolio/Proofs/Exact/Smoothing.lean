import AlgorithmPortfolio.Proofs.Exact.Bayes
import AlgorithmPortfolio.Proofs.Portfolio.Index
import AlgorithmPortfolio.Proofs.TokenModel.Total

/-!
# Smoothed probabilities

Models that vote together share a vocabulary: all tokens that any of them knows. Each model
gives every token of it one sighting more than it has seen, so that no probability is zero.
These are exact rational numbers.

- `sharedVocabulary`: the vocabulary that a vote counts.
- `TokenModel.Learned`: a model that learned from paths and from nothing else.
- `TokenModel.sum_count_of_subset`: its counts add up to its total over every list of different
  tokens that has all of its own.
- `TokenModel.probability`: the smoothed probability of a token. Scores are made of them
  (`score_pathModel`).
- `smoothing_normalises`: probabilities are positive, at most 1, and add up to 1 over the shared
  vocabulary.
-/

namespace AlgorithmPortfolio

open LogSpace

variable {α : Type}

/-! ## The shared vocabulary -/

/-- The tokens that any of several models knows, each of them once. -/
def sharedVocabulary (models : List (PathModel α)) : List String :=
  (models.flatMap PathModel.vocabulary).eraseDups

theorem vocabularySize_eq (models : List (PathModel α)) :
    vocabularySize models = (sharedVocabulary models).length := rfl

theorem mem_sharedVocabulary {models : List (PathModel α)} {token : String} :
    token ∈ sharedVocabulary models ↔ ∃ model ∈ models, token ∈ model.vocabulary := by
  rw [sharedVocabulary, List.mem_eraseDups, List.mem_flatMap]

theorem nodup_sharedVocabulary (models : List (PathModel α)) : (sharedVocabulary models).Nodup :=
  Portfolio.nodup_eraseDups _

namespace TokenModel

/-! ## Counts over a vocabulary -/

/-- A model that was made without counts and learned from paths. -/
def Learned (model : TokenModel) : Prop :=
  ∃ ngramSize setBased paths, model = (fresh ngramSize setBased).learnAll paths

theorem Learned.tallied {model : TokenModel} (h : model.Learned) : model.Tallied := by
  obtain ⟨ngramSize, setBased, paths, rfl⟩ := h
  exact (tallied_fresh ngramSize setBased).learnAll paths

theorem nodup_vocabulary (model : TokenModel) : model.vocabulary.Nodup :=
  model.counts.nodup_keys

theorem count_of_notMem {model : TokenModel} {token : String} (h : token ∉ model.vocabulary) :
    model.count token = 0 := by
  rw [count, Dict.get?_of_notMem_keys h, Option.getD_none]

/-- Tokens that the model does not know add nothing to the sum of its counts. -/
theorem sum_count_of_subset {model : TokenModel} (h : model.Tallied) {tokens : List String}
    (hnodup : tokens.Nodup) (hsub : ∀ token ∈ model.vocabulary, token ∈ tokens) :
    (tokens.map model.count).sum = model.seenTokens := by
  have hown : model.seenTokens = (model.vocabulary.map model.count).sum := by
    rw [sum_count_vocabulary, h]
  rw [hown, ← List.sum_toFinset _ hnodup, ← List.sum_toFinset _ model.nodup_vocabulary]
  symm
  apply Finset.sum_subset
  · intro token htoken
    exact List.mem_toFinset.mpr (hsub token (List.mem_toFinset.mp htoken))
  · intro token _ hunknown
    exact count_of_notMem fun htoken => hunknown (List.mem_toFinset.mpr htoken)

theorem count_le_seenTokens {model : TokenModel} (h : model.Tallied) (token : String) :
    model.count token ≤ model.seenTokens := by
  by_cases hknown : token ∈ model.vocabulary
  · rw [← sum_count_of_subset h model.nodup_vocabulary fun _ => id]
    exact List.le_sum_of_mem (List.mem_map_of_mem hknown)
  · rw [count_of_notMem hknown]
    exact Nat.zero_le _

/-! ## Probabilities -/

/-- The smoothed probability of a token, with so many tokens in the shared vocabulary. -/
def probability (model : TokenModel) (vocabularySize : Nat) (token : String) : ℚ :=
  (model.count token + 1) / smoothingNorm model.seenTokens vocabularySize

theorem smoothingNorm_pos (seenTokens vocabularySize : Nat) :
    0 < smoothingNorm seenTokens vocabularySize :=
  Nat.lt_of_lt_of_le Nat.one_pos (Nat.le_max_left 1 _)

/-- In exact arithmetic, scores use the probabilities. -/
theorem smoothed_eq_probability (model : TokenModel) (vocabularySize : Nat) (token : String) :
    (smoothed model.seenTokens vocabularySize (model.count token) : ℝ) =
      (model.probability vocabularySize token : ℚ) := by
  rw [Exact.smoothed_eq, probability, smoothingNorm]
  push_cast
  rfl

/-- The score of a path is the sum of the logarithms of its tokens' probabilities. -/
theorem score_pathModel (model : TokenModel) (vocabularySize : Nat) (path : List String) :
    (model.pathModel : PathModel ℝ).score vocabularySize path =
      ((model.scoredTokens path).map fun token =>
        Real.log (model.probability vocabularySize token : ℚ)).sum := by
  show (logLikelihood model.seenTokens vocabularySize
    (((model.scoredTokens path).map fun token => (token, model.count token)).map Prod.snd) : ℝ) = _
  rw [logLikelihood, Exact.sum_eq, List.map_map, List.map_map]
  refine congrArg List.sum (List.map_congr_left fun token _ => ?_)
  show Real.log (smoothed model.seenTokens vocabularySize (model.count token)) = _
  rw [smoothed_eq_probability]

theorem probability_pos (model : TokenModel) (vocabularySize : Nat) (token : String) :
    0 < model.probability vocabularySize token := by
  have hnorm : (0 : ℚ) < smoothingNorm model.seenTokens vocabularySize :=
    Nat.cast_pos.mpr (smoothingNorm_pos _ _)
  unfold probability
  positivity

/-- With a token in the vocabulary the denominator is the total of tokens and one for each
token. -/
theorem probability_eq (model : TokenModel) {vocabularySize : Nat} (h : 0 < vocabularySize)
    (token : String) :
    model.probability vocabularySize token =
      (model.count token + 1) / (model.seenTokens + vocabularySize) := by
  have hnorm : smoothingNorm model.seenTokens vocabularySize =
      model.seenTokens + vocabularySize := by
    unfold smoothingNorm
    omega
  rw [probability, hnorm, Nat.cast_add]

theorem probability_le_one {model : TokenModel} (h : model.Tallied) {vocabularySize : Nat}
    (hsize : 0 < vocabularySize) (token : String) : model.probability vocabularySize token ≤ 1 := by
  have hcount := count_le_seenTokens h token
  have hle : model.count token + 1 ≤ model.seenTokens + vocabularySize := by omega
  have hpos : 0 < model.seenTokens + vocabularySize := by omega
  rw [probability_eq model hsize, div_le_one (by exact_mod_cast hpos)]
  exact_mod_cast hle

/-- Over different tokens that have all of a model's, its probabilities add up to 1. -/
theorem sum_probability {model : TokenModel} (h : model.Tallied) {tokens : List String}
    (hne : tokens ≠ []) (hnodup : tokens.Nodup)
    (hsub : ∀ token ∈ model.vocabulary, token ∈ tokens) :
    (tokens.map (model.probability tokens.length)).sum = 1 := by
  have hsize := List.length_pos_iff.mpr hne
  -- each token adds its count and the one sighting more
  have hcounts : (tokens.map fun token => (model.count token : ℚ) + 1).sum =
      model.seenTokens + tokens.length := by
    rw [List.sum_map_add, List.map_const', List.sum_replicate, nsmul_one,
      ← sum_count_of_subset h hnodup hsub, Nat.cast_list_sum, List.map_map]
    rfl
  have hpos : (model.seenTokens + tokens.length : ℚ) ≠ 0 := by
    have : 0 < model.seenTokens + tokens.length := by omega
    exact_mod_cast this.ne'
  have hterms : tokens.map (model.probability tokens.length) =
      tokens.map fun token =>
        (model.count token + 1 : ℚ) * (model.seenTokens + tokens.length : ℚ)⁻¹ := by
    refine List.map_congr_left fun token _ => ?_
    rw [probability_eq model hsize, div_eq_mul_inv]
  rw [hterms, List.sum_map_mul_right, hcounts, mul_inv_cancel₀ hpos]

/-- A model that knows no token gives every token the probability 1 if nobody else knows one. -/
theorem probability_of_empty {model : TokenModel} (h : model.Tallied)
    (hempty : model.vocabulary = []) (token : String) : model.probability 0 token = 1 := by
  have hseen : model.seenTokens = 0 := by
    rw [← sum_count_of_subset h List.nodup_nil (by simp [hempty])]
    rfl
  have hcount : model.count token = 0 := count_of_notMem (by simp [hempty])
  have hnorm : smoothingNorm 0 0 = 1 := rfl
  rw [probability, hseen, hcount, hnorm]
  norm_num

/-- **Smoothed probabilities normalise over the shared vocabulary.** Let models learn from
paths. The vocabulary of a vote has the tokens of all of them, each once, and a path scores the
sum of the logarithms of its tokens' probabilities. If there is a token, every model gives each
token at all a probability above 0 and at most 1, and its probabilities over the vocabulary add
up to exactly 1. If there is none, every token has the probability 1. In no case is a
denominator zero. -/
theorem smoothing_normalises {models : List TokenModel}
    (learned : ∀ model ∈ models, model.Learned) :
    let views : List (PathModel ℝ) := models.map pathModel
    let shared := sharedVocabulary views
    vocabularySize views = shared.length ∧ shared.Nodup ∧
      (∀ token, token ∈ shared ↔ ∃ model ∈ models, token ∈ model.vocabulary) ∧
      ∀ model ∈ models,
        (∀ path, (model.pathModel : PathModel ℝ).score shared.length path =
          ((model.scoredTokens path).map fun token =>
            Real.log (model.probability shared.length token : ℚ)).sum) ∧
        (shared ≠ [] → (∀ token,
            model.probability shared.length token = (model.count token + 1) /
              (model.seenTokens + shared.length) ∧
            0 < model.probability shared.length token ∧ model.probability shared.length token ≤ 1) ∧
          (shared.map (model.probability shared.length)).sum = 1) ∧
        (shared = [] → ∀ token, model.probability shared.length token = 1) ∧
        smoothingNorm model.seenTokens shared.length ≠ 0 := by
  intro views shared
  -- the shared vocabulary is of the tokens that some model knows
  have hmem (token : String) : token ∈ shared ↔ ∃ model ∈ models, token ∈ model.vocabulary := by
    rw [mem_sharedVocabulary]
    constructor
    · rintro ⟨view, hview, htoken⟩
      obtain ⟨model, hmodel, rfl⟩ := List.mem_map.mp hview
      exact ⟨model, hmodel, htoken⟩
    · rintro ⟨model, hmodel, htoken⟩
      exact ⟨model.pathModel, List.mem_map_of_mem hmodel, htoken⟩
  have hnodup : shared.Nodup := nodup_sharedVocabulary _
  refine ⟨vocabularySize_eq _, hnodup, hmem, fun model hmodel => ?_⟩
  have htallied := (learned model hmodel).tallied
  -- so each model sums over all tokens that it knows, and over more
  have hsub : ∀ token ∈ model.vocabulary, token ∈ shared := fun token htoken =>
    (hmem token).mpr ⟨model, hmodel, htoken⟩
  refine ⟨score_pathModel model shared.length, fun hne => ⟨fun token => ?_, ?_⟩,
    fun hempty token => ?_, (smoothingNorm_pos _ _).ne'⟩
  · have hsize := List.length_pos_iff.mpr hne
    exact ⟨probability_eq model hsize token, probability_pos model _ token,
      probability_le_one htallied hsize token⟩
  · exact sum_probability htallied hne hnodup hsub
  · -- nothing is known to any model: the numerator and the denominator are both one
    rw [hempty, List.length_nil]
    refine probability_of_empty htallied
      (List.eq_nil_iff_forall_not_mem.mpr fun known hknown => ?_) token
    rw [hempty] at hsub
    exact List.not_mem_nil (hsub known hknown)

/-- A model of single labels that saw one of them twice, a model of pairs, and one that learned
nothing. They share five tokens, over which the probabilities of the first model add up to 1. -/
theorem smoothing_normalises_three :
    let first := (fresh 1 true).learnAll [["a", "b"], ["b"]]
    let models := [first, (fresh 2 false).learnAll [["c", "d"]], (fresh 1 true).learnAll []]
    let views : List (PathModel ℝ) := models.map pathModel
    let shared := sharedVocabulary views
    (∀ model ∈ models, model.Learned) ∧ shared = ["a", "b", "c", "c_d", "d"] ∧
      first.probability shared.length "b" = 3 / 8 ∧
      (shared.map (first.probability shared.length)).sum = 1 := by
  intro first models views shared
  have hlearned : ∀ model ∈ models, model.Learned := by
    intro model hmodel
    simp only [models, List.mem_cons, List.not_mem_nil, or_false] at hmodel
    rcases hmodel with rfl | rfl | rfl
    · exact ⟨1, true, _, rfl⟩
    · exact ⟨2, false, _, rfl⟩
    · exact ⟨1, true, [], rfl⟩
  have hshared : sharedVocabulary views = ["a", "b", "c", "c_d", "d"] := by
    decide +kernel
  have hcount : first.count "b" = 2 ∧ first.seenTokens = 3 := by decide +kernel
  obtain ⟨-, -, -, hall⟩ := smoothing_normalises hlearned
  obtain ⟨-, hsome, -⟩ := hall first List.mem_cons_self
  obtain ⟨hprobability, hsum⟩ := hsome (by rw [hshared]; exact List.cons_ne_nil _ _)
  refine ⟨hlearned, hshared, ?_, hsum⟩
  rw [(hprobability "b").1, hcount.1, hcount.2, hshared]
  norm_num

end TokenModel

end AlgorithmPortfolio
