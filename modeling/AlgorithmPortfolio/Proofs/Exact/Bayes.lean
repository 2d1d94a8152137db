import AlgorithmPortfolio.Proofs.Exact.Shares
import Mathlib.Analysis.SpecialFunctions.Exp

/-!
# Votes by Bayes' rule

Votes are computed from sums of logarithms, relative to the greatest of them. In exact
arithmetic they are what the plain products would give: the prior of a slot times the smoothed
probability of each token of the path, divided by the sum of these products over all slots that
vote.

- `Rebalance.Draws.paths`: the paths that are sampled for a vote. Each adds its posterior
  (`tally_eq_foldl`).
- `getElem?_spread_of_mem`, `getElem?_spread_of_notMem`: where the votes of voters go.
- `joint`, `bayes`: the products, and their parts in the sum.
- `exp_logit`, `posterior_logits`: a logit stands for a product, and a posterior for Bayes'
  rule.
- `PathModel.ScoresByStatistic`: whether a model has no score of its own.
- `vote_eq`: with such models, a voter's vote is its average part over the sampled paths.
- `votes_by_bayes`: all of this for any candidates, and for the votes of all slots.
-/

namespace AlgorithmPortfolio

/-- Whether a model scores paths by their statistics, which it does unless it has a score of its
own. -/
def PathModel.ScoresByStatistic {α : Type} [Arith α] (model : PathModel α) : Prop :=
  ∀ vocabularySize path, model.score vocabularySize path =
    (model.statistic path).score vocabularySize

theorem PathModel.scoresByStatistic_ofStatistic {α : Type} [Arith α] (vocabulary : List String)
    (statistic : List String → PathStatistic) :
    (ofStatistic vocabulary statistic : PathModel α).ScoresByStatistic := fun _ _ => rfl

namespace Rebalance

/-! ## Places of votes -/

section Places

variable {α : Type} {entries : List (Nat × α)} {position : Nat}

/-- A position that is not set keeps its vote. -/
theorem getElem?_foldl_set_of_notMem (h : position ∉ entries.map Prod.fst) (votes : List α) :
    (entries.foldl (fun votes entry => votes.set entry.1 entry.2) votes)[position]? =
      votes[position]? := by
  induction entries generalizing votes with
  | nil => rfl
  | cons entry rest ih =>
    rw [List.map_cons, List.mem_cons, not_or] at h
    rw [List.foldl_cons, ih h.2, List.getElem?_set_ne (Ne.symm h.1)]

/-- A position that is set once has the vote that it is set to. -/
theorem getElem?_foldl_set_of_mem (hnodup : (entries.map Prod.fst).Nodup) {share : α}
    (h : (position, share) ∈ entries) {votes : List α} (hlt : position < votes.length) :
    (entries.foldl (fun votes entry => votes.set entry.1 entry.2) votes)[position]? =
      some share := by
  induction entries generalizing votes with
  | nil => cases h
  | cons entry rest ih =>
    rw [List.map_cons, List.nodup_cons] at hnodup
    rcases List.mem_cons.mp h with rfl | hrest
    · rw [List.foldl_cons, getElem?_foldl_set_of_notMem hnodup.1, List.getElem?_set_self hlt]
    · exact ih hnodup.2 hrest (by simpa using hlt)

end Places

variable {α σ : Type} [Arith α]

theorem getElem?_spread_of_notMem {count position : Nat} {positions : List Nat} (shares : List α)
    (hlt : position < count) (h : position ∉ positions) :
    (spread count positions shares)[position]? = some Arith.zero := by
  have hkeys : position ∉ (positions.zip shares).map Prod.fst := by
    intro hmem
    obtain ⟨⟨other, share⟩, hentry, rfl⟩ := List.mem_map.mp hmem
    exact h (List.of_mem_zip hentry).1
  rw [spread, getElem?_foldl_set_of_notMem hkeys, List.getElem?_replicate_of_lt hlt]

theorem getElem?_spread_of_mem {count position : Nat} {positions : List Nat} {shares : List α}
    {share : α} (hlength : positions.length = shares.length) (hnodup : positions.Nodup)
    (hlt : position < count) (h : (position, share) ∈ positions.zip shares) :
    (spread count positions shares)[position]? = some share := by
  have hkeys : (positions.zip shares).map Prod.fst = positions := List.map_fst_zip hlength.le
  rw [spread, getElem?_foldl_set_of_mem (hkeys.symm ▸ hnodup) h (by simpa using hlt)]

/-! ## Voters and sampled paths -/

/-- Voters have the priors of their positions. -/
theorem priors_of_voters {slots : List (Slot α)} {models : List (Option (PathModel α))}
    {prior : List α} {positions : List Nat} {found : List (Voter α)}
    (h : voters slots models prior positions = .ok found) :
    found.map Voter.prior = positions.map fun position => prior.getD position Arith.zero := by
  induction positions generalizing found with
  | nil =>
    cases h
    rfl
  | cons position rest ih =>
    cases hmodel : models[position]?.join with
    | none =>
      simp only [voters, hmodel] at h
      cases h
    | some model =>
      cases hrest : voters slots models prior rest with
      | error reason =>
        simp only [voters, hmodel, hrest] at h
        cases h
      | ok others =>
        simp only [voters, hmodel, hrest] at h
        cases h
        rw [List.map_cons, List.map_cons, ih hrest]

variable [PathSampler σ]

/-- The paths of a number of draws. -/
def Draws.paths (targets : List Nat) (maxLength : Nat) : Nat → Draws σ → List (List String)
  | 0, _ => []
  | samples + 1, draws =>
    let (path, draws) := draws.path targets maxLength
    path :: Draws.paths targets maxLength samples draws

@[simp] theorem Draws.length_paths (targets : List Nat) (maxLength samples : Nat)
    (draws : Draws σ) : (draws.paths targets maxLength samples).length = samples := by
  induction samples generalizing draws with
  | zero => rfl
  | succ samples ih => exact congrArg (· + 1) (ih _)

/-- Each sampled path adds its posterior to the votes. -/
theorem tally_eq_foldl (voters : List (Voter α)) (vocabulary : Nat) (targets : List Nat)
    (maxLength samples : Nat) (votes : List α) (draws : Draws σ) :
    (tally voters vocabulary targets maxLength samples votes draws).1 =
      (draws.paths targets maxLength samples).foldl (fun votes path =>
        List.zipWith (· + ·) votes
          (LogSpace.posterior (voters.map (Voter.logit vocabulary path)))) votes := by
  induction samples generalizing votes draws with
  | zero => rfl
  | succ samples ih => exact ih _ _

end Rebalance

namespace Exact

open LogSpace Rebalance

/-! ## Bayes' rule -/

/-- The prior of a candidate times the smoothed probability of each token of its statistic. -/
noncomputable def joint (vocabulary : ℕ) (candidate : ℝ × PathStatistic) : ℝ :=
  candidate.1 * (candidate.2.tokenCounts.map fun token =>
    ((token.2 : ℝ) + 1) / max 1 ((candidate.2.seenTokens : ℝ) + vocabulary)).prod

/-- The part of a candidate's product in the sum of those of all candidates. -/
noncomputable def bayes (vocabulary : ℕ) (candidates : List (ℝ × PathStatistic))
    (candidate : ℝ × PathStatistic) : ℝ :=
  joint vocabulary candidate / (candidates.map (joint vocabulary)).sum

theorem smoothed_eq (seenTokens vocabulary count : ℕ) :
    (smoothed seenTokens vocabulary count : ℝ) =
      ((count : ℝ) + 1) / max 1 ((seenTokens : ℝ) + vocabulary) := by
  show (((count + 1 : ℕ) : ℤ) : ℝ) / (((max 1 (seenTokens + vocabulary) : ℕ) : ℤ) : ℝ) = _
  push_cast
  rfl

theorem smoothed_pos (seenTokens vocabulary count : ℕ) :
    0 < (smoothed seenTokens vocabulary count : ℝ) := by
  rw [smoothed_eq]
  positivity

/-- The score of a path stands for the product of the probabilities of its tokens. -/
theorem exp_score (vocabulary : ℕ) (statistic : PathStatistic) :
    Real.exp (statistic.score vocabulary) =
      (statistic.tokenCounts.map fun token =>
        ((token.2 : ℝ) + 1) / max 1 ((statistic.seenTokens : ℝ) + vocabulary)).prod := by
  unfold PathStatistic.score logLikelihood
  rw [sum_eq, Real.exp_list_sum, List.map_map, List.map_map]
  refine congrArg List.prod (List.map_congr_left fun token _ => ?_)
  show Real.exp (Real.log (smoothed statistic.seenTokens vocabulary token.2)) = _
  rw [Real.exp_log (smoothed_pos _ _ _), smoothed_eq]

/-- The logit of a candidate. -/
noncomputable def logit (vocabulary : ℕ) (candidate : ℝ × PathStatistic) : ℝ :=
  Arith.ln candidate.1 + candidate.2.score vocabulary

/-- A logit stands for a product. -/
theorem exp_logit {candidate : ℝ × PathStatistic} (h : 0 < candidate.1) (vocabulary : ℕ) :
    Real.exp (logit vocabulary candidate) = joint vocabulary candidate := by
  rw [logit, Real.exp_add, exp_score, ln_eq, Real.exp_log h, joint]

/-- The posterior of logits is Bayes' rule. -/
theorem posterior_logits (vocabulary : ℕ) {candidates : List (ℝ × PathStatistic)}
    (hne : candidates ≠ []) (hpos : ∀ candidate ∈ candidates, 0 < candidate.1) :
    posterior (candidates.map (logit vocabulary)) =
      candidates.map (bayes vocabulary candidates) := by
  have hexp : (candidates.map (logit vocabulary)).map Real.exp =
      candidates.map (joint vocabulary) := by
    rw [List.map_map]
    exact List.map_congr_left fun candidate h => exp_logit (hpos candidate h) vocabulary
  rw [posterior_eq (by simpa using hne), hexp, List.map_map]
  rfl

/-! ## Votes -/

/-- A voter as a candidate for a path. -/
def candidate (path : List String) (voter : Voter ℝ) : ℝ × PathStatistic :=
  (voter.prior, voter.model.statistic path)

/-- The average part of a voter over paths. -/
noncomputable def averagePart (vocabulary : ℕ) (found : List (Voter ℝ)) (paths : List (List String))
    (voter : Voter ℝ) : ℝ :=
  (paths.map fun path => bayes vocabulary (found.map (candidate path)) (candidate path voter)).sum /
    paths.length

/-- Adding a list of values of voters for each path adds up the values of each voter. -/
theorem foldl_zipWith_map (found : List (Voter ℝ)) (value : List String → Voter ℝ → ℝ)
    (paths : List (List String)) (start : Voter ℝ → ℝ) :
    paths.foldl (fun votes path => List.zipWith (· + ·) votes (found.map (value path)))
        (found.map start) =
      found.map fun voter => start voter + (paths.map fun path => value path voter).sum := by
  induction paths generalizing start with
  | nil => simp
  | cons path rest ih =>
    have hfirst : List.zipWith (· + ·) (found.map start) (found.map (value path)) =
        found.map fun voter => start voter + value path voter := by
      rw [List.zipWith_map, List.zipWith_self]
    rw [List.foldl_cons, hfirst, ih]
    refine List.map_congr_left fun voter _ => ?_
    rw [List.map_cons, List.sum_cons, add_assoc]

variable {σ : Type} [PathSampler σ]

/-- A voter's vote is its average part over the sampled paths. -/
theorem vote_eq (knobs : Knobs) {found : List (Voter ℝ)} (hne : found ≠ [])
    (hpos : ∀ voter ∈ found, 0 < voter.prior)
    (hscore : ∀ voter ∈ found, voter.model.ScoresByStatistic) (targets : List ℕ) (draws : Draws σ) :
    (vote knobs found targets draws).1 =
      found.map (averagePart (vocabularySize (found.map Voter.model)) found
        (draws.paths targets knobs.maxPathLength (max knobs.sampleSize 1))) := by
  generalize hvocabulary : vocabularySize (found.map Voter.model) = vocabulary
  -- the posterior of each path is Bayes' quotient, which the average is of
  have hposterior (path : List String) : posterior (found.map (Voter.logit vocabulary path)) =
      found.map fun voter =>
        bayes vocabulary (found.map (candidate path)) (candidate path voter) := by
    have hcandidates : ∀ c ∈ found.map (candidate path), 0 < c.1 := List.forall_mem_map.mpr hpos
    have hlogits : found.map (Voter.logit vocabulary path) =
        (found.map (candidate path)).map (logit vocabulary) := by
      rw [List.map_map]
      refine List.map_congr_left fun voter hvoter => ?_
      exact congrArg (Arith.ln voter.prior + ·) (hscore voter hvoter vocabulary path)
    rw [hlogits, posterior_logits vocabulary (by simpa using hne) hcandidates, List.map_map]
    rfl
  unfold vote
  dsimp only
  rw [hvocabulary, tally_eq_foldl]
  simp only [hposterior, foldl_zipWith_map, List.map_map]
  -- one voter at a time, over all paths
  refine List.map_congr_left fun voter _ => ?_
  rw [averagePart, Draws.length_paths]
  simp

/-- **Votes follow Bayes' rule.** The posterior of logits of candidates with positive priors is
each candidate's product divided by the sum of all. So the votes of all slots, when those at the
positions of a mask vote with their priors and models, are shares: one for each slot, not
negative, zero outside of the mask and 1 in total. With positive priors in the mask and models
without a score of their own, each of its votes is the average part of its slot in the sampled
paths. -/
theorem votes_by_bayes :
    (∀ (vocabulary : ℕ) (candidates : List (ℝ × PathStatistic)), candidates ≠ [] →
      (∀ candidate ∈ candidates, 0 < candidate.1) →
      posterior (candidates.map fun candidate =>
          Arith.ln candidate.1 + candidate.2.score vocabulary) =
        candidates.map (bayes vocabulary candidates)) ∧
    ∀ (knobs : Knobs) (slots : List (Slot ℝ)) (models : List (Option (PathModel ℝ)))
      (prior : List ℝ) (mask : List ℕ) (found : List (Voter ℝ)) (targets : List ℕ)
      (draws : Draws σ),
      mask ≠ [] → mask.Nodup → (∀ position ∈ mask, position < slots.length) →
      voters slots models prior mask = .ok found →
      let votes := spread slots.length mask (vote knobs found targets draws).1
      votes.length = slots.length ∧ (∀ v ∈ votes, 0 ≤ v) ∧ votes.sum = 1 ∧
        (∀ position < slots.length, position ∉ mask → votes[position]? = some 0) ∧
        ((∀ position ∈ mask, 0 < prior.getD position 0) →
          (∀ voter ∈ found, voter.model.ScoresByStatistic) →
            ∀ position voter, (position, voter) ∈ mask.zip found →
            votes[position]? = some (averagePart (vocabularySize (found.map Voter.model)) found
              (draws.paths targets knobs.maxPathLength (max knobs.sampleSize 1)) voter)) := by
  refine ⟨fun vocabulary candidates hne hpos => posterior_logits vocabulary hne hpos,
    fun knobs slots models prior mask found targets draws hmask hnodup hlt hfound => ?_⟩
  have hpriors := priors_of_voters hfound
  have hlength : mask.length = found.length := by
    simpa using (congrArg List.length hpriors).symm
  -- there is a voter for each position of the mask, so there is one
  have hne : found ≠ [] := by
    rwa [← List.length_pos_iff, ← hlength, List.length_pos_iff]
  obtain ⟨hshares, hcount⟩ := isShares_vote knobs hne targets draws
  have hspread := isShares_spread hshares hnodup hlt (hlength.trans hcount.symm)
  refine ⟨length_spread .., hspread.nonneg, hspread.sum_eq_one, fun position hposition hout => ?_,
    fun hpositive hscore position voter hentry => ?_⟩
  · rw [getElem?_spread_of_notMem _ hposition hout, zero_eq]
  · have hpos : ∀ voter ∈ found, 0 < voter.prior := by
      have hall : ∀ p ∈ mask.map fun position => prior.getD position Arith.zero, 0 < p :=
        List.forall_mem_map.mpr (by simpa using hpositive)
      rw [← hpriors] at hall
      exact List.forall_mem_map.mp hall
    rw [vote_eq knobs hne hpos hscore]
    refine getElem?_spread_of_mem (by simpa using hlength) hnodup
      (hlt position (List.of_mem_zip hentry).1) ?_
    rw [List.zip_map_right]
    exact List.mem_map.mpr ⟨(position, voter), hentry, rfl⟩

/-- Three slots, the first and the last of which vote. The first has twice the prior of the
last, but to it the path is only half as familiar. -/
theorem votes_by_bayes_even :
    let familiar : PathModel ℝ := .ofStatistic ["x"] fun _ => ⟨1, 3, [("x", 1)]⟩
    let fresh : PathModel ℝ := .ofStatistic [] fun _ => ⟨0, 0, [("x", 0)]⟩
    let slots : List (Slot ℝ) := [.ofSpec ⟨"a", none⟩, .ofSpec ⟨"b", none⟩, .ofSpec ⟨"c", none⟩]
    let found : List (Voter ℝ) := [⟨2 / 3, familiar⟩, ⟨1 / 3, fresh⟩]
    let draws : Draws PathFunction := ⟨⟨fun _ _ => ["x"]⟩, Generator.ofSeed 0⟩
    voters slots [some familiar, none, some fresh] [2 / 3, 0, 1 / 3] [0, 2] = .ok found ∧
      posterior (found.map fun voter =>
        Arith.ln voter.prior + (voter.model.statistic ["x"]).score 1) = [1 / 2, 1 / 2] ∧
      spread slots.length [0, 2] (vote ⟨1, 5, none, 1, true⟩ found [7] draws).1 =
        [1 / 2, 0, 1 / 2] := by
  intro familiar fresh slots found draws
  have hfound : voters slots [some familiar, none, some fresh] [2 / 3, 0, 1 / 3] [0, 2] =
      .ok found := rfl
  have hvocabulary : vocabularySize (found.map Voter.model) = 1 := by decide
  obtain ⟨hbayes, hvotes⟩ := @votes_by_bayes PathFunction _
  -- two thirds of a half are as much as one third of the whole
  have heven (voter : Voter ℝ) (h : voter ∈ found) :
      bayes 1 (found.map (candidate ["x"])) (candidate ["x"] voter) = 1 / 2 := by
    simp only [found, List.mem_cons, List.not_mem_nil, or_false] at h
    rcases h with rfl | rfl
    · norm_num [found, bayes, joint, candidate, familiar, fresh]
    · norm_num [found, bayes, joint, candidate, familiar, fresh]
  have hposterior := hbayes 1 (found.map (candidate ["x"])) (by simp [found])
    (by simp [found, candidate])
  obtain ⟨-, -, -, hout, hmask⟩ := hvotes ⟨1, 5, none, 1, true⟩ slots _ _ _ _ [7] draws (by simp)
    (by simp) (by simp [slots]) hfound
  have hscore : ∀ voter ∈ found, voter.model.ScoresByStatistic := by
    intro voter h
    simp only [found, List.mem_cons, List.not_mem_nil, or_false] at h
    rcases h with rfl | rfl
    · exact PathModel.scoresByStatistic_ofStatistic _ _
    · exact PathModel.scoresByStatistic_ofStatistic _ _
  have hpaths : draws.paths [7] 5 (max 1 1) = [["x"]] := rfl
  have haverage (voter : Voter ℝ) (h : voter ∈ found) :
      averagePart (vocabularySize (found.map Voter.model)) found
        (draws.paths [7] 5 (max 1 1)) voter = 1 / 2 := by
    rw [hvocabulary, hpaths, averagePart]
    simp [heven voter h]
  have hin (position : ℕ) (voter : Voter ℝ) (h : (position, voter) ∈ [0, 2].zip found) :=
    (hmask (by simp) hscore position voter h).trans
      (congrArg some (haverage voter (List.of_mem_zip h).2))
  refine ⟨hfound, ?_, ?_⟩
  · rw [List.map_map, List.map_map] at hposterior
    exact hposterior.trans (List.map_congr_left heven)
  · have hfirst := hin 0 ⟨2 / 3, familiar⟩ (by simp [found])
    have hmiddle := hout 1 (by simp [slots]) (by simp)
    have hlast := hin 2 ⟨1 / 3, fresh⟩ (by simp [found])
    refine List.ext_getElem? fun position => ?_
    match position with
    | 0 => exact hfirst
    | 1 => exact hmiddle
    | 2 => exact hlast
    | position + 3 =>
      rw [List.getElem?_eq_none (by simp [slots]), List.getElem?_eq_none (by simp)]

end Exact

end AlgorithmPortfolio
