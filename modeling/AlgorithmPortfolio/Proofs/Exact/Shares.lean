import AlgorithmPortfolio.Proofs.Exact.Reals
import AlgorithmPortfolio.Rebalance.Pass
import Mathlib.Algebra.BigOperators.Ring.List
import Mathlib.Algebra.Order.BigOperators.Group.List

/-!
# Shares of one

In exact arithmetic everything that a reallocation pass divides by is a total that is not zero,
so the prior, the posteriors and the votes are each made of parts of one.

- `IsShares`: numbers that are not negative and add up to 1.
- `isShares_progressPrior`, `isShares_posterior`: priors and posteriors are shares.
- `posterior_eq`: a posterior is each exponential divided by the sum of all.
- `sum_map_spread`: what is zero at zero adds up to the same over shares and over their spread.
- `isShares_vote`: average votes are shares. Voters that agree have equal ones
  (`vote_replicate`).
-/

namespace AlgorithmPortfolio.Exact

open LogSpace Rebalance

/-- Numbers that are not negative and add up to 1. -/
structure IsShares (xs : List ℝ) : Prop where
  nonneg : ∀ x ∈ xs, 0 ≤ x
  sum_eq_one : xs.sum = 1

/-- A share is at most 1. -/
theorem IsShares.le_one {xs : List ℝ} (h : IsShares xs) {x : ℝ} (hx : x ∈ xs) : x ≤ 1 :=
  h.sum_eq_one ▸ List.single_le_sum h.nonneg x hx

theorem IsShares.ne_nil {xs : List ℝ} (h : IsShares xs) : xs ≠ [] := by
  rintro rfl
  have := h.sum_eq_one
  simp at this

theorem isShares_singleton : IsShares [1] :=
  ⟨by simp, by simp⟩

/-- The quotients by a positive sum. -/
theorem isShares_div {xs : List ℝ} (hxs : ∀ x ∈ xs, 0 ≤ x) (hsum : 0 < xs.sum) :
    IsShares (xs.map (· / xs.sum)) := by
  constructor
  · intro y hy
    obtain ⟨x, hx, rfl⟩ := List.mem_map.mp hy
    exact div_nonneg (hxs x hx) hsum.le
  · simp only [div_eq_mul_inv]
    rw [List.sum_map_mul_right, List.map_id', mul_inv_cancel₀ hsum.ne']

/-- Equal shares. -/
theorem isShares_uniform {count : ℕ} (h : 0 < count) :
    IsShares (Arith.uniform count : List ℝ) := by
  have hcount : (0 : ℝ) < count := Nat.cast_pos.mpr h
  have hmax : max (count : ℤ) 1 = count := by omega
  constructor
  · intro x hx
    obtain ⟨-, rfl⟩ := List.mem_replicate.mp hx
    rw [hmax, one_eq, ofInt_eq, Int.cast_natCast]
    positivity
  · rw [Arith.uniform, List.sum_replicate, hmax, one_eq, ofInt_eq, nsmul_eq_mul, Int.cast_natCast]
    exact mul_one_div_cancel hcount.ne'

/-! ## Priors -/

theorem progressRate_nonneg (progress : ℝ) (limit : ℕ) : 0 ≤ progressRate progress limit := by
  unfold progressRate
  split
  · rw [zero_eq]
  · rw [zero_eq, ofInt_eq]
    split
    · rename_i hpos
      have : (0 : ℝ) < progress := hpos
      positivity
    · simp

/-- The prior of at least one slot is made of shares. -/
theorem isShares_progressPrior {observations : List (ℝ × ℕ)} (h : observations ≠ []) :
    IsShares (progressPrior observations) := by
  unfold progressPrior
  simp only [sum_eq, zero_eq]
  split
  · exact isShares_uniform (List.length_pos_iff.mpr h)
  · rename_i hsum
    refine isShares_div (fun rate hrate => ?_) (not_le.mp hsum)
    obtain ⟨seen, -, rfl⟩ := List.mem_map.mp hrate
    exact progressRate_nonneg seen.1 seen.2

/-- Slots without progress have equal priors. -/
theorem progressPrior_of_still {observations : List (ℝ × ℕ)}
    (h : ∀ seen ∈ observations, seen.1 ≤ 0) :
    progressPrior observations = Arith.uniform observations.length := by
  have hrates : observations.map (fun seen => progressRate seen.1 seen.2) =
      List.replicate observations.length 0 := by
    refine List.eq_replicate_iff.mpr ⟨List.length_map _, fun rate hrate => ?_⟩
    obtain ⟨seen, hseen, rfl⟩ := List.mem_map.mp hrate
    unfold progressRate
    rw [zero_eq, if_neg (not_lt.mpr (h seen hseen)), zero_div, ite_self]
  unfold progressPrior
  simp only [hrates, sum_eq, zero_eq]
  exact if_pos (by simp)

/-- A prior has a positive share. -/
theorem eligible_ne_nil {prior : List ℝ} (h : IsShares prior) : eligible prior ≠ [] := by
  intro hnil
  -- otherwise no part is positive, and the sum is at most zero
  have hle : ∀ p ∈ prior, p ≤ 0 := by
    intro p hp
    obtain ⟨position, hposition⟩ := List.getElem?_of_mem hp
    by_contra hpos
    have : position ∈ eligible prior :=
      mem_eligible.mpr ⟨p, hposition, by rw [zero_eq]; exact not_le.mp hpos⟩
    rw [hnil] at this
    exact List.not_mem_nil this
  have := List.sum_le_card_nsmul prior 0 hle
  rw [h.sum_eq_one, nsmul_zero] at this
  linarith

/-! ## Posteriors -/

/-- A fold that keeps having a result has one in the end. -/
theorem exists_foldl_some {β γ : Type} {f : Option β → γ → Option β}
    (hf : ∀ b x, ∃ c, f (some b) x = some c) (xs : List γ) (b : β) :
    ∃ c, xs.foldl f (some b) = some c := by
  induction xs generalizing b with
  | nil => exact ⟨b, rfl⟩
  | cons x rest ih =>
    obtain ⟨c, hc⟩ := hf b x
    rw [List.foldl_cons, hc]
    exact ih c

/-- A list that is not empty has a greatest number. -/
theorem exists_peak {logits : List ℝ} (h : logits ≠ []) : ∃ m, peak logits = some m := by
  obtain ⟨x, rest, rfl⟩ := List.exists_cons_of_ne_nil h
  unfold peak
  rw [List.foldl_cons, if_pos le_rfl]
  refine exists_foldl_some (fun b y => ?_) rest x
  by_cases hy : b < y
  · exact ⟨y, by simp [hy]⟩
  · exact ⟨b, by simp [hy]⟩

theorem sum_map_exp_pos {logits : List ℝ} (h : logits ≠ []) : 0 < (logits.map Real.exp).sum := by
  refine List.sum_pos _ (fun y hy => ?_) (by simpa using h)
  obtain ⟨x, -, rfl⟩ := List.mem_map.mp hy
  exact Real.exp_pos x

/-- The logarithm of the sum of the exponentials, whichever term it is taken relative to. -/
theorem logSumExp_eq {logits : List ℝ} (h : logits ≠ []) :
    logSumExp logits = Real.log (logits.map Real.exp).sum := by
  obtain ⟨m, hm⟩ := exists_peak h
  unfold logSumExp
  rw [hm]
  -- the greatest logit is taken out of the sum and put back in
  have hscaled : (logits.map fun x => Real.exp (x - m)).sum =
      (logits.map Real.exp).sum * Real.exp (-m) := by
    rw [← List.sum_map_mul_right]
    exact congrArg List.sum (List.map_congr_left fun x _ => by rw [sub_eq_add_neg, Real.exp_add])
  show Real.log (Arith.sum (logits.map fun x => Real.exp (x - m))) + m = _
  rw [sum_eq, hscaled, Real.log_mul (sum_map_exp_pos h).ne' (Real.exp_pos _).ne', Real.log_exp]
  ring

/-- A posterior is each exponential divided by the sum of all. -/
theorem posterior_eq {logits : List ℝ} (h : logits ≠ []) :
    posterior logits = (logits.map Real.exp).map (· / (logits.map Real.exp).sum) := by
  unfold posterior
  simp only [isFinite_eq, if_true, logSumExp_eq h, exp_eq, List.map_map]
  refine List.map_congr_left fun x _ => ?_
  show Real.exp (x - Real.log (logits.map Real.exp).sum) = _
  rw [Real.exp_sub, Real.exp_log (sum_map_exp_pos h)]
  rfl

/-- The posterior of at least one logit is made of shares. -/
theorem isShares_posterior {logits : List ℝ} (h : logits ≠ []) : IsShares (posterior logits) := by
  rw [posterior_eq h]
  refine isShares_div (fun y hy => ?_) (sum_map_exp_pos h)
  obtain ⟨x, -, rfl⟩ := List.mem_map.mp hy
  exact (Real.exp_pos x).le

/-! ## Votes -/

/-- Adding shares adds 1 to a sum. -/
theorem sum_zipWith_shares {votes shares : List ℝ} (h : IsShares shares)
    (hlength : votes.length = shares.length) :
    (List.zipWith (· + ·) votes shares).sum = votes.sum + 1 := by
  rw [← List.sum_add_sum_eq_sum_zipWith_of_length_eq votes shares hlength, h.sum_eq_one]

theorem zipWith_add_nonneg {xs ys : List ℝ} (hxs : ∀ x ∈ xs, 0 ≤ x) (hys : ∀ y ∈ ys, 0 ≤ y) :
    ∀ z ∈ List.zipWith (· + ·) xs ys, 0 ≤ z := by
  intro z hz
  rw [← List.map_uncurry_zip_eq_zipWith] at hz
  obtain ⟨⟨x, y⟩, hxy, rfl⟩ := List.mem_map.mp hz
  exact add_nonneg (hxs x (List.of_mem_zip hxy).1) (hys y (List.of_mem_zip hxy).2)

variable {σ : Type} [PathSampler σ]

/-- Every sampled path adds shares to the votes. -/
theorem tally_spec {voters : List (Voter ℝ)} (hvoters : voters ≠ []) (vocabulary : ℕ)
    (targets : List ℕ) (maxLength samples : ℕ) {votes : List ℝ} (draws : Draws σ)
    (hlength : votes.length = voters.length) (hvotes : ∀ v ∈ votes, 0 ≤ v) :
    (tally voters vocabulary targets maxLength samples votes draws).1.length = voters.length ∧
      (∀ v ∈ (tally voters vocabulary targets maxLength samples votes draws).1, 0 ≤ v) ∧
      (tally voters vocabulary targets maxLength samples votes draws).1.sum =
        votes.sum + samples := by
  induction samples generalizing votes draws with
  | zero => exact ⟨hlength, hvotes, by simp [tally]⟩
  | succ samples ih =>
    rw [tally]
    generalize draws.path targets maxLength = drawn
    obtain ⟨path, rest⟩ := drawn
    -- each path shares one vote out, so the sum goes up by one
    have hshares : IsShares (posterior (voters.map (Voter.logit vocabulary path))) :=
      isShares_posterior (by simpa using hvoters)
    have hlengths :
        votes.length = (posterior (voters.map (Voter.logit vocabulary path))).length := by
      simpa using hlength
    obtain ⟨h1, h2, h3⟩ := ih rest (by simp [hlength]) (zipWith_add_nonneg hvotes hshares.nonneg)
    refine ⟨h1, h2, h3.trans ?_⟩
    rw [sum_zipWith_shares hshares hlengths]
    push_cast
    ring

/-- The average votes of at least one voter are shares, one for each voter. -/
theorem isShares_vote (knobs : Knobs) {voters : List (Voter ℝ)} (hvoters : voters ≠ [])
    (targets : List ℕ) (draws : Draws σ) :
    IsShares (vote knobs voters targets draws).1 ∧
      (vote knobs voters targets draws).1.length = voters.length := by
  have hstart : ∀ v ∈ voters.map (fun _ => (Arith.zero : ℝ)), 0 ≤ v := by
    intro v hv
    obtain ⟨-, -, rfl⟩ := List.mem_map.mp hv
    rw [zero_eq]
  obtain ⟨hlength, hnonneg, hsum⟩ := tally_spec hvoters (vocabularySize (voters.map Voter.model))
    targets knobs.maxPathLength (max knobs.sampleSize 1) draws (by simp) hstart
  have hzero : (voters.map fun _ => (Arith.zero : ℝ)).sum = 0 := by simp
  rw [hzero, zero_add] at hsum
  unfold vote
  refine ⟨?_, by simpa using hlength⟩
  -- what is divided by is the sum of the votes
  have hsamples : (Arith.ofInt ((max knobs.sampleSize 1 : ℕ) : ℤ) : ℝ) =
      (max knobs.sampleSize 1 : ℕ) := by
    rw [ofInt_eq, Int.cast_natCast]
  dsimp only
  rw [hsamples, ← hsum]
  refine isShares_div hnonneg ?_
  rw [hsum]
  exact Nat.cast_pos.mpr (by omega)

/-- Equal logits have equal posteriors. -/
theorem posterior_replicate {count : ℕ} (h : 0 < count) (logit : ℝ) :
    posterior (List.replicate count logit) = List.replicate count (1 / (count : ℝ)) := by
  have hcount : (count : ℝ) ≠ 0 := Nat.cast_ne_zero.mpr h.ne'
  rw [posterior_eq (by simp [h.ne']), List.map_replicate, List.map_replicate, List.sum_replicate,
    nsmul_eq_mul]
  congr 1
  field_simp

/-- Voters that agree share every path equally. -/
theorem tally_replicate {count : ℕ} (h : 0 < count) (voter : Voter ℝ) (vocabulary : ℕ)
    (targets : List ℕ) (maxLength samples : ℕ) (start : ℝ) (draws : Draws σ) :
    (tally (List.replicate count voter) vocabulary targets maxLength samples
      (List.replicate count start) draws).1 =
        List.replicate count (start + samples / count) := by
  induction samples generalizing start draws with
  | zero => simp [tally]
  | succ samples ih =>
    rw [tally]
    generalize draws.path targets maxLength = drawn
    obtain ⟨path, rest⟩ := drawn
    -- equal voters share each path equally
    simp only [List.map_replicate, posterior_replicate h, List.zipWith_replicate, min_self, ih]
    congr 1
    push_cast
    ring

/-- Voters that agree have equal votes. -/
theorem vote_replicate (knobs : Knobs) {count : ℕ} (h : 0 < count) (voter : Voter ℝ)
    (targets : List ℕ) (draws : Draws σ) :
    (vote knobs (List.replicate count voter) targets draws).1 =
      List.replicate count (1 / (count : ℝ)) := by
  have hsamples : ((max knobs.sampleSize 1 : ℕ) : ℝ) ≠ 0 := Nat.cast_ne_zero.mpr (by omega)
  unfold vote
  simp only [List.map_replicate, tally_replicate h, zero_eq, ofInt_eq, Int.cast_natCast]
  congr 1
  field_simp
  ring

/-! ## Spread -/

/-- The sum of a list with a zero replaced. -/
theorem sum_set_of_zero {xs : List ℝ} {position : ℕ} {x : ℝ} (h : xs[position]? = some 0) :
    (xs.set position x).sum = xs.sum + x := by
  induction xs generalizing position with
  | nil => simp at h
  | cons y rest ih =>
    cases position with
    | zero =>
      simp only [List.getElem?_cons_zero, Option.some.injEq] at h
      subst h
      simp [add_comm]
    | succ position =>
      simp only [List.getElem?_cons_succ] at h
      simp only [List.set_cons_succ, List.sum_cons, ih h]
      ring

/-- Shares put at different positions that were empty: what is zero at zero adds up over the
shares. -/
theorem sum_map_foldl_set {f : ℝ → ℝ} (hf : f 0 = 0) {entries : List (ℕ × ℝ)} {votes : List ℝ}
    (hnodup : (entries.map Prod.fst).Nodup)
    (hempty : ∀ position ∈ entries.map Prod.fst, votes[position]? = some 0) :
    ((entries.foldl (fun votes entry => votes.set entry.1 entry.2) votes).map f).sum =
      (votes.map f).sum + ((entries.map Prod.snd).map f).sum := by
  induction entries generalizing votes with
  | nil => simp
  | cons entry rest ih =>
    obtain ⟨position, share⟩ := entry
    rw [List.map_cons, List.nodup_cons] at hnodup
    -- the later places are other ones, so they are still zero
    have hrest : ∀ other ∈ rest.map Prod.fst, (votes.set position share)[other]? = some 0 := by
      intro other hother
      have hne : position ≠ other := by
        rintro rfl
        exact hnodup.1 hother
      rw [List.getElem?_set_ne hne]
      exact hempty other (List.mem_cons_of_mem _ hother)
    have hzero : (votes.map f)[position]? = some 0 := by
      rw [List.getElem?_map, hempty position List.mem_cons_self, Option.map_some, hf]
    rw [List.foldl_cons, ih hnodup.2 hrest, List.map_set, sum_set_of_zero hzero]
    simp only [List.map_cons, List.sum_cons]
    ring

/-- What is zero at zero adds up to the same over shares and over their spread. -/
theorem sum_map_spread {f : ℝ → ℝ} (hf : f 0 = 0) {count : ℕ} {positions : List ℕ} {shares : List ℝ}
    (hnodup : positions.Nodup) (hlt : ∀ position ∈ positions, position < count)
    (hlength : positions.length = shares.length) :
    ((spread count positions shares).map f).sum = (shares.map f).sum := by
  have hkeys : (positions.zip shares).map Prod.fst = positions :=
    List.map_fst_zip hlength.le
  have hvalues : (positions.zip shares).map Prod.snd = shares :=
    List.map_snd_zip hlength.ge
  have hstart : ∀ position ∈ (positions.zip shares).map Prod.fst,
      (List.replicate count (Arith.zero : ℝ))[position]? = some 0 := by
    intro position h
    rw [List.getElem?_replicate_of_lt (hlt position (hkeys ▸ h)), zero_eq]
  rw [spread, sum_map_foldl_set hf (hkeys.symm ▸ hnodup) hstart, hvalues]
  simp [hf]

/-- A spread holds shares and zeros only. -/
theorem mem_spread {count : ℕ} {positions : List ℕ} {shares : List ℝ} {v : ℝ}
    (h : v ∈ spread count positions shares) : v = 0 ∨ v ∈ shares := by
  -- what is written stays or is written over by another share
  have keeps (entries : List (ℕ × ℝ)) (votes : List ℝ)
      (hv : v ∈ entries.foldl (fun votes entry => votes.set entry.1 entry.2) votes) :
      v ∈ votes ∨ v ∈ entries.map Prod.snd := by
    induction entries generalizing votes with
    | nil => exact .inl hv
    | cons entry rest ih =>
      rcases ih _ hv with hset | hrest
      · rcases List.mem_or_eq_of_mem_set hset with hvotes | rfl
        · exact .inl hvotes
        · exact .inr List.mem_cons_self
      · exact .inr (List.mem_cons_of_mem _ hrest)
  rcases keeps _ _ h with hzero | hshare
  · exact .inl ((List.mem_replicate.mp hzero).2.trans zero_eq)
  · obtain ⟨entry, hentry, rfl⟩ := List.mem_map.mp hshare
    exact .inr (List.of_mem_zip hentry).2

/-- A spread of shares is made of shares. -/
theorem isShares_spread {count : ℕ} {positions : List ℕ} {shares : List ℝ} (h : IsShares shares)
    (hnodup : positions.Nodup) (hlt : ∀ position ∈ positions, position < count)
    (hlength : positions.length = shares.length) : IsShares (spread count positions shares) := by
  constructor
  · intro v hv
    rcases mem_spread hv with rfl | hshare
    · exact le_rfl
    · exact h.nonneg v hshare
  · have := sum_map_spread (f := id) rfl hnodup hlt hlength
    rwa [List.map_id, List.map_id, h.sum_eq_one] at this

end AlgorithmPortfolio.Exact
