import AlgorithmPortfolio.Proofs.Exact.Shares
import AlgorithmPortfolio.Proofs.Rebalance.Skipped

/-!
# What a pass does with the budget

Votes add up to one, but every slot gets its part of the budget rounded by itself. The seconds
above the floors after a pass are therefore those before it and the sum of the rounding errors.

- `shares_of_elect`: a pass elects by shares of one, spread over the positions of the voters.
- `limits_of_shares`: what limits made of shares have above the floors.
- `drift`: by how much that differs from the budget. It is at most half a second for each share
  (`drift_bounds`), and nothing for a sole one (`drift_of_sole`).
- `rebalance_conserves_iff`: limits keep their sum exactly if the rounding errors cancel out.
- `rebalance_loses_second`: three slots that are alike lose one of 31 seconds.
-/

namespace AlgorithmPortfolio

open Exact Rebalance

variable {σ : Type} [PathSampler σ]

/-! ## Limits of shares -/

namespace Exact

/-- The rounded part of a budget is not negative and at most the budget. -/
theorem nearest_part_bounds {share : ℝ} {budget : ℤ} (hshare : 0 ≤ share) (hone : share ≤ 1)
    (hbudget : 0 ≤ budget) : 0 ≤ nearest (share * budget) ∧ nearest (share * budget) ≤ budget := by
  have hreal : (0 : ℝ) ≤ budget := Int.cast_nonneg hbudget
  have hpart : 0 ≤ share * budget := mul_nonneg hshare hreal
  constructor
  · have := nearest_mono le_rfl hpart
    rwa [nearest_zero] at this
  · have := nearest_mono hpart (mul_le_of_le_one_left hreal hone)
    rwa [nearest_intCast] at this

/-- The sum of the rounding errors of a budget's parts. -/
noncomputable def drift (budget : ℤ) (shares : List ℝ) : ℝ :=
  (shares.map fun share => roundingError (share * budget)).sum

/-- The rounded parts of a budget add up to the budget and all rounding errors. -/
theorem sum_nearest_parts {shares : List ℝ} (hsum : shares.sum = 1) (budget : ℤ) :
    (((shares.map fun share => nearest (share * budget)).sum : ℤ) : ℝ) =
      budget + drift budget shares := by
  -- for any sum of the shares, so that the induction can take one of them away
  have hparts (shares : List ℝ) :
      (((shares.map fun share => nearest (share * budget)).sum : ℤ) : ℝ) =
        shares.sum * budget + drift budget shares := by
    unfold drift
    induction shares with
    | nil => simp
    | cons share rest ih =>
      simp only [List.map_cons, List.sum_cons, Int.cast_add, ih,
        nearest_eq_add_roundingError (share * budget)]
      ring
  rw [hparts, hsum, one_mul]

/-- Each rounding error is more than minus a half and at most a half. -/
theorem drift_bounds {shares : List ℝ} (hne : shares ≠ []) (hshares : ∀ share ∈ shares, 0 ≤ share)
    {budget : ℤ} (hbudget : 0 ≤ budget) :
    -(shares.length : ℝ) < 2 * drift budget shares ∧ 2 * drift budget shares ≤ shares.length := by
  have hpart (share : ℝ) (h : share ∈ shares) : 0 ≤ share * budget :=
    mul_nonneg (hshares share h) (Int.cast_nonneg hbudget)
  -- each part is rounded up by at most half a second, and down by less
  have hlow := List.sum_lt_sum_of_ne_nil hne (fun _ => (-(1 / 2) : ℝ))
    (fun share => roundingError (share * budget))
    fun share h => neg_half_lt_roundingError (hpart share h)
  have hhigh := List.sum_le_card_nsmul (shares.map fun share => roundingError (share * budget))
    (1 / 2) fun error h => by
      obtain ⟨share, hshare, rfl⟩ := List.mem_map.mp h
      exact roundingError_le_half (hpart share hshare)
  rw [List.map_const', List.sum_replicate, nsmul_eq_mul] at hlow
  rw [List.length_map, nsmul_eq_mul] at hhigh
  unfold drift
  constructor
  · linarith
  · linarith

/-- All of the budget is a whole number of seconds. -/
theorem drift_of_sole {shares : List ℝ} (hsum : shares.sum = 1) (sole : shares.length = 1)
    (budget : ℤ) : drift budget shares = 0 := by
  obtain ⟨share, rfl⟩ := List.length_eq_one_iff.mp sole
  have hone : share = 1 := by simpa using hsum
  subst hone
  show roundingError (1 * budget) + 0 = 0
  rw [one_mul, roundingError_intCast, add_zero]

end Exact

/-- The sum of limits above their floors, by the sum of the limits. -/
theorem distributable_eq (limits : List Nat) :
    distributable limits = (limits.sum : ℤ) - limitFloor * limits.length := by
  induction limits with
  | nil => rfl
  | cons limit rest ih =>
    have hcons : distributable (limit :: rest) =
        ((limit : ℤ) - limitFloor) + distributable rest := rfl
    rw [hcons, ih, List.sum_cons, List.length_cons]
    push_cast
    ring

/-- A limit between the floor and the ceiling is not cut. -/
theorem Slot.clampLimit_of_fits {extra : ℤ} (hextra : 0 ≤ extra)
    (fits : limitFloor + extra ≤ limitCeiling) :
    (Slot.clampLimit (limitFloor + extra) : ℤ) = limitFloor + extra := by
  unfold Slot.clampLimit
  omega

/-- The limits of slots after their reallocation, in exact arithmetic. -/
theorem Rebalance.limits_reallocate {votes : List ℝ} {slots : List (Slot ℝ)} (budget : ℤ)
    (hlength : votes.length = slots.length) :
    (reallocate votes budget slots).map Slot.limit =
      votes.map fun vote => Slot.clampLimit (limitFloor + nearest (vote * budget)) :=
  map_limit_reallocate budget hlength

/-- Limits made of shares are the floor and the rounded part, so that the seconds above the
floors are the budget and all rounding errors. -/
theorem limits_of_shares {shares : List ℝ} (h : IsShares shares) {budget : ℤ} (hbudget : 0 ≤ budget)
    (fits : limitFloor + budget ≤ limitCeiling) {limits : List Nat}
    (hlimits : limits = shares.map fun share =>
      Slot.clampLimit (limitFloor + nearest (share * budget))) :
    (limits.map fun (limit : Nat) => (limit : ℤ)) =
        shares.map (fun share => limitFloor + nearest (share * budget)) ∧
      (distributable limits : ℝ) = budget + drift budget shares := by
  -- nothing is lost at the floor or the ceiling
  have hlimit (share : ℝ) (hshare : share ∈ shares) :
      (Slot.clampLimit (limitFloor + nearest (share * budget)) : ℤ) =
        limitFloor + nearest (share * budget) := by
    obtain ⟨hlow, hhigh⟩ := nearest_part_bounds (h.nonneg share hshare) (h.le_one hshare) hbudget
    exact Slot.clampLimit_of_fits hlow (by omega)
  subst hlimits
  constructor
  · rw [List.map_map]
    exact List.map_congr_left hlimit
  · -- so what stands above the floors is the sum of the rounded parts
    have habove : distributable (shares.map fun share =>
        Slot.clampLimit (limitFloor + nearest (share * budget))) =
          (shares.map fun share => nearest (share * budget)).sum := by
      rw [distributable, List.map_map]
      refine congrArg List.sum (List.map_congr_left fun share hshare => ?_)
      show (Slot.clampLimit _ : ℤ) - limitFloor = _
      rw [hlimit share hshare]
      ring
    rw [habove, sum_nearest_parts h.sum_eq_one]

/-! ## Elected shares -/

/-- A pass elects by shares of one, one for each slot that votes, and zero for all others. -/
theorem shares_of_elect {knobs : Knobs} {models : List (Option (PathModel ℝ))}
    {slots : List (Slot ℝ)} {seen : Survey ℝ} {draws after : Draws σ} {votes : List ℝ}
    (elected : elect knobs models slots seen draws = (.ok votes, after)) (hne : slots ≠ [])
    (hlength : seen.observations.length = slots.length) :
    IsShares votes ∧ ∃ shares, IsShares shares ∧ shares.length = seen.mask.length ∧
      ∀ budget, drift budget votes = drift budget shares := by
  have hprior : IsShares (progressPrior seen.observations) :=
    isShares_progressPrior (List.length_pos_iff.mp (hlength ▸ List.length_pos_iff.mpr hne))
  have hmask : seen.mask ≠ [] := eligible_ne_nil hprior
  have hnodup : seen.mask.Nodup := (pairwise_eligible _).imp Nat.ne_of_lt
  have hlt : ∀ position ∈ seen.mask, position < slots.length := by
    intro position h
    have := lt_length_of_mem_eligible h
    rwa [length_progressPrior, hlength] at this
  obtain ⟨shares, rfl, hshares⟩ := spread_of_elected elected
  -- the shares are those of a sole slot or those of a vote
  have hparts : IsShares shares ∧ shares.length = seen.mask.length := by
    rcases hshares with ⟨position, hsole, rfl⟩ | ⟨found, hfound, -, rfl⟩
    · rw [hsole, one_eq]
      exact ⟨isShares_singleton, rfl⟩
    · have hvoters : found ≠ [] :=
        List.length_pos_iff.mp (hfound ▸ List.length_pos_iff.mpr hmask)
      obtain ⟨hvote, hcount⟩ := isShares_vote knobs hvoters seen.targets.toList draws
      exact ⟨hvote, hcount.trans hfound⟩
  obtain ⟨hparts, hcount⟩ := hparts
  -- the slots that are not in the mask have no share, and add nothing to the drift
  refine ⟨isShares_spread hparts hnodup hlt hcount.symm, shares, hparts, hcount, fun budget => ?_⟩
  exact sum_map_spread (by simp) hnodup hlt hcount.symm

/-! ## Conservation -/

namespace RoundRobin

/-- The votes of the pass that a schedule runs, if it comes to an election. -/
def elected {α : Type} [Arith α] (engines : Engines α) (schedule : RoundRobin σ α) :
    Except SkipReason (List α) × Draws σ :=
  elect schedule.knobs schedule.models (schedule.portfolio.slots.map (Slot.asked engines))
    (surveyOf engines schedule.portfolio.slots) schedule.draws

/-- An applied pass gives limits of elected votes. -/
theorem elected_of_applied {engines : Engines ℝ} {schedule after : RoundRobin σ ℝ} {budget : ℤ}
    {limits : List ℕ} (applied : schedule.rebalance engines = (.applied budget limits, after)) :
    ∃ votes, schedule.elected engines = (.ok votes, after.draws) ∧
      budget = distributable schedule.portfolio.limits ∧ schedule.portfolio.size < budget ∧
      limits = votes.map fun vote => Slot.clampLimit (limitFloor + nearest (vote * budget)) := by
  rcases hpass : schedule.currentPass engines with ⟨outcome, slots, draws⟩
  rw [rebalance_of_pass hpass] at applied
  rcases Rebalance.pass_cases engines schedule.knobs schedule.round schedule.models
    schedule.portfolio.slots schedule.draws with
    ⟨reason, slots, -, hskipped⟩ | ⟨votes, draws, -, -, ample, helect, happlied⟩
  · cases hpass.symm.trans (hskipped schedule.models schedule.draws rfl)
    cases applied
  · cases hpass.symm.trans happlied
    cases applied
    refine ⟨votes, helect, rfl, ample, ?_⟩
    rw [limits_reallocate _ (length_of_elected helect)]

/-- **A pass keeps the sum of all limits exactly if its rounding errors cancel out.** In exact
arithmetic the votes are shares of one, and every limit is the floor and the rounded part of the
budget. What the limits have above the floors is the budget and the sum of the rounding errors,
which is at most half a second for each slot with a positive prior. A sole such slot has all of
the budget. -/
theorem rebalance_conserves_iff (engines : Engines ℝ) {schedule after : RoundRobin σ ℝ} {budget : ℤ}
    {limits : List ℕ} (applied : schedule.rebalance engines = (.applied budget limits, after))
    (fits : limitFloor + budget ≤ limitCeiling) :
    budget = distributable schedule.portfolio.limits ∧ limits = after.portfolio.limits ∧
      ∃ votes, schedule.elected engines = (.ok votes, after.draws) ∧ IsShares votes ∧
        (limits.map fun (limit : ℕ) => (limit : ℤ)) =
          votes.map (fun vote => limitFloor + nearest (vote * budget)) ∧
        (distributable limits : ℝ) = budget + drift budget votes ∧
        (distributable limits = budget ↔ drift budget votes = 0) ∧
        (limits.sum = schedule.portfolio.limits.sum ↔ drift budget votes = 0) ∧
        -(schedule.mask.length : ℝ) < 2 * drift budget votes ∧
        2 * drift budget votes ≤ schedule.mask.length ∧
        (schedule.mask.length = 1 → limits.sum = schedule.portfolio.limits.sum) := by
  have hkept := (limits_of_applied (congrArg Prod.fst applied)).2
  rw [applied] at hkept
  obtain ⟨votes, helect, hbudget, ample, hlimits⟩ := elected_of_applied applied
  -- the budget is more than the slots are, so there is a slot
  have hpositive : 0 ≤ budget := by omega
  have hslots : schedule.portfolio.slots ≠ [] := by
    intro hnil
    rw [Portfolio.limits, hnil] at hbudget
    have : budget = 0 := hbudget
    omega
  obtain ⟨hvotes, shares, hshares, hcount, hdrift⟩ := shares_of_elect helect
    (by simpa using hslots) (by simp [surveyOf, observations])
  obtain ⟨hparts, htotal⟩ := limits_of_shares hvotes hpositive fits hlimits
  -- only the slots in the mask have a share, so only their parts are rounded
  obtain ⟨hlow, hhigh⟩ := drift_bounds hshares.ne_nil hshares.nonneg hpositive
  rw [← hdrift, hcount] at hlow hhigh
  have hdistributed : distributable limits = budget ↔ drift budget votes = 0 := by
    rw [← Int.cast_inj (α := ℝ), htotal, add_eq_left]
  -- the limits are as many as before, so their sum differs as the seconds above the floors do
  have hlength : limits.length = schedule.portfolio.limits.length := by
    rw [hlimits, List.length_map, length_of_elected helect, List.length_map, Portfolio.limits,
      List.length_map]
  have hsum : limits.sum = schedule.portfolio.limits.sum ↔ drift budget votes = 0 := by
    rw [← hdistributed, hbudget, distributable_eq, distributable_eq, hlength]
    omega
  refine ⟨hbudget, hkept, votes, helect, hvotes, hparts, htotal, hdistributed, hsum, hlow,
    hhigh, ?_⟩
  intro sole
  rw [hsum, hdrift]
  exact drift_of_sole hshares.sum_eq_one (hcount.trans sole) budget

/-! ### Three slots that are alike -/

/-- Three slots without progress, the last with one second more, and with the same model. -/
noncomputable def threeAlike : RoundRobin PathFunction ℝ :=
  afterFirstRound
    [Slot.tried "a" 20 (some 0), Slot.tried "b" 20 (some 0), Slot.tried "c" 21 (some 0)]
    (List.replicate 3 (some (.ofStatistic [] fun _ => default)))

/-- Engines that all list one target. -/
noncomputable def oneTarget : Engines ℝ := fun _ => ⟨some ⟨[1], by simp⟩, 0⟩

/-- No slot progressed, so all have the same prior and all vote. -/
theorem prior_threeAlike :
    progressPrior (observations threeAlike.portfolio.slots) = List.replicate 3 (1 / 3) ∧
      threeAlike.mask = [0, 1, 2] := by
  have hprior : progressPrior (observations threeAlike.portfolio.slots) =
      List.replicate 3 (1 / 3) := by
    rw [progressPrior_of_still (by simp [threeAlike, afterFirstRound, observations, Slot.tried])]
    show List.replicate 3 (Arith.one / Arith.ofInt (max 3 1)) = _
    norm_num
  refine ⟨hprior, ?_⟩
  rw [mask, hprior]
  simp [eligible, positivesFrom, List.replicate_succ]

/-- All models say the same, so all votes are equal. -/
theorem elected_threeAlike :
    (threeAlike.elected oneTarget).1 = .ok (List.replicate 3 (1 / 3)) := by
  obtain ⟨hprior, hmask⟩ := prior_threeAlike
  -- three slots of equal progress are all in the mask
  have hmask' : (surveyOf oneTarget threeAlike.portfolio.slots).mask = [0, 1, 2] := hmask
  have hvoters : voters (threeAlike.portfolio.slots.map (Slot.asked oneTarget)) threeAlike.models
      (progressPrior (surveyOf oneTarget threeAlike.portfolio.slots).observations) [0, 1, 2] =
        .ok (List.replicate 3 ⟨1 / 3, .ofStatistic [] fun _ => default⟩) := by
    show voters _ _ (progressPrior (observations threeAlike.portfolio.slots)) _ = _
    rw [hprior]
    rfl
  have htargets : (surveyOf oneTarget threeAlike.portfolio.slots).targets.isEmpty = false := rfl
  rw [elected, elect_contested _ _ _ _ (by rw [hmask']; decide), hmask', hvoters]
  simp only [htargets, Bool.false_eq_true, if_false, vote_replicate _ (Nat.succ_pos 2)]
  rfl

/-- 31 seconds are above the floors, and each third of them is rounded down to 10. -/
theorem rebalance_threeAlike :
    ∃ after, threeAlike.rebalance oneTarget = (.applied 31 [20, 20, 20], after) := by
  rcases helect : threeAlike.elected oneTarget with ⟨result, draws⟩
  have hresult : result = .ok (List.replicate 3 (1 / 3)) := by
    rw [← elected_threeAlike, helect]
  subst hresult
  -- a third of 31 seconds is rounded down, three times
  have hthird : nearest (1 / 3 * (31 : ℤ)) = 10 := by
    rw [nearest_of_nonneg (by norm_num), Int.floor_eq_iff]
    norm_num
  have hlimits : (reallocate (List.replicate 3 (1 / 3)) 31
      (threeAlike.portfolio.slots.map (Slot.asked oneTarget))).map Slot.limit = [20, 20, 20] := by
    rw [limits_reallocate 31 rfl, List.map_replicate, hthird]
    rfl
  have hpass : threeAlike.currentPass oneTarget = (.applied 31 _, _, draws) :=
    pass_elected Nat.one_ne_zero rfl (by decide) helect
  rw [rebalance_of_pass hpass]
  exact ⟨_, congrArg (fun limits => (Outcome.applied 31 limits, _)) hlimits⟩

/-- Three slots that are alike keep 30 of 31 seconds above the floors. -/
theorem rebalance_loses_second :
    ∃ after, threeAlike.rebalance oneTarget = (.applied 31 [20, 20, 20], after) ∧
      limitFloor + (31 : ℤ) ≤ limitCeiling ∧ distributable [20, 20, 20] ≠ 31 ∧
      after.portfolio.limits.sum ≠ threeAlike.portfolio.limits.sum := by
  obtain ⟨after, happlied⟩ := rebalance_threeAlike
  refine ⟨after, happlied, by decide, by decide, ?_⟩
  have hlimits := (limits_of_applied (congrArg Prod.fst happlied)).2
  rw [happlied] at hlimits
  rw [← hlimits]
  decide

/-- The second that three slots lose is the sum of their rounding errors. -/
theorem rebalance_conserves_iff_threeAlike :
    ∃ after, threeAlike.rebalance oneTarget = (.applied 31 [20, 20, 20], after) ∧
      limitFloor + (31 : ℤ) ≤ limitCeiling ∧
      ∃ votes, threeAlike.elected oneTarget = (.ok votes, after.draws) ∧ IsShares votes ∧
        (distributable [20, 20, 20] : ℝ) = (31 : ℤ) + drift 31 votes := by
  obtain ⟨after, happlied⟩ := rebalance_threeAlike
  have hfits : limitFloor + (31 : ℤ) ≤ limitCeiling := by decide
  obtain ⟨-, -, votes, helect, hvotes, -, htotal, -⟩ :=
    rebalance_conserves_iff oneTarget happlied hfits
  exact ⟨after, happlied, hfits, votes, helect, hvotes, htotal⟩

end RoundRobin

end AlgorithmPortfolio
