import AlgorithmPortfolio.Proofs.Exact.Shares

/-!
# The prior of progress

Slots start with shares in proportion to their progress per second, and with equal shares while
none of them progresses. In exact arithmetic this is a distribution whatever was observed, and
more progress of one slot speaks for that slot and against all others.

- `sharesOf`: the shares of rates, which a prior is made of (`progressPrior_eq`).
- `Progresses`: a position with positive progress and a positive limit. These have the positive
  rates (`progressRate_pos_iff`, `sum_progressRates_pos_iff`).
- `mem_eligible_iff`, `eligible_of_still`: the positions with a positive prior.
- `sharesOf_raised`: a rate that is raised takes from the others, also where equal shares end.
- `progressPrior_laws`: all of this for any observations.
-/

namespace AlgorithmPortfolio.Exact

/-! ## Shares of rates -/

/-- Rates divided by their sum; equal shares if the sum is not positive. -/
noncomputable def sharesOf (rates : List ℝ) : List ℝ :=
  if rates.sum ≤ 0 then Arith.uniform rates.length else rates.map (· / rates.sum)

/-- The progress per second of each observed slot. -/
noncomputable def progressRates (observations : List (ℝ × ℕ)) : List ℝ :=
  observations.map fun seen => progressRate seen.1 seen.2

theorem progressPrior_eq (observations : List (ℝ × ℕ)) :
    progressPrior observations = sharesOf (progressRates observations) := by
  unfold progressPrior sharesOf progressRates
  simp only [sum_eq, zero_eq, List.length_map]

theorem progressRates_nonneg (observations : List (ℝ × ℕ)) :
    ∀ rate ∈ progressRates observations, 0 ≤ rate := by
  intro rate hrate
  obtain ⟨seen, -, rfl⟩ := List.mem_map.mp hrate
  exact progressRate_nonneg seen.1 seen.2

theorem sharesOf_nonneg {rates : List ℝ} (hne : rates ≠ []) (h : ∀ rate ∈ rates, 0 ≤ rate) :
    ∀ share ∈ sharesOf rates, 0 ≤ share := by
  unfold sharesOf
  split
  · exact (isShares_uniform (List.length_pos_iff.mpr hne)).nonneg
  · rename_i hsum
    exact (isShares_div h (not_le.mp hsum)).nonneg

/-- With a positive sum, every share is the rate's part in it. -/
theorem getD_sharesOf {rates : List ℝ} (h : 0 < rates.sum) (position : ℕ) :
    (sharesOf rates).getD position 0 = rates.getD position 0 / rates.sum := by
  rw [sharesOf, if_neg (not_le.mpr h)]
  simp only [List.getD_eq_getElem?_getD, List.getElem?_map]
  cases rates[position]? with
  | none => exact (zero_div _).symm
  | some rate => rfl

/-- Without a positive sum, all shares are equal. -/
theorem getD_sharesOf_of_still {rates : List ℝ} (h : rates.sum ≤ 0) {position : ℕ}
    (hlt : position < rates.length) : (sharesOf rates).getD position 0 = 1 / rates.length := by
  have hmax : max (rates.length : ℤ) 1 = rates.length := by omega
  rw [sharesOf, if_pos h, Arith.uniform, List.getD_eq_getElem?_getD,
    List.getElem?_replicate_of_lt hlt, hmax, one_eq, ofInt_eq, Int.cast_natCast]
  rfl

/-! ## Progressing positions -/

/-- Whether a slot with positive progress and a positive limit was observed at a position. -/
def Progresses (observations : List (ℝ × ℕ)) (position : ℕ) : Prop :=
  ∃ progress limit, observations[position]? = some (progress, limit) ∧ 0 < progress ∧ 0 < limit

theorem progressRate_pos_iff {progress : ℝ} {limit : ℕ} :
    0 < progressRate progress limit ↔ 0 < progress ∧ 0 < limit := by
  unfold progressRate
  simp only [zero_eq, ofInt_eq, Int.cast_natCast]
  by_cases hlimit : limit = 0
  · simp [hlimit]
  · have hpos : (0 : ℝ) < limit := Nat.cast_pos.mpr (Nat.pos_of_ne_zero hlimit)
    rw [if_neg hlimit]
    by_cases hprogress : 0 < progress
    · rw [if_pos hprogress]
      exact iff_of_true (div_pos hprogress hpos) ⟨hprogress, Nat.pos_of_ne_zero hlimit⟩
    · rw [if_neg hprogress]
      exact iff_of_false (by simp) fun h => hprogress h.1

theorem progresses_iff {observations : List (ℝ × ℕ)} {position : ℕ} :
    Progresses observations position ↔
      ∃ rate, (progressRates observations)[position]? = some rate ∧ 0 < rate := by
  rw [progressRates, List.getElem?_map]
  constructor
  · rintro ⟨progress, limit, hat, hpos⟩
    exact ⟨_, by rw [hat]; rfl, progressRate_pos_iff.mpr hpos⟩
  · rintro ⟨rate, hrate, hpos⟩
    obtain ⟨⟨progress, limit⟩, hat, rfl⟩ := Option.map_eq_some_iff.mp hrate
    exact ⟨progress, limit, hat, progressRate_pos_iff.mp hpos⟩

/-- The rates have a positive sum exactly if a slot progresses. -/
theorem sum_progressRates_pos_iff {observations : List (ℝ × ℕ)} :
    0 < (progressRates observations).sum ↔ ∃ position, Progresses observations position := by
  simp only [progresses_iff]
  constructor
  · -- rates that are not positive add up to nothing
    intro hsum
    by_contra hnone
    have hle : ∀ rate ∈ progressRates observations, rate ≤ 0 := by
      intro rate hrate
      obtain ⟨position, hposition⟩ := List.getElem?_of_mem hrate
      exact not_lt.mp fun hpos => hnone ⟨position, rate, hposition, hpos⟩
    have := List.sum_le_card_nsmul (progressRates observations) 0 hle
    rw [nsmul_zero] at this
    linarith
  · rintro ⟨position, rate, hrate, hpos⟩
    have hmem := List.mem_of_getElem? hrate
    exact hpos.trans_le (List.single_le_sum (progressRates_nonneg observations) rate hmem)

/-! ## Positions with a positive prior -/

/-- While a slot progresses, the positions with a positive prior are those that do. -/
theorem mem_eligible_iff {observations : List (ℝ × ℕ)}
    (h : ∃ position, Progresses observations position) (position : ℕ) :
    position ∈ eligible (progressPrior observations) ↔ Progresses observations position := by
  have hsum := sum_progressRates_pos_iff.mpr h
  rw [mem_eligible, progresses_iff, progressPrior_eq, sharesOf, if_neg (not_le.mpr hsum), zero_eq,
    List.getElem?_map]
  constructor
  · rintro ⟨share, hshare, hpos⟩
    obtain ⟨rate, hrate, rfl⟩ := Option.map_eq_some_iff.mp hshare
    exact ⟨rate, hrate, (div_pos_iff_of_pos_right hsum).mp hpos⟩
  · rintro ⟨rate, hrate, hpos⟩
    exact ⟨rate / (progressRates observations).sum, by rw [hrate]; rfl, div_pos hpos hsum⟩

theorem positivesFrom_replicate {share : ℝ} (h : 0 < share) (start count : ℕ) :
    positivesFrom start (List.replicate count share) = List.range' start count := by
  induction count generalizing start with
  | zero => rfl
  | succ count ih =>
    have hpos : (Arith.zero : ℝ) < share := by rwa [zero_eq]
    rw [List.replicate_succ, positivesFrom, if_pos hpos, ih, List.range'_succ]

/-- While no slot progresses, all positions have a positive prior. -/
theorem eligible_of_still {observations : List (ℝ × ℕ)}
    (h : ¬∃ position, Progresses observations position) :
    eligible (progressPrior observations) = List.range observations.length := by
  have hsum := not_lt.mp fun hpos => h (sum_progressRates_pos_iff.mp hpos)
  have hlength : (progressRates observations).length = observations.length := List.length_map _
  rw [progressPrior_eq, sharesOf, if_pos hsum, hlength, eligible, Arith.uniform,
    positivesFrom_replicate, List.range_eq_range']
  rw [one_eq, ofInt_eq]
  have : (0 : ℝ) < ((max observations.length 1 : ℤ) : ℝ) := Int.cast_pos.mpr (by omega)
  positivity

/-! ## More progress -/

theorem progressRate_mono {progress raised : ℝ} (h : progress ≤ raised) (limit : ℕ) :
    progressRate progress limit ≤ progressRate raised limit := by
  unfold progressRate
  simp only [zero_eq, ofInt_eq, Int.cast_natCast]
  by_cases hlimit : limit = 0
  · rw [if_pos hlimit, if_pos hlimit]
  · rw [if_neg hlimit, if_neg hlimit]
    refine div_le_div_of_nonneg_right ?_ (Nat.cast_nonneg limit)
    by_cases hprogress : 0 < progress
    · rwa [if_pos hprogress, if_pos (hprogress.trans_le h)]
    · rw [if_neg hprogress]
      split
      · rename_i hpos
        exact hpos.le
      · exact le_rfl

section Raised

variable {rates : List ℝ} {position other : ℕ} {rate raised : ℝ}

theorem getD_nonneg (h : ∀ rate ∈ rates, 0 ≤ rate) (position : ℕ) : 0 ≤ rates.getD position 0 := by
  rw [List.getD_eq_getElem?_getD]
  cases hrate : rates[position]? with
  | none => exact le_rfl
  | some rate => exact h rate (List.mem_of_getElem? hrate)

theorem getD_le_sum (h : ∀ rate ∈ rates, 0 ≤ rate) (position : ℕ) :
    rates.getD position 0 ≤ rates.sum := by
  rw [List.getD_eq_getElem?_getD]
  cases hrate : rates[position]? with
  | none => exact List.sum_nonneg h
  | some rate => exact List.single_le_sum h rate (List.mem_of_getElem? hrate)

theorem getD_set_self (hlt : position < rates.length) (raised : ℝ) :
    (rates.set position raised).getD position 0 = raised := by
  rw [List.getD_eq_getElem?_getD, List.getElem?_set_self hlt, Option.getD_some]

theorem getD_set_ne (hne : other ≠ position) (raised : ℝ) :
    (rates.set position raised).getD other 0 = rates.getD other 0 := by
  rw [List.getD_eq_getElem?_getD, List.getElem?_set_ne hne.symm, List.getD_eq_getElem?_getD]

/-- The sum of rates after one of them is raised. -/
theorem sum_set_raised (hat : rates[position]? = some rate) (raised : ℝ) :
    (rates.set position raised).sum = rates.sum + (raised - rate) := by
  obtain ⟨hlt, hrate⟩ := List.getElem?_eq_some_iff.mp hat
  rw [List.sum_set', dif_pos hlt, hrate]
  ring

/-- Where no rate was positive, one that is raised above zero takes everything. -/
theorem sharesOf_raised_of_still (hnonneg : ∀ rate ∈ rates, 0 ≤ rate) (hstill : rates.sum ≤ 0)
    (hlt : position < rates.length) (hraised : 0 < raised)
    (hsum : (rates.set position raised).sum = raised) :
    (sharesOf rates).getD position 0 ≤ (sharesOf (rates.set position raised)).getD position 0 ∧
      ∀ other, other ≠ position →
        (sharesOf (rates.set position raised)).getD other 0 ≤ (sharesOf rates).getD other 0 := by
  have hpos : 0 < (rates.set position raised).sum := by rwa [hsum]
  constructor
  · -- before, all slots shared alike; now the one that moved has all
    rw [getD_sharesOf_of_still hstill hlt, getD_sharesOf hpos, getD_set_self hlt, hsum,
      div_self hraised.ne']
    have hlength : (1 : ℝ) ≤ rates.length := Nat.one_le_cast.mpr (Nat.zero_lt_of_lt hlt)
    exact (div_le_one (by linarith)).mpr hlength
  · -- the others had no rate and have none now
    intro other hne
    have hnone : rates.getD other 0 = 0 :=
      le_antisymm ((getD_le_sum hnonneg other).trans hstill) (getD_nonneg hnonneg other)
    rw [getD_sharesOf hpos, getD_set_ne hne, hnone, zero_div]
    exact getD_nonneg (sharesOf_nonneg (List.length_pos_iff.mp (Nat.zero_lt_of_lt hlt)) hnonneg)
      other

/-- Where some rate was positive, one that is raised has a greater part in a greater sum. -/
theorem sharesOf_raised_of_moving (hnonneg : ∀ rate ∈ rates, 0 ≤ rate) (hmoving : 0 < rates.sum)
    (hat : rates[position]? = some rate) (hle : rate ≤ raised) :
    (sharesOf rates).getD position 0 ≤ (sharesOf (rates.set position raised)).getD position 0 ∧
      ∀ other, other ≠ position →
        (sharesOf (rates.set position raised)).getD other 0 ≤ (sharesOf rates).getD other 0 := by
  have hlt := (List.getElem?_eq_some_iff.mp hat).1
  have hrate : rates.getD position 0 = rate := by
    rw [List.getD_eq_getElem?_getD, hat, Option.getD_some]
  have hsum := sum_set_raised hat raised
  have hgrown : rates.sum ≤ (rates.set position raised).sum := by linarith
  have hpos := hmoving.trans_le hgrown
  constructor
  · rw [getD_sharesOf hmoving, getD_sharesOf hpos, getD_set_self hlt, hrate,
      div_le_div_iff₀ hmoving hpos, hsum]
    -- what is added counts fully for the rate, but only by its part for the share before
    have hpart : rate * (raised - rate) ≤ rates.sum * (raised - rate) :=
      mul_le_mul_of_nonneg_right (hrate ▸ getD_le_sum hnonneg position) (sub_nonneg.mpr hle)
    linarith
  · -- the same rate is a smaller part of a larger sum
    intro other hne
    rw [getD_sharesOf hmoving, getD_sharesOf hpos, getD_set_ne hne]
    exact div_le_div_of_nonneg_left (getD_nonneg hnonneg other) hmoving hgrown

/-- A rate that is raised has no smaller share than before, and no other rate has a greater
one. -/
theorem sharesOf_raised (hnonneg : ∀ rate ∈ rates, 0 ≤ rate) (hat : rates[position]? = some rate)
    (hle : rate ≤ raised) :
    (sharesOf rates).getD position 0 ≤ (sharesOf (rates.set position raised)).getD position 0 ∧
      ∀ other, other ≠ position →
        (sharesOf (rates.set position raised)).getD other 0 ≤ (sharesOf rates).getD other 0 := by
  obtain ⟨hlt, hrate⟩ := List.getElem?_eq_some_iff.mp hat
  by_cases hmoving : 0 < rates.sum
  · exact sharesOf_raised_of_moving hnonneg hmoving hat hle
  · -- nothing moved before, so either nothing moves now or this slot alone does
    have hstill := not_lt.mp hmoving
    have hzero : rates.sum = 0 := le_antisymm hstill (List.sum_nonneg hnonneg)
    have hnone : rate = 0 :=
      le_antisymm ((List.single_le_sum hnonneg rate (List.mem_of_getElem? hat)).trans hstill)
        (hnonneg rate (List.mem_of_getElem? hat))
    rcases hle.eq_or_lt with hsame | hmoved
    · rw [← hsame, ← hrate, List.set_getElem_self]
      exact ⟨le_rfl, fun _ _ => le_rfl⟩
    · refine sharesOf_raised_of_still hnonneg hstill hlt (hnone ▸ hmoved) ?_
      rw [sum_set_raised hat, hzero, hnone]
      ring

end Raised

/-- **The prior of progress is a monotone distribution.** For any observations of at least one
slot there is one share for each slot, not negative and 1 in total. The positions with a
positive share are never none: in ascending order they are those with positive progress and a
positive limit, or all if there is no such slot. And raising the progress of one slot never
lowers its share and never raises that of another one. -/
theorem progressPrior_laws {observations : List (ℝ × ℕ)} (hne : observations ≠ []) :
    (progressPrior observations).length = observations.length ∧
    IsShares (progressPrior observations) ∧
      (eligible (progressPrior observations)).Pairwise (· < ·) ∧
      eligible (progressPrior observations) ≠ [] ∧
      ((∃ position, Progresses observations position) →
        ∀ position, position ∈ eligible (progressPrior observations) ↔
          Progresses observations position) ∧
      ((¬∃ position, Progresses observations position) →
        eligible (progressPrior observations) = List.range observations.length) ∧
      ∀ {position : ℕ} {progress raised : ℝ} {limit : ℕ},
        observations[position]? = some (progress, limit) →
        progress ≤ raised →
          let higher := progressPrior (observations.set position (raised, limit))
          (progressPrior observations).getD position 0 ≤ higher.getD position 0 ∧
            ∀ other, other ≠ position →
              higher.getD other 0 ≤ (progressPrior observations).getD other 0 := by
  have hshares := isShares_progressPrior hne
  refine ⟨length_progressPrior observations, hshares, pairwise_eligible _, eligible_ne_nil hshares,
    mem_eligible_iff, eligible_of_still, fun {position progress raised limit} hat hle => ?_⟩
  have hrate : (progressRates observations)[position]? = some (progressRate progress limit) := by
    rw [progressRates, List.getElem?_map, hat]
    rfl
  -- raising the progress of one slot raises its rate alone
  have hset : progressRates (observations.set position (raised, limit)) =
      (progressRates observations).set position (progressRate raised limit) := by
    rw [progressRates, progressRates, List.map_set]
  have := sharesOf_raised (progressRates_nonneg observations) hrate (progressRate_mono hle limit)
  rwa [← hset, ← progressPrior_eq, ← progressPrior_eq] at this

/-- Of three slots one went back, one has no time at all and one stands still, so that all have
a third. Progress of the last one takes everything. -/
theorem progressPrior_laws_three :
    let observations : List (ℝ × ℕ) := [(-1, 20), (1 / 2, 0), (0, 40)]
    observations ≠ [] ∧ observations[2]? = some (0, 40) ∧ (0 : ℝ) ≤ 1 / 4 ∧
      eligible (progressPrior observations) = [0, 1, 2] ∧
      eligible (progressPrior (observations.set 2 (1 / 4, 40))) ≠ [] ∧
      (progressPrior (observations.set 2 (1 / 4, 40))).getD 0 0 ≤
        (progressPrior observations).getD 0 0 := by
  intro observations
  have hne : observations ≠ [] := List.cons_ne_nil _ _
  have hquarter : (0 : ℝ) ≤ 1 / 4 := by norm_num
  have hstill : ¬∃ position, Progresses observations position := by
    rintro ⟨position, progress, limit, hat, hprogress, hlimit⟩
    match position with
    | 0 =>
      cases hat
      norm_num at hprogress
    | 1 =>
      cases hat
      exact Nat.lt_irrefl 0 hlimit
    | 2 =>
      cases hat
      exact lt_irrefl _ hprogress
    | position + 3 => cases hat
  obtain ⟨-, -, -, -, -, hall, hraised⟩ := progressPrior_laws hne
  have hset : observations.set 2 (1 / 4, 40) ≠ [] := List.cons_ne_nil _ _
  obtain ⟨-, -, -, hmask, -⟩ := progressPrior_laws hset
  exact ⟨hne, rfl, hquarter, hall hstill, hmask, (hraised rfl hquarter).2 0 (by decide)⟩

end AlgorithmPortfolio.Exact
