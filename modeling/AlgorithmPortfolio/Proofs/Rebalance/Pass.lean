import AlgorithmPortfolio.Proofs.Rebalance.Survey

/-!
# The pass, case by case

- `pass_firstRound`, `pass_unready`, `pass_insufficient`, `pass_unelected`, `pass_elected`: the
  outcome of a pass in each of its cases, with the slots and the sources of chance after it.
- `pass_cases`: a pass either leaves everything but listed targets as it is, whatever the models
  and the sources of chance would say, or gives every slot the limit of its vote.
- `map_limit_reallocate`: the limits that slots get from votes.
- `map_slots_pass`: whatever its outcome, a pass changes limits and listed targets only.
-/

namespace AlgorithmPortfolio.Rebalance

variable {α σ : Type} [Arith α] [PathSampler σ] {engines : Engines α} {knobs : Knobs} {round : Nat}
  {models : List (Option (PathModel α))} {slots : List (Slot α)} {draws : Draws σ}

/-- The seconds that a pass over slots can distribute. -/
def budgetOf (slots : List (Slot α)) : Int := distributable (slots.map Slot.limit)

theorem budgetOf_survey (engines : Engines α) (slots : List (Slot α)) :
    distributable ((surveyOf engines slots).observations.map Prod.snd) = budgetOf slots := by
  rw [surveyOf, observations, List.map_map, budgetOf]
  rfl

/-! ## Outcomes -/

theorem pass_firstRound (first : round = 0) :
    pass engines knobs round models slots draws = (.skipped .firstRound, slots, draws) :=
  if_pos first

theorem pass_unready (later : round ≠ 0) {slot : Slot α}
    (first : slots.find? (Slot.isUnready engines) = some slot) :
    pass engines knobs round models slots draws =
      (.skipped slot.fault, (survey engines slots).2, draws) := by
  have hsurvey : survey engines slots = (.error slot.fault, (survey engines slots).2) :=
    Prod.ext (survey_of_unready first) rfl
  rw [pass, if_neg later, hsurvey]

theorem pass_insufficient (later : round ≠ 0) (ready : slots.find? (Slot.isUnready engines) = none)
    (short : budgetOf slots ≤ slots.length) :
    pass engines knobs round models slots draws =
      (.skipped (.insufficientBudget (budgetOf slots) slots.length), slots.map (Slot.asked engines),
        draws) := by
  rw [pass, if_neg later, survey_of_ready ready]
  simp only [budgetOf_survey, List.length_map, if_pos short]

theorem pass_unelected (later : round ≠ 0) (ready : slots.find? (Slot.isUnready engines) = none)
    (ample : slots.length < budgetOf slots) {reason : SkipReason} {after : Draws σ}
    (unelected : elect knobs models (slots.map (Slot.asked engines))
      (surveyOf engines slots) draws =
      (.error reason, after)) :
    pass engines knobs round models slots draws =
      (.skipped reason, slots.map (Slot.asked engines), after) := by
  rw [pass, if_neg later, survey_of_ready ready]
  simp only [budgetOf_survey, List.length_map, if_neg (Int.not_le.mpr ample), unelected]

theorem pass_elected (later : round ≠ 0) (ready : slots.find? (Slot.isUnready engines) = none)
    (ample : slots.length < budgetOf slots) {votes : List α} {after : Draws σ}
    (elected : elect knobs models (slots.map (Slot.asked engines)) (surveyOf engines slots) draws =
      (.ok votes, after)) :
    pass engines knobs round models slots draws =
      (.applied (budgetOf slots)
          ((reallocate votes (budgetOf slots) (slots.map (Slot.asked engines))).map Slot.limit),
        reallocate votes (budgetOf slots) (slots.map (Slot.asked engines)), after) := by
  rw [pass, if_neg later, survey_of_ready ready]
  simp only [budgetOf_survey, List.length_map, if_neg (Int.not_le.mpr ample), elected]

/-- What a pass can do: leave everything but listed targets as it is, for a reason that neither
the sources of chance nor what the models say has a part in, or give every slot the limit of its
vote. -/
theorem pass_cases (engines : Engines α) (knobs : Knobs) (round : Nat)
    (models : List (Option (PathModel α))) (slots : List (Slot α)) (draws : Draws σ) :
    (∃ reason after, List.Forall₂ (Slot.Refreshed engines) slots after ∧
        ∀ {τ : Type} [PathSampler τ] (others : List (Option (PathModel α))) (sources : Draws τ),
          others.map Option.isSome = models.map Option.isSome →
            pass engines knobs round others slots sources = (.skipped reason, after, sources)) ∨
      (∃ votes after, round ≠ 0 ∧ slots.find? (Slot.isUnready engines) = none ∧
        slots.length < budgetOf slots ∧
        elect knobs models (slots.map (Slot.asked engines)) (surveyOf engines slots) draws =
          (.ok votes, after) ∧
        pass engines knobs round models slots draws =
          (.applied (budgetOf slots)
              ((reallocate votes (budgetOf slots) (slots.map (Slot.asked engines))).map Slot.limit),
            reallocate votes (budgetOf slots) (slots.map (Slot.asked engines)), after)) := by
  -- whatever stops the pass, slots differ at most in what their engine listed
  have asked : List.Forall₂ (Slot.Refreshed engines) slots (slots.map (Slot.asked engines)) :=
    List.forall₂_map_right_iff.mpr (List.forall₂_same.mpr fun _ _ => .inr rfl)
  by_cases later : round = 0
  · have same : List.Forall₂ (Slot.Refreshed engines) slots slots :=
      List.forall₂_same.mpr fun _ _ => .inl rfl
    exact .inl ⟨_, _, same, fun _ _ _ => pass_firstRound later⟩
  cases ready : slots.find? (Slot.isUnready engines) with
  | some slot =>
    exact .inl ⟨_, _, refreshed_survey engines slots, fun _ _ _ => pass_unready later ready⟩
  | none =>
    by_cases short : budgetOf slots ≤ slots.length
    · exact .inl ⟨_, _, asked, fun _ _ _ => pass_insufficient later ready short⟩
    have ample := Int.not_le.mp short
    -- what the election says is either votes or a reason not to hold them
    cases helect : elect knobs models (slots.map (Slot.asked engines)) (surveyOf engines slots)
      draws with
    | mk result after =>
      cases result with
      | error reason =>
        refine .inl ⟨reason, _, asked, fun others sources present => ?_⟩
        exact pass_unelected later ready ample (elect_of_unelected helect present sources)
      | ok votes =>
        exact .inr ⟨votes, after, later, rfl, ample, rfl, pass_elected later ready ample helect⟩

/-! ## Limits -/

/-- The limits of slots after their reallocation. -/
theorem map_limit_reallocate {votes : List α} {slots : List (Slot α)} (budget : Int)
    (hlength : votes.length = slots.length) :
    (reallocate votes budget slots).map Slot.limit =
      votes.map fun vote =>
        Slot.clampLimit (limitFloor + Arith.nearest (vote * Arith.ofInt budget)) := by
  have hlimits : (limitsOfVotes votes budget).length = slots.length := by simpa using hlength
  have hsnd : (slots.zip (limitsOfVotes votes budget)).map Prod.snd = limitsOfVotes votes budget :=
    List.map_snd_zip (Nat.le_of_eq hlimits)
  calc (reallocate votes budget slots).map Slot.limit
      = (slots.zip (limitsOfVotes votes budget)).map fun entry => Slot.clampLimit entry.2 := by
        rw [reallocate, List.map_zipWith, ← List.map_uncurry_zip_eq_zipWith]
        rfl
    _ = (limitsOfVotes votes budget).map Slot.clampLimit := by
        rw [← hsnd, List.map_map, hsnd]
        rfl
    _ = _ := by
        rw [limitsOfVotes, List.map_map]
        rfl

/-! ## Frame -/

section Frame

variable {β : Type} {f : Slot α → β}

omit [Arith α] in
/-- Slots whose targets were listed anew differ in nothing else. -/
theorem map_refreshed (frame : ∀ slot listed, f { slot with listed } = f slot)
    {engines : Engines α} {before after : List (Slot α)}
    (h : List.Forall₂ (Slot.Refreshed engines) before after) : after.map f = before.map f := by
  induction h with
  | nil => rfl
  | @cons slot slot' _ _ hslot _ ih =>
    rw [List.map_cons, List.map_cons, ih]
    rcases hslot with rfl | rfl
    · rfl
    · rw [Slot.asked, frame]

theorem map_reallocate (frame : ∀ slot limit listed, f { slot with limit, listed } = f slot)
    {votes : List α} (budget : Int) {slots : List (Slot α)} (h : votes.length = slots.length) :
    (reallocate votes budget slots).map f = slots.map f := by
  have hlimits : (limitsOfVotes votes budget).length = slots.length := by simpa using h
  rw [reallocate]
  -- by induction on the slots and the limits together, which are of the same number
  generalize limitsOfVotes votes budget = limits at hlimits
  clear h
  induction slots generalizing limits with
  | nil => simp
  | cons slot rest ih =>
    cases limits with
    | nil => simp at hlimits
    | cons limit limits =>
      simp only [List.length_cons, Nat.add_right_cancel_iff] at hlimits
      rw [List.zipWith_cons_cons, List.map_cons, List.map_cons, ih limits hlimits]
      rw [Slot.adapt, frame slot _ slot.listed]

/-- Whatever its outcome, a pass changes limits and listed targets only. -/
theorem map_slots_pass (frame : ∀ slot limit listed, f { slot with limit, listed } = f slot)
    (engines : Engines α) (knobs : Knobs) (round : Nat) (models : List (Option (PathModel α)))
    (slots : List (Slot α)) (draws : Draws σ) :
    (pass engines knobs round models slots draws).2.1.map f = slots.map f := by
  rcases pass_cases engines knobs round models slots draws with
    ⟨reason, after, hrefreshed, hpass⟩ | ⟨votes, after, -, -, -, helect, hpass⟩
  · rw [hpass models draws rfl]
    exact map_refreshed (fun slot listed => frame slot slot.limit listed) hrefreshed
  · rw [hpass]
    show (reallocate votes _ _).map f = slots.map f
    rw [map_reallocate frame _ (length_of_elected helect), List.map_map]
    exact List.map_congr_left fun slot _ => frame slot slot.limit (slot.coverage engines)

end Frame

end AlgorithmPortfolio.Rebalance
