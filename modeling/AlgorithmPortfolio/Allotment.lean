import AlgorithmPortfolio.Arith
import AlgorithmPortfolio.Bits

/-!
# From progress to time limits

Every slot keeps a floor of time; what lies above the floors is one budget, and votes divide it.

- `limitFloor`, `limitCeiling`: the least and the greatest time limit.
- `progressPrior`: each slot's progress per second of its limit, as a share of all.
- `eligible`: the positions with a positive prior, which are those and ascend (`mem_eligible`,
  `pairwise_eligible`).
- `distributable`: the seconds above the floors.
- `limitsOfVotes`: the floor and a share of the budget for each vote.
-/

namespace AlgorithmPortfolio

variable {α : Type} [Arith α]

open Arith

/-- The least time limit of a slot, and the limit of one without an annotation, in seconds. -/
def limitFloor : Nat := 10

/-- The greatest time limit of a slot, in seconds. -/
def limitCeiling : Nat := maxOfBits 32

/-- Progress per second; regress counts as none, and a limit of no time has no rate. -/
def progressRate (progress : α) (limit : Nat) : α :=
  if limit = 0 then zero else (if zero < progress then progress else zero) / ofInt limit

/-- The slots' progress rates divided by their sum; equal shares if the sum is not positive. -/
def progressPrior (observations : List (α × Nat)) : List α :=
  let rates := observations.map fun seen => progressRate seen.1 seen.2
  let total := sum rates
  if total ≤ zero then uniform observations.length else rates.map (· / total)

@[simp] theorem length_progressPrior (observations : List (α × Nat)) :
    (progressPrior observations).length = observations.length := by
  simp only [progressPrior]
  split <;> simp

/-- The positions of positive numbers, ascending, where the first number has position
`start`. -/
def positivesFrom (start : Nat) : List α → List Nat
  | [] => []
  | p :: rest =>
    if zero < p then start :: positivesFrom (start + 1) rest else positivesFrom (start + 1) rest

/-- The positions with a positive prior, ascending. -/
def eligible (prior : List α) : List Nat := positivesFrom 0 prior

theorem mem_positivesFrom {start position : Nat} {prior : List α} :
    position ∈ positivesFrom start prior ↔
      ∃ i p, position = start + i ∧ prior[i]? = some p ∧ zero < p := by
  induction prior generalizing start with
  | nil => simp [positivesFrom]
  | cons p rest ih =>
    -- the first position is that of `p`, all others are those of `rest` one further on
    have shift : (∃ i q, position = start + i ∧ (p :: rest)[i]? = some q ∧ zero < q) ↔
        (position = start ∧ zero < p) ∨
          ∃ i q, position = start + 1 + i ∧ rest[i]? = some q ∧ zero < q := by
      constructor
      · rintro ⟨i, q, rfl, hq, hpos⟩
        cases i with
        | zero =>
          rw [List.getElem?_cons_zero, Option.some.injEq] at hq
          exact .inl ⟨rfl, hq ▸ hpos⟩
        | succ i => exact .inr ⟨i, q, by omega, hq, hpos⟩
      · rintro (⟨rfl, hpos⟩ | ⟨i, q, rfl, hq, hpos⟩)
        · exact ⟨0, p, rfl, rfl, hpos⟩
        · exact ⟨i + 1, q, by omega, hq, hpos⟩
    rw [shift, positivesFrom]
    split
    · rename_i hp
      simp [ih, hp]
    · rename_i hp
      simp [ih, hp]

theorem pairwise_positivesFrom (start : Nat) (prior : List α) :
    (positivesFrom start prior).Pairwise (· < ·) := by
  induction prior generalizing start with
  | nil => exact List.Pairwise.nil
  | cons p rest ih =>
    rw [positivesFrom]
    split
    · refine List.pairwise_cons.mpr ⟨fun position h => ?_, ih (start + 1)⟩
      obtain ⟨i, -, rfl, -, -⟩ := mem_positivesFrom.mp h
      omega
    · exact ih (start + 1)

theorem mem_eligible {position : Nat} {prior : List α} :
    position ∈ eligible prior ↔ ∃ p, prior[position]? = some p ∧ zero < p := by
  simp [eligible, mem_positivesFrom]

theorem pairwise_eligible (prior : List α) : (eligible prior).Pairwise (· < ·) :=
  pairwise_positivesFrom 0 prior

theorem lt_length_of_mem_eligible {position : Nat} {prior : List α}
    (h : position ∈ eligible prior) : position < prior.length := by
  obtain ⟨p, hp, -⟩ := mem_eligible.mp h
  exact (List.getElem?_eq_some_iff.mp hp).1

/-- The seconds above the floor, summed over all slots; limits below the floor count against
it. -/
def distributable (limits : List Nat) : Int :=
  (limits.map fun (limit : Nat) => (limit : Int) - limitFloor).foldr (· + ·) 0

/-- The floor and the rounded share of the budget, for each vote. -/
def limitsOfVotes (votes : List α) (budget : Int) : List Int :=
  votes.map fun vote => limitFloor + nearest (vote * ofInt budget)

@[simp] theorem length_limitsOfVotes (votes : List α) (budget : Int) :
    (limitsOfVotes votes budget).length = votes.length := by
  simp [limitsOfVotes]

end AlgorithmPortfolio
