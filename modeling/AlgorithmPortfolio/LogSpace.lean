import AlgorithmPortfolio.Arith

/-!
# Probabilities in log space

Likelihoods of long paths are products of many small factors, so they are kept as logarithms and
turned into probabilities at the end.

- `peak`: the greatest defined number of a list.
- `logSumExp`: the logarithm of a sum of exponentials, taken relative to the greatest term so
  that no exponential overflows.
- `posterior`: exponentials divided by their sum; equal shares where that sum is not a finite
  number.
- `smoothed`, `logLikelihood`: counts of tokens as probabilities with one extra sighting per
  token.
-/

namespace AlgorithmPortfolio.LogSpace

variable {α : Type} [Arith α]

open Arith

/-- The greatest number of a list; numbers that do not even equal themselves are passed over. -/
def peak (xs : List α) : Option α :=
  xs.foldl (fun best x =>
    if x ≤ x then
      match best with
      | none => some x
      | some m => if m < x then some x else some m
    else best) none

/-- The logarithm of the sum of the exponentials. Without a finite greatest term it is that
term, and without any term the lowest number. -/
def logSumExp (logits : List α) : α :=
  match peak logits with
  | none => lowest
  | some m => if isFinite m then ln (sum (logits.map fun x => exp (x - m))) + m else m

/-- The shares of the exponentials in their sum; equal shares if the sum is not a finite
number. -/
def posterior (logits : List α) : List α :=
  let total := logSumExp logits
  if isFinite total then logits.map fun x => exp (x - total) else uniform logits.length

@[simp] theorem length_posterior (logits : List α) : (posterior logits).length = logits.length := by
  simp only [posterior]
  split <;> simp

/-- The denominator of smoothed probabilities: all sightings and one more for each token of the
vocabulary, but at least 1. Counts are natural numbers: the sum is taken to stay below `2 ^ 64`,
where words of 64 bits add up to the same. -/
def smoothingNorm (seenTokens vocabularySize : Nat) : Nat := max 1 (seenTokens + vocabularySize)

/-- The probability of a token that was seen `count` times. With one more sighting the count,
too, is taken to stay below `2 ^ 64`. -/
def smoothed (seenTokens vocabularySize count : Nat) : α :=
  ofInt (count + 1 : Nat) / ofInt (smoothingNorm seenTokens vocabularySize)

/-- The log-likelihood of tokens with the given counts. -/
def logLikelihood (seenTokens vocabularySize : Nat) (counts : List Nat) : α :=
  sum (counts.map fun count => ln (smoothed (α := α) seenTokens vocabularySize count))

end AlgorithmPortfolio.LogSpace
