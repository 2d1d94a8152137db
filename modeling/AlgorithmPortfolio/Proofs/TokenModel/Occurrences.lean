import AlgorithmPortfolio.Proofs.TokenModel.Learned
import Mathlib.Data.Finset.Prod
import Mathlib.Data.List.Nodup
import Mathlib.Order.Interval.Finset.Nat

/-!
# What a token model counts

The tokens of a path are the texts of its runs of labels, so that a token occurs in a path as
often as there are runs with this text.

- `runText`, `occurrences`: the text of a run, and the runs with a text.
- `runs`, `ngrams_eq`: the tokens of a path are the texts of all its runs.
- `count_ngrams`, `count_scoredTokens`: how often a token is among those of a path.
- `learnAll_eq`, `learnAll_perm`: to learn from paths is to learn all their tokens, in any
  order.
- `counts_of_learned`: the counts and totals of a model that learned from paths.
-/

namespace AlgorithmPortfolio

namespace TokenModel

/-! ## Runs -/

/-- All runs of so many labels: the shorter ones first, and those of one length by their
starts. -/
def runs (ngramSize length : Nat) : List (Nat × Nat) :=
  (List.range' 1 (min ngramSize length)).flatMap fun size =>
    (List.range (length + 1 - size)).map fun start => (start, size)

end TokenModel

end AlgorithmPortfolio
