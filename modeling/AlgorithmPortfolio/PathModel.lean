import AlgorithmPortfolio.LogSpace

/-!
# Models of paths

A model of a slot tells how familiar a path through a program is to it, by the counts of the
path's tokens.

- `PathStatistic`: the counts of one path.
- `PathModel`: what a schedule needs to know of a model, such as the score of a path.
- `PathModel.ofStatistic`: a model that scores paths by their statistics, as models do unless
  they have a score of their own.
- `vocabularySize`: the number of tokens that any of several models knows.
- `PathSampler`: a source of paths to targets.
- `PathFunction`: a function as such a source.
-/

namespace AlgorithmPortfolio

/-- What a model knows of a path: how much it learned from, and each token of the path with its
count. -/
structure PathStatistic where
  seenPaths : Nat
  seenTokens : Nat
  tokenCounts : List (String × Nat)
  deriving DecidableEq, Repr, Inhabited

variable {α : Type}

/-- A model: the tokens it has counts for, the statistic of a path, and the score of a path,
which is its log-likelihood with a shared vocabulary size. -/
structure PathModel (α : Type) where
  vocabulary : List String
  statistic : List String → PathStatistic
  score : (vocabularySize : Nat) → List String → α

/-- The log-likelihood of a path's statistic with a shared vocabulary size. -/
def PathStatistic.score [Arith α] (vocabularySize : Nat) (statistic : PathStatistic) : α :=
  LogSpace.logLikelihood statistic.seenTokens vocabularySize (statistic.tokenCounts.map Prod.snd)

/-- The model that scores paths by their statistics. -/
def PathModel.ofStatistic [Arith α] (vocabulary : List String)
    (statistic : List String → PathStatistic) : PathModel α :=
  ⟨vocabulary, statistic, fun vocabularySize path => (statistic path).score vocabularySize⟩

@[simp] theorem PathModel.statistic_ofStatistic [Arith α] (vocabulary : List String)
    (statistic : List String → PathStatistic) :
    (ofStatistic vocabulary statistic : PathModel α).statistic = statistic := rfl

/-- The number of different tokens that the models know. -/
def vocabularySize (models : List (PathModel α)) : Nat :=
  (models.flatMap PathModel.vocabulary).eraseDups.length

/-- A source of paths: the path to a target, of at most so many tokens, and the source
afterwards. -/
class PathSampler (σ : Type) where
  pathTo : (target maxLength : Nat) → σ → List String × σ

/-- A function that gives a path to a target, of at most so many tokens. -/
structure PathFunction where
  path : (target maxLength : Nat) → List String

/-- A function gives the same paths each time. -/
instance : PathSampler PathFunction where
  pathTo target maxLength source := (source.path target maxLength, source)

end AlgorithmPortfolio
