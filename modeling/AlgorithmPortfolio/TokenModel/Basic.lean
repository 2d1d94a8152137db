import AlgorithmPortfolio.Dict
import AlgorithmPortfolio.PathModel

/-!
# Token frequency models

A model that counts the runs of neighbouring labels in the paths it learned from. A run of two
and more labels is one token, its labels joined by underscores; an empty label has a name of its
own.

- `windows`: the runs of one length.
- `TokenModel`: the counts.
- `TokenModel.scoredTokens`: the tokens of a path; every one at most once if the model is
  set-based.
- `TokenModel.learn`: the model after one more path.
- `TokenModel.pathModel`: the model as a schedule sees it.
-/

namespace AlgorithmPortfolio

/-- The runs of `size` neighbours. -/
def windows {β : Type} (size : Nat) : List β → List (List β)
  | [] => []
  | x :: rest => if size ≤ rest.length + 1 then (x :: rest).take size :: windows size rest else []

/-- Counts of tokens, and of the paths and tokens they were learned from. -/
structure TokenModel where
  ngramSize : Nat
  setBased : Bool
  counts : Dict Nat
  seenPaths : Nat
  seenTokens : Nat

namespace TokenModel

/-- A model that learned nothing. Its runs have at least one label. -/
def fresh (ngramSize : Nat) (setBased : Bool) : TokenModel :=
  ⟨max ngramSize 1, setBased, Dict.empty, 0, 0⟩

instance : Inhabited TokenModel := ⟨fresh 1 true⟩

/-- The name of an empty label. -/
def emptyLabel : String := "EMPTY"

/-- The name of a label. -/
def labelName (label : String) : String := if label = "" then emptyLabel else label

/-- The tokens of a path by length, those of one length in the order of the path. -/
def ngrams (ngramSize : Nat) (path : List String) : List String :=
  let labels := path.map labelName
  (List.range' 1 (min ngramSize labels.length)).flatMap fun size =>
    (windows size labels).map "_".intercalate

/-- The different texts of a list, ascending. -/
def distinct (tokens : List String) : List String :=
  (Dict.ofList (tokens.map fun token => (token, ()))).keys

/-- The tokens of a path that count. -/
def scoredTokens (model : TokenModel) (path : List String) : List String :=
  let tokens := ngrams model.ngramSize path
  if model.setBased then distinct tokens else tokens

/-- How often a token was seen. -/
def count (model : TokenModel) (token : String) : Nat := (model.counts.get? token).getD 0

/-- The model after one more sighting of a token. -/
def learnToken (model : TokenModel) (token : String) : TokenModel :=
  { model with
    counts := model.counts.insert token (model.count token + 1)
    seenTokens := model.seenTokens + 1 }

/-- The model after one more path. -/
def learn (model : TokenModel) (path : List String) : TokenModel :=
  let model := (model.scoredTokens path).foldl learnToken model
  { model with seenPaths := model.seenPaths + 1 }

/-- The model after more paths. -/
def learnAll (model : TokenModel) (paths : List (List String)) : TokenModel :=
  paths.foldl learn model

/-- The tokens that the model has counts for, ascending. -/
def vocabulary (model : TokenModel) : List String := model.counts.keys

/-- What the model knows of a path. -/
def statistic (model : TokenModel) (path : List String) : PathStatistic :=
  ⟨model.seenPaths, model.seenTokens,
    (model.scoredTokens path).map fun token => (token, model.count token)⟩

/-- The model as a schedule sees it. It scores paths by their statistics. -/
def pathModel {α : Type} [Arith α] (model : TokenModel) : PathModel α :=
  .ofStatistic model.vocabulary model.statistic

end TokenModel

end AlgorithmPortfolio
