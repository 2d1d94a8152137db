import AlgorithmPortfolio.Bits
import AlgorithmPortfolio.Error
import AlgorithmPortfolio.Text.Split
import AlgorithmPortfolio.TokenModel.Basic

/-!
# Files of token frequency models

A model file has a line for the number of paths and one for each token: a name, a tab and a
count.

- `TokenModel.toText`: the file of a model, tokens ascending.
- `TokenModel.ofText`: the model of a file. The first line named like the number of paths is
  that number, wherever it stands; of lines with the same token the last one counts, while the
  total of tokens takes in all of them. Empty lines are passed over.
- `TokenModel.load`, `TokenModel.save`: the same from and to a directory tree.
-/

namespace AlgorithmPortfolio.TokenModel

/-- The name of the line with the number of paths. -/
def pathsKey : String := "numSeenPaths"

/-- A line of a model file with its line feed. -/
def lineText (name : String) (count : Nat) : String := name ++ "\t" ++ toString count ++ "\n"

/-- The file of a model. -/
def toText (model : TokenModel) : String :=
  lineText pathsKey model.seenPaths ++
    String.join (model.counts.entries.map fun entry => lineText entry.1 entry.2)

/-- The greatest count of a file. -/
def countBound : Nat := maxOfBits 64

/-- The name and the count of a line. -/
def readLine (line : List Char) : Except ModelLineFault (String × Nat) :=
  match Text.splitFirst '\t' line with
  | none => .error .noTab
  | some (name, count) =>
    match Text.readNumeral countBound count with
    | .ok value => .ok (String.ofList name, value)
    | .error fault => .error (.badCount (String.ofList count) fault)

/-- A model with one more line of its file; `pathsKnown` tells whether the number of paths was
read. -/
def addLine (model : TokenModel) (pathsKnown : Bool) (entry : String × Nat) : TokenModel × Bool :=
  -- a second line of this name is a token
  if !pathsKnown && entry.1 == pathsKey then ({ model with seenPaths := entry.2 }, true)
  else
    ({ model with
        counts := model.counts.insert entry.1 entry.2
        seenTokens := model.seenTokens + entry.2 }, pathsKnown)

/-- A model with the remaining lines of its file, the first of which has the given number. -/
def addLines (model : TokenModel) (pathsKnown : Bool) (number : Nat) :
    List (List Char) → Except (Nat × ModelLineFault) TokenModel
  | [] => .ok model
  | [] :: rest => addLines model pathsKnown (number + 1) rest
  | line :: rest =>
    match readLine line with
    | .error fault => .error (number, fault)
    | .ok entry =>
      let (model, pathsKnown) := addLine model pathsKnown entry
      addLines model pathsKnown (number + 1) rest

/-- The model of a file, or the first faulty line. -/
def ofText (ngramSize : Nat) (setBased : Bool) (text : String) :
    Except (Nat × ModelLineFault) TokenModel :=
  addLines (fresh ngramSize setBased) false 1 (Text.lines text.toList)

/-- Load the model of a file. -/
def load (tree : Storage.Tree) (path : String) (ngramSize : Nat) (setBased : Bool) :
    Except PortfolioError TokenModel :=
  match tree.read path with
  | .error fault => .error (.modelFile path fault)
  | .ok text =>
    match ofText ngramSize setBased text with
    | .error (line, fault) => .error (.modelLine path line fault)
    | .ok model => .ok model

/-- Save the model to a file, below directories that are made if they are missing. -/
def save (model : TokenModel) (path : String) (tree : Storage.Tree) :
    Except PortfolioError Unit × Storage.Tree :=
  match (Storage.writeWithDirectories path model.toText).run tree with
  | (.ok (), tree) => (.ok (), tree)
  | (.error fault, tree) => (.error (.modelFile path fault), tree)

end AlgorithmPortfolio.TokenModel
