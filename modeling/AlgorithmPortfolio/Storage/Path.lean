import AlgorithmPortfolio.Text.Split

/-!
# Paths

A path is a text whose names are separated by slashes.

- `Path.names`: the names on the way; empty names and single dots lead nowhere and are left out.
- `Path.mustBeDirectory`: whether a path can only lead to a directory.
- `Path.above`: the paths of the directories on the way.
- `Path.extension?`: the part of the last name after its last dot.
-/

namespace AlgorithmPortfolio.Storage.Path

/-- The parts of a path between slashes. -/
def parts (path : String) : List String := (Text.splitAll '/' path.toList).map String.ofList

/-- Whether a part of a path leads somewhere: an empty part and a single dot do not. -/
def isName (part : String) : Bool := part != "" && part != "."

/-- The names of a path, without empty names and single dots. -/
def names (path : String) : List String := (parts path).filter isName

/-- The paths up to each name of a way, the shortest first; `start` is what stands before the
way. -/
def upTo (start : String) : List String → List String
  | [] => []
  | part :: rest =>
    let here := start ++ part
    if isName part then here :: upTo (here ++ "/") rest else upTo (here ++ "/") rest

/-- The paths of the directories on the way to a path, the nearest one first. They are written
as they are in the path. -/
def above (path : String) : List String := (upTo "" (parts path)).dropLast.reverse

example : above "a//b/./c" = ["a//b", "a"] := by decide +kernel

/-- Whether a path starts at the root of all files. -/
def isAbsolute (path : String) : Bool := path.startsWith "/"

/-- Whether a path can only lead to a directory: its last part is no name of a file. -/
def mustBeDirectory (path : String) : Bool :=
  match (parts path).getLast? with
  | some part => part == "" || part == "." || part == ".."
  | none => false

/-- Whether a path ends in slashes after a name. -/
def endsInSlash (path : String) : Bool :=
  path.endsWith "/" && ((parts path).filter (· != "")).getLast?.any isName

example : endsInSlash "a/b//" = true ∧ endsInSlash "a/./" = false ∧ endsInSlash "a" = false := by
  decide +kernel

/-- What follows the last dot of a name; a dot in front of all other characters does not
count. -/
def extensionOf (name : List Char) : Option (List Char) :=
  let tail := name.reverse.takeWhile (· != '.')
  if tail.length + 1 < name.length then some tail.reverse else none

/-- The extension of the last name of a path. -/
def extension? (path : String) : Option String :=
  match (names path).getLast? with
  | some name => if name == ".." then none else (extensionOf name.toList).map String.ofList
  | none => none

end AlgorithmPortfolio.Storage.Path
