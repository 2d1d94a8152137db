import AlgorithmPortfolio.Dict
import AlgorithmPortfolio.Storage.Path

/-!
# Directory trees

The files that configurations, options and models are read from and written to, as a value.

- `Fault`: why a file cannot be read or written, with its `message`.
- `Node`, `Tree`: files and directories by their names on the way from the working directory.
- `Tree.read`: the text of a file.
- `Action`: a change of the tree that may fail; what it changed before it failed stays changed.
- `write`, `createDirectories`: the changes.
-/

namespace AlgorithmPortfolio.Storage

/-- Why a file cannot be read or written. -/
inductive Fault
  | missing
  | exists
  | notADirectory
  | isADirectory
  | nameTooLong
  | notText
  | nulInName
  deriving DecidableEq, Repr

/-- The wording of a fault. -/
def Fault.message : Fault → String
  | .missing => "No such file or directory (os error 2)"
  | .exists => "File exists (os error 17)"
  | .notADirectory => "Not a directory (os error 20)"
  | .isADirectory => "Is a directory (os error 21)"
  | .nameTooLong => "File name too long (os error 36)"
  | .notText => "stream did not contain valid UTF-8"
  | .nulInName => "file name contained an unexpected NUL byte"

/-- A file or a directory. A file whose bytes are no text has no content to read. -/
inductive Node
  | file (content : Option String)
  | directory
  deriving DecidableEq, Repr

/-- Files and directories below the working directory, by their names joined with slashes. -/
structure Tree where
  nodes : Dict Node

namespace Tree

/-- The tree without files. -/
def empty : Tree := ⟨Dict.empty⟩

instance : Inhabited Tree := ⟨empty⟩

/-- The key of a place, given by its names, the last one first. -/
def key (place : List String) : String := "/".intercalate place.reverse

/-- What is at a place. The place without names is the working directory. -/
def node? (tree : Tree) : List String → Option Node
  | [] => some .directory
  | place => tree.nodes.get? (key place)

/-- The tree with a node at a place. -/
def put (tree : Tree) (place : List String) (node : Node) : Tree :=
  ⟨tree.nodes.insert (key place) node⟩

/-- How long a name may be, in bytes. -/
def nameLimit : Nat := 255

/-- How long a path may be, in bytes. -/
def pathLimit : Nat := 4095

/-- Follow names from a place; every place on the way has to be a directory. The last one may be
empty. Above the working directory there are only directories, and nothing else is known of
them. -/
def follow (tree : Tree) (place : List String) : List String → Except Fault (List String)
  | [] => .ok place
  | name :: rest =>
    match tree.node? place with
    | none => .error .missing
    | some (.file _) => .error .notADirectory
    | some .directory =>
      -- the way back up is known as far as the working directory
      if name = ".." then
        match place with
        | [] => .error (if rest.isEmpty then .isADirectory else .missing)
        | _ :: up => follow tree up rest
      else if nameLimit < name.utf8ByteSize then .error .nameTooLong
      else follow tree (name :: place) rest

/-- The place that a path leads to. -/
def locate (tree : Tree) (path : String) : Except Fault (List String) :=
  if path.toList.contains '\x00' then .error .nulInName
  else if path = "" then .error .missing
  else if pathLimit < path.utf8ByteSize then .error .nameTooLong
  else if Path.isAbsolute path ∧ Path.names path ≠ [] then .error .missing
  else follow tree [] (Path.names path)

/-- The text of a file. -/
def read (tree : Tree) (path : String) : Except Fault String := do
  let place ← tree.locate path
  match tree.node? place with
  | none => .error .missing
  | some .directory => .error .isADirectory
  | some (.file content) =>
    if Path.mustBeDirectory path then .error .notADirectory
    else
      match content with
      | some text => .ok text
      | none => .error .notText

/-- Whether a path leads to a file. -/
def isFile (tree : Tree) (path : String) : Bool :=
  match tree.read path with
  | .ok _ => true
  | .error fault => fault == .notText

end Tree

/-! ## Changes -/

/-- A change of the tree that may fail. -/
abbrev Action := ExceptT Fault (StateM Tree)

/-- The place that a path leads to. -/
def place (path : String) : Action (List String) := do
  MonadExcept.ofExcept ((← getThe Tree).locate path)

/-- Write a text into a file, which is made if it is not there. -/
def write (path text : String) : Action Unit := do
  let place ← place path
  match (← getThe Tree).node? place with
  | some .directory => throw .isADirectory
  | some (.file _) =>
    if Path.endsInSlash path then throw .isADirectory
    if Path.mustBeDirectory path then throw .notADirectory
    modify fun tree => tree.put place (.file (some text))
  | none =>
    if Path.endsInSlash path then throw .isADirectory
    if Path.mustBeDirectory path then throw .missing
    modify fun tree => tree.put place (.file (some text))

/-- Make one directory. -/
def createDirectory (path : String) : Action Unit := do
  let place ← place path
  if ((← getThe Tree).node? place).isSome then throw .exists
  modify fun tree => tree.put place .directory

/-- Whether a path leads to a directory. -/
def isDirectory (path : String) : Action Bool := do
  let tree ← getThe Tree
  match tree.locate path with
  | .ok place => return tree.node? place == some .directory
  | .error _ => return false

/-- Do without a fault if the path leads to a directory by now. -/
def unlessDirectory (path : String) (fault : Fault) : Action Unit := do
  unless ← isDirectory path do throw fault

/-- Make a directory and those above it that are missing; the nearest path comes first. A
directory that is there already is left alone. -/
def createDirectories : List String → Action Unit
  | [] => pure ()
  | path :: up =>
    tryCatch (createDirectory path) fun fault => do
      if fault = .missing then
        -- the place above is missing, so it is made first
        createDirectories up
        tryCatch (createDirectory path) (unlessDirectory path)
      else unlessDirectory path fault

/-- Write a text into a file below directories that are made if they are missing. -/
def writeWithDirectories (path text : String) : Action Unit := do
  createDirectories (Path.above path)
  write path text

end AlgorithmPortfolio.Storage
