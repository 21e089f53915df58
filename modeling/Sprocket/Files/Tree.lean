import Sprocket.Files.Path

/-!
# File trees

A tree of directories and files in memory, with a working directory. It answers as a file system
does: a path is walked part by part from the root or the working directory, and every part but the
last has to be a directory.
-/

namespace Sprocket.Files

/-- What a path may lead to. -/
inductive Node where
  | file (content : String)
  | directory
  deriving DecidableEq, Repr

/-- Why a file cannot be read or written. -/
inductive FileError where
  | notFound | alreadyExists | notDirectory | isDirectory
  deriving DecidableEq, Repr

/-- The text of a file error. -/
def FileError.message : FileError → String
  | notFound => "No such file or directory (os error 2)"
  | alreadyExists => "File exists (os error 17)"
  | notDirectory => "Not a directory (os error 20)"
  | isDirectory => "Is a directory (os error 21)"

/-- Where a node is: the names from the root down. -/
abbrev Place : Type := List String

/-- A tree of files. The root is a directory and has no entry. -/
structure Tree where
  workingDirectory : Place
  nodes : List (Place × Node)
  deriving DecidableEq, Repr

namespace Tree

/-- A tree with an empty working directory. -/
def empty : Tree := ⟨["work"], [(["work"], .directory)]⟩

/-- The node at a place. -/
def node? (t : Tree) (place : Place) : Option Node :=
  if place.isEmpty then some .directory else (t.nodes.find? (·.1 == place)).map (·.2)

/-- The tree with a node at a place. -/
def put (t : Tree) (place : Place) (node : Node) : Tree :=
  { t with nodes := (place, node) :: t.nodes.filter (·.1 != place) }

/-- Walks from a directory along parts of a path. The last part need not exist. -/
def walk (t : Tree) : Place → List String → Except FileError Place
  | place, [] => .ok place
  | place, part :: rest =>
    match t.node? place with
    | none => .error .notFound
    | some (.file _) => .error .notDirectory
    | some .directory =>
      if part = "." then t.walk place rest
      else if part = ".." then t.walk place.dropLast rest
      else t.walk (place ++ [part]) rest

/-- Where a walk along a path begins. -/
def start (t : Tree) (path : List Char) : Place :=
  if Path.isAbsolute path then [] else t.workingDirectory

/-- The parts of a path that are walked; a slash at the end asks for a directory. -/
def steps (path : List Char) : List String :=
  let parts := ((Path.parts path).filter (!·.isEmpty)).map String.ofList
  if path.getLast? = some '/' then parts ++ ["."] else parts

/-- The place a path leads to; the empty path leads nowhere. -/
def place (t : Tree) (path : String) : Except FileError Place :=
  if path.isEmpty then .error .notFound else t.walk (t.start path.toList) (steps path.toList)

/-- Whether a path leads to a file or a directory. -/
def contains (t : Tree) (path : String) : Bool :=
  match t.place path with
  | .ok place => (t.node? place).isSome
  | .error _ => false

/-- The content of the file a path leads to. -/
def read (t : Tree) (path : String) : Except FileError String :=
  match t.place path with
  | .error e => .error e
  | .ok place =>
    match t.node? place with
    | none => .error .notFound
    | some .directory => .error .isDirectory
    | some (.file content) => .ok content

/-- Makes one directory, which must not exist, under one that does. -/
def makeDirectory (t : Tree) (place : Place) (parts : List String) : Except FileError Tree :=
  match t.walk place parts with
  | .error e => .error e
  | .ok target =>
    match t.node? target, t.node? target.dropLast with
    | some _, _ => .error .alreadyExists
    | none, some .directory => .ok (t.put target .directory)
    | none, some (.file _) => .error .notDirectory
    | none, none => .error .notFound

/-- Whether parts of a path lead to a directory. -/
def isDirectory (t : Tree) (place : Place) (parts : List String) : Bool :=
  match t.walk place parts with
  | .ok target => t.node? target == some .directory
  | .error _ => false

/-- Makes a directory with all those above it. The parts are given in reverse. Directories made
before an error stay. -/
def makeDirectories (t : Tree) (place : Place) : List String → Tree × Option FileError
  | [] => (t, none)
  | part :: before =>
    let parts := before.reverse ++ [part]
    match t.makeDirectory place parts with
    | .ok made => (made, none)
    | .error .notFound =>
      match t.makeDirectories place before with
      | (above, some e) => (above, some e)
      | (above, none) =>
        match above.makeDirectory place parts with
        | .ok made => (made, none)
        | .error e => (above, if above.isDirectory place parts then none else some e)
    | .error e => (t, if t.isDirectory place parts then none else some e)

/-- Writes the content of the file a path leads to; its directory has to exist. -/
def overwrite (t : Tree) (path content : String) : Except FileError Tree :=
  match t.place path with
  | .error e => .error e
  | .ok target =>
    match t.node? target, t.node? target.dropLast with
    | some .directory, _ => .error .isDirectory
    | some (.file _), _ => .ok (t.put target (.file content))
    | none, some .directory => .ok (t.put target (.file content))
    | none, some (.file _) => .error .notDirectory
    | none, none => .error .notFound

/-- Writes a file and makes the directories above it first. -/
def write (t : Tree) (path content : String) : Tree × Option FileError :=
  let made :=
    match Path.parent? path with
    | none => (t, none)
    | some directory =>
      t.makeDirectories (t.start directory.toList) (steps directory.toList).reverse
  match made with
  | (above, some e) => (above, some e)
  | (above, none) =>
    match above.overwrite path content with
    | .ok written => (written, none)
    | .error e => (above, some e)

/-- The nodes below the working directory, each under its path from there; a directory has a slash
at the end of its path and no content. -/
def listing (t : Tree) : List (String × Option String) :=
  t.nodes.filterMap fun (place, node) =>
    if t.workingDirectory.isPrefixOf place && place != t.workingDirectory then
      let path := "/".intercalate (place.drop t.workingDirectory.length)
      match node with
      | .file content => some (path, some content)
      | .directory => some (path ++ "/", none)
    else none

end Tree

/-- What to do about a file that is there already. -/
inductive Overwrite where
  | always
  | ifMissing
  deriving DecidableEq, Repr

/-- What became of a file that was to be saved. -/
inductive Saved where
  | written
  | skipped
  deriving DecidableEq, Repr

/-- Saves a file under a rule for what is there already. -/
def Tree.save (t : Tree) (rule : Overwrite) (path content : String) :
    Tree × Except FileError Saved :=
  if rule = .ifMissing && t.contains path then (t, .ok .skipped)
  else
    match t.write path content with
    | (written, none) => (written, .ok .written)
    | (left, some e) => (left, .error e)

end Sprocket.Files
