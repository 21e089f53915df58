import Sprocket.Text.Ascii
import Sprocket.Text.Split

/-!
# Paths

Paths are texts whose parts are separated by slashes. Joining and taking the parent work on the
text and normalise nothing else.
-/

namespace Sprocket.Files.Path

/-- Whether a path starts at the root. -/
def isAbsolute (path : List Char) : Bool := path.head? == some '/'

/-- A path taken relative to another one; an absolute path stands for itself. -/
def join (base path : String) : String :=
  if isAbsolute path.toList then path
  else if base.toList.isEmpty || base.toList.getLast? == some '/' then base ++ path
  else base ++ "/" ++ path

/-- The parts of a path after its root. -/
def parts (path : List Char) : List (List Char) :=
  match path with
  | '/' :: r => Text.pieces '/' r
  | s => Text.pieces '/' s

/-- Whether a part names nothing: it is empty, or a dot that is not in front of a relative path. -/
def isVoid (inFront : Bool) (part : List Char) : Bool :=
  part.isEmpty || (part == ['.'] && !inFront)

/-- Removes the parts at the end that name nothing. The parts are given in reverse. -/
def dropVoid (absolute : Bool) : List (List Char) → List (List Char)
  | [] => []
  | part :: before =>
    if isVoid (before.isEmpty && !absolute) part then dropVoid absolute before
    else part :: before

/-- The path without its last part, if it has one. -/
def parent? (path : String) : Option String :=
  let absolute := isAbsolute path.toList
  match dropVoid absolute (parts path.toList).reverse with
  | [] => none
  | _ :: before =>
    let kept := List.intercalate ['/'] (dropVoid absolute before).reverse
    some (String.ofList (if absolute then '/' :: kept else kept))

/-- The name of the file a path leads to, unless it ends in a dot or two dots. -/
def fileName? (path : String) : Option (List Char) :=
  match dropVoid (isAbsolute path.toList) (parts path.toList).reverse with
  | [] => none
  | part :: _ => if part = ['.'] ∨ part = ['.', '.'] then none else some part

/-- What follows the last dot of the file name; a dot in front of the whole name does not
count. -/
def extension? (path : String) : Option (List Char) := do
  let name ← fileName? path
  let (stem, extension) ← Text.splitLast '.' name
  if stem.isEmpty then none else some extension

/-- Whether a path ends in an extension, in any ASCII case. -/
def hasExtension (extension path : String) : Bool :=
  ((extension? path).map (Text.equalIgnoringCase · extension.toList)).getD false

end Sprocket.Files.Path
