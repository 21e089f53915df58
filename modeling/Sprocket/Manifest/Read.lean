import Sprocket.Manifest.Validate
import Sprocket.Toml.Document

/-!
# Reading manifests

From the text of a file to a manifest that keeps every rule.
-/

namespace Sprocket.Manifest

/-- Reads a manifest; the problem does not name the file yet. -/
def readCause (source : String) : Except ProblemCause Manifest :=
  match Toml.read? source with
  | none => .error .malformed
  | some entries =>
    match Manifest.ofEntries entries with
    | .error e => .error (.undecodable e)
    | .ok m =>
      match m.validate source with
      | .error e => .error e
      | .ok () => .ok m

/-- Reads the manifest in a file of a given name. -/
def read (source file : String) : Except Problem Manifest :=
  (readCause source).mapError (Problem.mk file)

end Sprocket.Manifest
