import Sprocket.Files.Path
import Sprocket.Manifest.Read

/-!
# Manifest files

A manifest together with the file it was read from. The outputs of a manifest are named relative to
the directory of its file.
-/

namespace Sprocket

/-- A manifest with the path and the text of its file. -/
structure ManifestFile where
  path : String
  source : String
  manifest : Manifest
  deriving DecidableEq, Repr

namespace ManifestFile

/-- Reads the manifest in a file, given the content of the file if it could be read. -/
def ofContent (path : String) : Option String → Except Problem ManifestFile
  | none => .error ⟨path, .unreadable⟩
  | some source => (Manifest.read source path).map (ManifestFile.mk path source)

/-- The directory the outputs of a manifest are named relative to. -/
def root (f : ManifestFile) : String := (Files.Path.parent? f.path).getD "."

end ManifestFile

end Sprocket
