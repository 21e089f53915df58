import Sprocket.Artifact.Bindings
import Sprocket.Artifact.CSharp
import Sprocket.Artifact.Typings
import Sprocket.Files.Path
import Sprocket.Manifest.Config
import Sprocket.Trace

/-!
# Artifacts

The files a context is written to. Host code is always written; typings and bindings are written
where the manifest gives a path, in this order. A path that does not end in the extension of its
backend is written all the same, with a warning.
-/

namespace Sprocket

/-- What writes one kind of artifact. -/
inductive Backend where
  | csharp | typescript | angular
  deriving DecidableEq, Repr

/-- A rendered file. -/
structure Artifact where
  backend : Backend
  path : String
  content : String
  deriving DecidableEq, Repr

/-- A context that a backend cannot render. -/
structure RenderError where
  backend : Backend
  context : String
  error : EmitError
  deriving DecidableEq, Repr

/-- A path without the extension of its backend. -/
structure ExtensionWarning where
  backend : Backend
  path : String
  deriving DecidableEq, Repr

namespace Backend

/-- Every backend, in the order artifacts are written. -/
def all : List Backend := [csharp, typescript, angular]

/-- The name of a backend in reports. -/
def name : Backend → String
  | csharp => "csharp"
  | typescript => "typescript"
  | angular => "angular"

/-- The file extension of a backend's artifacts. -/
def extension : Backend → String
  | csharp => "cs"
  | typescript => "ts"
  | angular => "html"

/-- Whether a path ends in the extension of a backend. -/
def accepts (b : Backend) (path : String) : Bool := Files.Path.hasExtension b.extension path

/-- The text of a context; the casing flag is for client code only. -/
def render (b : Backend) (camel : Bool) (c : Context) : Except EmitError String :=
  match b with
  | csharp => CSharp.render c
  | typescript => Typings.render camel c
  | angular => Bindings.render camel c

end Backend

/-- The text of a warning about an extension. -/
def ExtensionWarning.message (w : ExtensionWarning) : String :=
  w.backend.name ++ " output '" ++ w.path ++ "' does not end in ." ++ w.backend.extension

/-- The text of a render error. -/
def RenderError.message (e : RenderError) : String :=
  e.backend.name ++ " backend failed for '" ++ e.context ++ "'"

namespace Artifact

/-- A rendering, or a part of one. -/
abbrev Run (α : Type) : Type := Trace ExtensionWarning RenderError α

/-- Renders one artifact. -/
def render (c : Context) (camel : Bool) (b : Backend) (path : String) : Run Artifact :=
  ⟨if b.accepts path then [] else [⟨b, path⟩],
    match b.render camel c with
    | .ok content => .ok ⟨b, path, content⟩
    | .error e => .error ⟨b, c.name, e⟩⟩

/-- Renders the artifacts of a context: host code always, typings and bindings where a path is given
for them. Paths are taken relative to `root`. -/
def renderAll (c : Context) (output : OutputConfig) (root : String) : Run (List Artifact) := do
  let host ← render c output.camelCase .csharp (Files.Path.join root output.host)
  let typings ← output.typings.mapM fun path =>
    render c output.camelCase .typescript (Files.Path.join root path)
  let bindings ← output.bindings.mapM fun path =>
    render c output.camelCase .angular (Files.Path.join root path)
  pure (host :: (typings.toList ++ bindings.toList))

end Artifact

end Sprocket
