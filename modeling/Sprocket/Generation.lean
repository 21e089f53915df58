import Sprocket.Artifact.Backend
import Sprocket.Build

/-!
# Generation

From a manifest to artifacts. The groups are resolved one after another, each against the remote
system its connection string leads to; only when all of them are resolved is anything rendered. The
first thing that fails ends the run.
-/

namespace Sprocket

/-- Why nothing is generated. -/
inductive GenerationError where
  | unknownContext (name : String) (available : List String)
  | configuration (error : ConfigurationError)
  | build (context : String) (error : BuildError)
  | render (error : RenderError)
  deriving DecidableEq, Repr

/-- What can be seen of a generation before anything is written. -/
inductive GenerationEvent where
  | build (event : BuildEvent)
  | extension (warning : ExtensionWarning)
  deriving DecidableEq, Repr

/-- A context with the group it was built from. -/
structure ResolvedContext where
  config : ContextConfig
  context : Context
  deriving DecidableEq, Repr

/-- The artifacts of a context. -/
structure Generated where
  name : String
  methods : Nat
  artifacts : List Artifact
  deriving DecidableEq, Repr

namespace GenerationError

/-- The texts of an error and of those it rests on, the outermost first. A name that no group has
is told together with the manifest it was looked up in. -/
def chain (manifest : String) : GenerationError → List String
  | unknownContext name available =>
    ["No context named '" ++ name ++ "' in " ++ manifest ++ " (available: "
      ++ ", ".intercalate available ++ ")"]
  | configuration e => [e.message]
  | build context e =>
    ("Failed to build context '" ++ context ++ "'") :: e.message :: e.sources
  | render e => [e.message, e.error.message]

end GenerationError

namespace GenerationEvent

/-- The build event in a generation event. -/
def build? : GenerationEvent → Option BuildEvent
  | build event => some event
  | _ => none

/-- The steps announced, in order. -/
def steps (events : List GenerationEvent) : List Progress :=
  (events.filterMap build?).filterMap BuildEvent.progress?

/-- What was done with remote systems, in order. -/
def sessions (events : List GenerationEvent) : List SessionEvent :=
  (events.filterMap build?).filterMap BuildEvent.session?

/-- The text of a warning, with the procedure it is about, if the event is one. -/
def warning? : GenerationEvent → Option (String × Option String)
  | build (.returnsIgnored procedure) => some (BuildEvent.ignoredText, some procedure)
  | build _ => none
  | extension w => some (w.message, none)

/-- The warnings, in order. -/
def warnings (events : List GenerationEvent) : List (String × Option String) :=
  events.filterMap warning?

end GenerationEvent

namespace Generation

/-- A generation, or a part of one. -/
abbrev Run (α : Type) : Type := Trace GenerationEvent GenerationError α

/-- Where connection strings and remote systems come from. -/
structure Surroundings where
  environment : String → Option String
  remote : String → Remote

/-- The groups a run is about: the one that is named, or all of them. -/
def select (m : Manifest) : Option String → Except GenerationError (List ContextConfig)
  | none => .ok m.contexts
  | some name =>
    match m.context? name with
    | some config => .ok [config]
    | none => .error (.unknownContext name m.contextNames)

/-- Resolves one group. -/
def resolve (s : Surroundings) (config : ContextConfig) : Run ResolvedContext :=
  match config.connectionString s.environment with
  | .error e => .fail (.configuration e)
  | .ok text =>
    ((Build.context (s.remote text) config).relabel .build (.build config.name)).andThen
      fun context => pure ⟨config, context⟩

/-- Resolves groups, in order. -/
def resolveAll (s : Surroundings) : List ContextConfig → Run (List ResolvedContext)
  | [] => pure []
  | config :: rest => do
    let first ← resolve s config
    let others ← resolveAll s rest
    pure (first :: others)

/-- Renders one context. -/
def render (root : String) (r : ResolvedContext) : Run Generated :=
  ((Artifact.renderAll r.context r.config.output root).relabel .extension .render).andThen
    fun artifacts => pure ⟨r.context.name, r.context.methods.length, artifacts⟩

/-- Renders contexts, in order. -/
def renderAll (root : String) : List ResolvedContext → Run (List Generated)
  | [] => pure []
  | r :: rest => do
    let first ← render root r
    let others ← renderAll root rest
    pure (first :: others)

/-- Resolves groups and renders them. -/
def generate (s : Surroundings) (root : String) (configs : List ContextConfig) :
    Run (List ResolvedContext × List Generated) := do
  let resolved ← resolveAll s configs
  let generated ← renderAll root resolved
  pure (resolved, generated)

end Generation

/-- The artifacts of a run, in the order they are written. -/
def Generated.allArtifacts (contexts : List Generated) : List Artifact :=
  contexts.flatMap fun c => c.artifacts

end Sprocket
