import Sprocket.Manifest.Config
import Sprocket.Progress
import Sprocket.Resolution.Resolve

/-!
# Building contexts

A group of declarations becomes a context by resolving its procedures one after another, in order.
The first one that cannot be resolved ends the build, and no part of a context is returned. The
shape comes first: by trial where sample arguments are declared, otherwise from the declared return
type alone; the parameters are then introspected under the name of the procedure.
-/

namespace Sprocket

/-- A setting that is missing or cannot be used. -/
inductive ConfigurationError where
  | blankContextName
  | blankNamespace (context : String)
  | blankProcedureName (number : Nat) (context : String)
  | databaseSource (context : String)
  | variableNotSet (context key : String)
  deriving DecidableEq, Repr

/-- The text of a configuration error. -/
def ConfigurationError.message : ConfigurationError → String
  | blankContextName => "context: required field 'name' is missing"
  | blankNamespace context =>
    "context '" ++ context ++ "': required field 'namespace' is missing"
  | blankProcedureName number context =>
    "procedure #" ++ toString number ++ " of context '" ++ context
      ++ "': required field 'name' is missing"
  | databaseSource context => "context '" ++ context ++ "': " ++ DatabaseConfig.sourceRule
  | variableNotSet context key =>
    "context '" ++ context ++ "': environment variable '" ++ key ++ "' is not set"

/-- Why a context cannot be built. -/
inductive BuildError where
  | configuration (error : ConfigurationError)
  | returnType (procedure : String) (error : TypeError)
  | resolution (error : ResolutionError)
  | method (error : MethodError)
  deriving DecidableEq, Repr

namespace BuildError

/-- The text of a build error. -/
def message : BuildError → String
  | configuration e => e.message
  | returnType procedure e => "procedure '" ++ procedure ++ "': " ++ e.message
  | resolution e => e.message
  | method e => e.message

/-- The texts of the errors a build error rests on. -/
def sources : BuildError → List String
  | returnType _ e => [e.message]
  | resolution e => e.sources
  | _ => []

end BuildError

/-- What can be seen of a build from outside. -/
inductive BuildEvent where
  | progress (step : Progress)
  | session (event : SessionEvent)
  | returnsIgnored (procedure : String)
  deriving DecidableEq, Repr

namespace BuildEvent

/-- The step an event announces. -/
def progress? : BuildEvent → Option Progress
  | progress step => some step
  | _ => none

/-- What an event does with the remote system. -/
def session? : BuildEvent → Option SessionEvent
  | session event => some event
  | _ => none

/-- The procedure whose declared return type an event calls ignored. -/
def ignored? : BuildEvent → Option String
  | returnsIgnored procedure => some procedure
  | _ => none

/-- The warning about a return type next to sample arguments. -/
def ignoredText : String := "'returns' is ignored for procedures with trial arguments"

end BuildEvent

namespace Build

/-- A build, or a part of one. -/
abbrev Run (α : Type) : Type := Trace BuildEvent BuildError α

/-- Announces a step. -/
def announce (step : Progress) : Run Unit := .tell (.progress step)

/-- A resolution as part of a build. -/
def resolving {α : Type} (t : Trace SessionEvent ResolutionError α) : Run α :=
  t.relabel .session .resolution

/-- The shape of a procedure found by calling it with its sample arguments. -/
def shapeByTrial (r : Remote) (d : Declaration) : Run ReturnShape := do
  if d.returns.isSome then Trace.tell (.returnsIgnored d.name)
  let bindings ← resolving (.ofExcept (TrialBinding.bindAll d.name d.trial))
  announce (.trialExecuting d.name bindings.length)
  resolving (Resolution.shapeOf r d.name bindings)

/-- The shape a declaration states. -/
def shapeByDeclaration (d : Declaration) : Except BuildError ReturnShape :=
  match d.returns with
  | none => .ok .affectedCount
  | some token =>
    match TokenType.ofToken token with
    | .ok type => .ok (.scalar type.host)
    | .error e => .error (.returnType d.name e)

/-- The shape of a declared procedure. -/
def shape (r : Remote) (d : Declaration) : Run ReturnShape :=
  if d.isTrial then shapeByTrial r d else .ofExcept (shapeByDeclaration d)

/-- The method of a declared procedure. -/
def method (r : Remote) (d : Declaration) : Run Method := do
  announce (.procedureStarted d.name d.methodName)
  let shape ← shape r d
  announce (.shapeResolved d.name shape.kind shape.width d.isTrial)
  announce (.introspectingParameters d.name)
  let parameters ← resolving (Resolution.parameters r d.name)
  announce (.parametersResolved d.name parameters.length)
  let method ← Trace.ofExcept ((Method.make d.methodName d.name parameters shape d.doc).mapError
    .method)
  announce (.procedureDone d.name)
  pure method

/-- The methods of declarations, of which `number` counts from one within the group. -/
def methods (r : Remote) (context : String) : Nat → List Declaration → Run (List Method)
  | _, [] => pure []
  | number, d :: rest => do
    if Text.allBlank d.name then
      Trace.fail (.configuration (.blankProcedureName number context))
    let first ← method r d
    let others ← methods r context (number + 1) rest
    pure (first :: others)

/-- The context of a group. -/
def context (r : Remote) (config : ContextConfig) : Run Context := do
  if Text.allBlank config.name then
    Trace.fail (.configuration .blankContextName)
  if Text.allBlank config.namespaceName then
    Trace.fail (.configuration (.blankNamespace config.name))
  announce (.contextStarted config.name config.procedures.length)
  let methods ← methods r config.name 1 config.procedures
  announce (.contextDone config.name methods.length)
  pure ⟨config.namespaceName, config.name, methods⟩

end Build

/-- The connection string of a group, given the environment; a variable that is blank counts as
unset. -/
def ContextConfig.connectionString (config : ContextConfig)
    (environment : String → Option String) : Except ConfigurationError String :=
  match config.database.source? with
  | none => .error (.databaseSource config.name)
  | some (.url url) => .ok url
  | some (.env key) =>
    match (environment key).filter (!Text.allBlank ·) with
    | some text => .ok text
    | none => .error (.variableNotSet config.name key)

end Sprocket
