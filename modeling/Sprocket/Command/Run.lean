import Sprocket.Command.Arguments
import Sprocket.Command.Outcome
import Sprocket.Command.Starter
import Sprocket.Command.Workspace
import Sprocket.Json
import Sprocket.Manifest.File
import Sprocket.Report.Check
import Sprocket.Report.Generation

/-!
# Running commands

`init` writes a starter manifest, `check` tells what a manifest will generate, and `generate`
generates it. `generate` writes nothing before every group has been resolved and rendered.
-/

namespace Sprocket.Command

variable {m : Type → Type} [Monad m]

/-- The name and the version of the program. -/
def versionLine : String := "dataflip 0.3.0"

/-- The causes of a file that cannot be written. -/
def writeFailure (path cause : String) : List String := ["Failed to write " ++ path, cause]

/-- Writes the starter manifest. -/
def writeStarter (w : Workspace m) (path : String) : m Outcome := do
  match ← w.write path starterManifest with
  | some cause => return .failed (writeFailure path cause)
  | none =>
    return .reported
      [.success ("Created " ++ path),
        .preformatted "Edit the connection and procedures, then run 'dataflip generate'."]

/-- Runs `init`: a file that is there already is overwritten only by force or on demand. -/
def runInit (w : Workspace m) (r : InitRequest) : m Outcome := do
  let present ← w.contains r.output
  if !present || r.force then writeStarter w r.output
  else
    match ← w.confirm r.output with
    | .error causes => return .failed ("Failed to get confirmation" :: causes)
    | .ok true => writeStarter w r.output
    | .ok false => return .reported [.warning (r.output ++ " already exists, left unchanged")]

/-- Opens the manifest at a path. -/
def openManifest (w : Workspace m) (path : String) : m (Except Problem ManifestFile) := do
  return ManifestFile.ofContent path (← w.read path)

/-- Runs `check`. -/
def runCheck (w : Workspace m) (r : CheckRequest) : m Outcome := do
  match ← openManifest w r.config with
  | .error problem => return .rejected problem
  | .ok file => return .reported (Check.report file.manifest r.config)

/-- The variables that hold the connection strings of groups. -/
def environmentKeys (configs : List ContextConfig) : List String :=
  configs.filterMap fun config => config.database.env

/-- The values of variables; one that is not set has none. -/
def readEnvironment (w : Workspace m) (keys : List String) : m (List (String × String)) := do
  let values ← keys.mapM fun key => do return (← w.environment key).map fun value => (key, value)
  return values.filterMap id

/-- Writes artifacts, in order, up to the first that cannot be written, whose causes are given. -/
def writeArtifacts (w : Workspace m) : List Artifact → m (Option (List String))
  | [] => pure none
  | a :: rest => do
    match ← w.write a.path a.content with
    | some cause => return some (writeFailure a.path cause)
    | none => writeArtifacts w rest

/-- The text of a warning in the log, with the procedure it is about. -/
def remark : String × Option String → String
  | (message, none) => message
  | (message, some procedure) => message ++ " procedure=" ++ procedure

/-- The outcome of a part of a run that failed, or of what comes after it; what was announced before
is told in either case. -/
def follow {α : Type} (config : String) (t : Generation.Run α) (next : α → m Outcome) :
    m Outcome := do
  let notices := (GenerationEvent.steps t.events).map Progress.terminalLine
  let remarks := (GenerationEvent.warnings t.events).map remark
  match t.result with
  | .error e => return (Outcome.failed (e.chain config)).after notices remarks
  | .ok a => return (← next a).after notices remarks

/-- Renders the contexts of a run and writes them, unless the run is a dry one. -/
def deliver (w : Workspace m) (r : GenerateRequest) (root : String)
    (resolved : List ResolvedContext) : m Outcome :=
  follow r.config (Generation.renderAll root resolved) fun contexts => do
    let failure ←
      if r.dryRun then pure none else writeArtifacts w (Generated.allArtifacts contexts)
    match failure with
    | some chain => return .failed chain
    | none => return .reported (Generated.report contexts r.dryRun)

/-- The dump of contexts. -/
def dump (resolved : List ResolvedContext) : Outcome :=
  .printed [(Json.array (resolved.map fun r => r.context.toJson)).pretty 0]

/-- Runs `generate`. -/
def runGenerate (w : Workspace m) (r : GenerateRequest) : m Outcome := do
  match ← openManifest w r.config with
  | .error problem => return .rejected problem
  | .ok file =>
    match Generation.select file.manifest r.context with
    | .error e => return .failed (e.chain r.config)
    | .ok configs =>
      let environment ← readEnvironment w (environmentKeys configs)
      let surroundings := ⟨fun key => environment.lookup key, w.remote⟩
      follow r.config (Generation.resolveAll surroundings configs) fun resolved =>
        if r.dumpContexts then pure (dump resolved) else deliver w r file.root resolved

/-- Runs what a command line asks for. -/
def run (w : Workspace m) (arguments : List String) : m Outcome :=
  match Request.ofArguments arguments with
  | none => pure ⟨[], [], [], .misused⟩
  | some .help => pure (.printed [])
  | some .version => pure (.printed [versionLine])
  | some (.init r) => runInit w r
  | some (.check r) => runCheck w r
  | some (.generate r) => runGenerate w r

/-- Runs a command line on a tree of files in memory. -/
def runOnTree (environment : String → Option String) (remote : String → Remote)
    (tree : Files.Tree) (arguments : List String) : Outcome × Files.Tree :=
  (run (.ofTree environment remote) arguments).run tree

end Sprocket.Command
