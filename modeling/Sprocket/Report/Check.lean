import Sprocket.Artifact.Backend
import Sprocket.Report.Line
import Sprocket.Text.Split

/-!
# The check report

What a manifest will generate, told without a database: each group with its database, its outputs
and its procedures. Credentials in the address of a database are hidden.
-/

namespace Sprocket

namespace Check

/-- How the shape of a procedure will be found. -/
inductive Plan where
  | trial (arguments : Nat)
  | scalar (token : String)
  | affectedCount
  deriving DecidableEq, Repr

/-- The words for a plan. -/
def Plan.words : Plan → String
  | trial arguments => "trial with " ++ toString arguments ++ " argument(s)"
  | scalar token => "scalar " ++ token
  | affectedCount => "affected count"

/-- The plan for a declaration. -/
def plan (d : Declaration) : Plan :=
  if d.isTrial then .trial d.trial.length
  else
    match d.returns with
    | some token => .scalar token
    | none => .affectedCount

/-- An address without its credentials: what stands between the scheme and the last `@`. -/
def redact (url : String) : String :=
  match Text.splitAtText "://".toList url.toList with
  | none => url
  | some (scheme, rest) =>
    match Text.splitLast '@' rest with
    | none => url
    | some (_, host) => String.ofList (scheme ++ "://***@".toList ++ host)

/-- The database of a group as it may be shown. -/
def databaseText (d : DatabaseConfig) : String :=
  match d.source? with
  | some (.url url) => redact url
  | some (.env key) => "$" ++ key
  | none => DatabaseConfig.sourceRule

/-- The warning about a declaration whose return type has no effect. -/
def warning? (context : String) (d : Declaration) : Option String :=
  if d.isTrial && d.returns.isSome then
    some ("'" ++ d.name ++ "' in context '" ++ context
      ++ "' sets both 'trial' and 'returns'; 'returns' is ignored")
  else none

/-- The warnings about a group. -/
def contextWarnings (config : ContextConfig) : List String :=
  config.procedures.filterMap (warning? config.name)

/-- The warnings about a manifest. -/
def warnings (m : Manifest) : List String := m.contexts.flatMap contextWarnings

/-- What is said of a declaration: its two names, and how its shape will be found. -/
structure Entry where
  procedure : String
  method : String
  resolution : String
  deriving DecidableEq, Repr

/-- What is said of a group. An output is told by its kind and its path. -/
structure Summary where
  name : String
  namespaceName : String
  database : String
  outputs : List (String × String)
  entries : List Entry
  deriving DecidableEq, Repr

/-- The entry of a declaration. -/
def entry (d : Declaration) : Entry := ⟨d.name, d.methodName, (plan d).words⟩

/-- The outputs of a group: host code, and typings and bindings where a path is given for them. -/
def outputs (o : OutputConfig) : List (String × String) :=
  ("host", o.host) ::
    ((o.typings.toList.map fun path => ("typings", path)) ++
      o.bindings.toList.map fun path => ("bindings", path))

/-- The summary of a group. -/
def summary (config : ContextConfig) : Summary where
  name := config.name
  namespaceName := config.namespaceName
  database := databaseText config.database
  outputs := outputs config.output
  entries := config.procedures.map entry

/-- The line of an entry. -/
def Entry.line (e : Entry) : ReportLine :=
  let names := if e.method = e.procedure then e.method else e.procedure ++ " -> " ++ e.method
  .listItem (names ++ " (" ++ e.resolution ++ ")")

/-- The number of methods in words. -/
def methodCount (n : Nat) : String :=
  toString n ++ " method" ++ (if n = 1 then "" else "s")

/-- The lines of a summary. -/
def Summary.lines (s : Summary) : List ReportLine :=
  [.newline, .heading (s.name ++ " (" ++ s.namespaceName ++ ")"), .keyValue "database" s.database]
    ++ s.outputs.map (fun output => .keyValue output.1 output.2)
    ++ [.keyValue "procedures" (methodCount s.entries.length)]
    ++ s.entries.map Entry.line

/-- The report on a manifest at a path. -/
def report (m : Manifest) (path : String) : List ReportLine :=
  (warnings m).map .warning ++ [.success (path ++ " is valid")]
    ++ (m.contexts.map summary).flatMap Summary.lines

end Check

end Sprocket
