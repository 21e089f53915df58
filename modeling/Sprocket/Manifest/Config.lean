import Sprocket.Text.Blank

/-!
# Manifests

A manifest declares groups of procedures. Each group names the database to resolve against, the
files to write, and its procedures in order.
-/

namespace Sprocket

/-- A declared procedure. -/
structure Declaration where
  name : String
  method : Option String
  returns : Option String
  comments : Option String
  trial : List String
  deriving DecidableEq, Repr

/-- Where a connection string comes from: written out, or held by an environment variable. -/
structure DatabaseConfig where
  url : Option String
  env : Option String
  deriving DecidableEq, Repr

/-- The files of a group; host code is always written, the others where a path is given. -/
structure OutputConfig where
  host : String
  typings : Option String
  camelCase : Bool
  bindings : Option String
  deriving DecidableEq, Repr

/-- One group of procedures. -/
structure ContextConfig where
  name : String
  namespaceName : String
  database : DatabaseConfig
  output : OutputConfig
  procedures : List Declaration
  deriving DecidableEq, Repr

/-- The groups of a manifest, in order. -/
structure Manifest where
  contexts : List ContextConfig
  deriving DecidableEq, Repr

/-- The one source of a connection string. -/
inductive ConnectionSource where
  | url (text : String)
  | env (key : String)
  deriving DecidableEq, Repr

namespace Declaration

/-- The name of the generated method: as given, or else the name of the procedure. -/
def methodName (d : Declaration) : String := d.method.getD d.name

/-- Whether the procedure is tried with sample arguments. -/
def isTrial (d : Declaration) : Bool := !d.trial.isEmpty

/-- The doc comment: the trimmed comments, if they are not blank. -/
def doc (d : Declaration) : Option String :=
  (d.comments.map Text.strip).filter (· != "")

end Declaration

namespace DatabaseConfig

/-- The source of the connection string, if exactly one is set. -/
def source? (d : DatabaseConfig) : Option ConnectionSource :=
  match d.url, d.env with
  | some url, none => some (.url url)
  | none, some key => some (.env key)
  | _, _ => none

/-- The text for a database without exactly one source. -/
def sourceRule : String := "database must set exactly one of 'url' or 'env'"

end DatabaseConfig

namespace Manifest

/-- The group of a given name. -/
def context? (m : Manifest) (name : String) : Option ContextConfig :=
  m.contexts.find? (·.name == name)

/-- The names of the groups, in order. -/
def contextNames (m : Manifest) : List String := m.contexts.map (·.name)

end Manifest

end Sprocket
