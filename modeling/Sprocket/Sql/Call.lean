import Sprocket.Naming
import Sprocket.Sql.Catalog
import Sprocket.Sql.Name

/-!
# Calls in SQL

The statement that calls a routine with named arguments. Every argument is sent as text under a
numbered placeholder and cast by the server to the type it is bound with.
-/

namespace Sprocket

/-- The type a text argument is cast to. -/
def BindType.castName : BindType → String
  | bigInt => "bigint"
  | binary => "bytea"
  | bit => "boolean"
  | text => "text"
  | dateTime => "timestamp"
  | dateTimeOffset => "timestamptz"
  | decimal => "numeric"
  | float => "double precision"
  | int => "integer"
  | real => "real"
  | smallInt => "smallint"
  | tinyInt => "smallint"
  | time => "interval"
  | uniqueIdentifier => "uuid"
  | xml => "xml"

namespace Sql

/-- The words a call begins with. -/
def RoutineKind.opening : RoutineKind → String
  | function => "SELECT * FROM "
  | procedure => "CALL "

/-- The routine that is called. -/
def target (schema : Option String) (name : String) : String :=
  match schema with
  | some schema => quote schema ++ "." ++ quote name
  | none => quote name

/-- One argument under its placeholder. -/
def argument (number : Nat) (binding : TrialBinding) : String :=
  quote (Naming.field binding.name) ++ " => ($" ++ toString number ++ "::text)::"
    ++ binding.type.bind.castName

/-- The arguments from a given number on. -/
def argumentsFrom : Nat → List TrialBinding → List String
  | _, [] => []
  | number, binding :: rest => argument number binding :: argumentsFrom (number + 1) rest

/-- The statement that calls a routine. -/
def call (schema : Option String) (name : String) (kind : RoutineKind)
    (bindings : List TrialBinding) : String :=
  kind.opening ++ target schema name ++ "(" ++ ", ".intercalate (argumentsFrom 1 bindings) ++ ")"

end Sql

end Sprocket
