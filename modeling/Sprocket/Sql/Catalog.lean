import Sprocket.Remote
import Sprocket.Text.Ascii

/-!
# The catalog of a PostgreSQL server

The queries that find a routine and its parameters, and the reading of their rows.
-/

namespace Sprocket.Sql

/-- Finds the routine a name refers to; `$2` is the schema, or null to search the current path. -/
def findRoutine : String :=
  "SELECT r.specific_schema::text, r.specific_name::text, r.routine_type::text\n"
    ++ "FROM information_schema.routines r\n"
    ++ "WHERE r.routine_name::text = $1::text\n"
    ++ "  AND r.routine_type IS NOT NULL\n"
    ++ "  AND (($2::text IS NULL AND r.routine_schema::name = ANY (current_schemas(false)))\n"
    ++ "       OR r.routine_schema::text = $2::text)\n"
    ++ "ORDER BY array_position(current_schemas(false), r.routine_schema::name), "
    ++ "r.specific_name::text\n"
    ++ "LIMIT 1"

/-- The input parameters of one routine, in the order they were declared. -/
def routineParameters : String :=
  "SELECT p.ordinal_position::int4, p.parameter_name::text, p.data_type::text, p.udt_name::text\n"
    ++ "FROM information_schema.parameters p\n"
    ++ "WHERE p.specific_schema::text = $1::text\n"
    ++ "  AND p.specific_name::text = $2::text\n"
    ++ "  AND p.parameter_mode::text IN ('IN', 'INOUT')\n"
    ++ "ORDER BY p.ordinal_position"

/-- How a routine is called. -/
inductive RoutineKind where
  | function | procedure
  deriving DecidableEq, Repr

/-- The kind that a routine type stands for; other types cannot be called. -/
def RoutineKind.ofType? (type : Option String) : Option RoutineKind :=
  type.bind fun t =>
    if Text.equalIgnoringCase t.toList "PROCEDURE".toList then some .procedure
    else if Text.equalIgnoringCase t.toList "FUNCTION".toList then some .function
    else none

/-- A parameter without a type. -/
structure UntypedParameter where
  position : Int
  deriving DecidableEq, Repr

/-- The text for a parameter without a type. -/
def UntypedParameter.message (e : UntypedParameter) : String :=
  "parameter " ++ Number.displayInt e.position ++ " has no data type"

/-- Whether a data type only says that the real type has a name of its own. -/
def isGeneric (dataType : String) : Bool := dataType == "USER-DEFINED" || dataType == "ARRAY"

/-- The parameter of one catalog row. One without a name is called after its position. -/
def parameterColumn (position : Int) (name dataType udtName : Option String) :
    Except UntypedParameter WireColumn :=
  match dataType with
  | none => .error ⟨position⟩
  | some type =>
    .ok ⟨name.getD ("arg" ++ Number.displayInt position),
      if isGeneric type then udtName.getD type else type⟩

/-- The result sets that the columns of a statement stand for. No columns, or the one column of a
function that returns nothing, are no result set. -/
def resultSets (columns : List WireColumn) : List (List WireColumn) :=
  match columns with
  | [] => []
  | [only] => if only.wireType = "void" then [] else [columns]
  | _ => [columns]

end Sprocket.Sql
