import Sprocket.HostType
import Sprocket.Naming

/-!
# Methods and contexts

A context is what a group of procedures looks like once everything about them is known: one method
per procedure, with its parameters and what it returns. Backends read contexts and nothing else.
-/

namespace Sprocket

/-- A parameter under its remote name, marks included. -/
structure Parameter where
  name : String
  type : HostType
  deriving DecidableEq, Repr

/-- The identifier of a parameter in host code. -/
def Parameter.fieldName (p : Parameter) : String := Naming.field p.name

/-- A column of a result. -/
structure ResultColumn where
  name : String
  type : HostType
  deriving DecidableEq, Repr

/-- What a method returns: rows of two or more columns, one value, or the number of rows it
affected. -/
inductive ReturnShape where
  | rowSequence (columns : List ResultColumn)
  | scalar (type : HostType)
  | affectedCount
  deriving DecidableEq, Repr

/-- A return shape without its types. -/
inductive ShapeKind where
  | rowSequence | scalar | affectedCount
  deriving DecidableEq, Repr

namespace ReturnShape

/-- The kind of a shape. -/
def kind : ReturnShape → ShapeKind
  | rowSequence _ => .rowSequence
  | scalar _ => .scalar
  | affectedCount => .affectedCount

/-- The number of columns a call of this shape reports. -/
def width : ReturnShape → Nat
  | rowSequence columns => columns.length
  | scalar _ => 1
  | affectedCount => 0

/-- The type of a single value. -/
def scalarType? : ReturnShape → Option HostType
  | scalar type => some type
  | _ => none

/-- The columns of rows. -/
def columns : ReturnShape → List ResultColumn
  | rowSequence columns => columns
  | _ => []

end ReturnShape

/-- The words for a kind of shape. -/
def ShapeKind.words : ShapeKind → String
  | rowSequence => "row sequence"
  | scalar => "scalar"
  | affectedCount => "affected count"

/-- A generated callable for one remote procedure. `Method.make` is the way to build one. -/
structure Method where
  name : String
  procedure : String
  parameters : List Parameter
  shape : ReturnShape
  doc : Option String
  deriving DecidableEq, Repr

/-- Why a method cannot be built. -/
inductive MethodError where
  | tooFewColumns (method : String) (columns : Nat)
  | emptyMethodName (procedure : String)
  | emptyProcedureName (method : String)
  deriving DecidableEq, Repr

/-- The text of a method error. -/
def MethodError.message : MethodError → String
  | tooFewColumns method columns =>
    "method '" ++ method ++ "' returns rows but only " ++ toString columns
      ++ " result column(s) were given"
  | emptyMethodName procedure =>
    "method name must not be empty (procedure '" ++ procedure ++ "')"
  | emptyProcedureName method =>
    "procedure name must not be empty (method '" ++ method ++ "')"

namespace Method

/-- A method with two names that are not empty and, if it returns rows, at least two columns. -/
def make (name procedure : String) (parameters : List Parameter) (shape : ReturnShape)
    (doc : Option String) : Except MethodError Method :=
  if name = "" then .error (.emptyMethodName procedure)
  else if procedure = "" then .error (.emptyProcedureName name)
  else
    match shape with
    | .rowSequence columns =>
      if columns.length < 2 then .error (.tooFewColumns name columns.length)
      else .ok ⟨name, procedure, parameters, shape, doc⟩
    | _ => .ok ⟨name, procedure, parameters, shape, doc⟩

end Method

/-- The resolved methods of one group, in the order they were declared. -/
structure Context where
  namespaceName : String
  name : String
  methods : List Method
  deriving DecidableEq, Repr

end Sprocket
