import Sprocket.Resolution.Error
import Sprocket.Trial.Argument
import Sprocket.Trial.Value

/-!
# Trial bindings

A trial argument bound to a parameter: its name as written, the types its token stands for, and
the converted value. A list of expressions is bound in order, and the first one that cannot be
bound decides the error.
-/

namespace Sprocket

/-- A sample value ready to be sent; the name keeps its marks. -/
structure TrialBinding where
  name : String
  type : TokenType
  value : TrialValue
  deriving DecidableEq, Repr

namespace TrialBinding

/-- Binds a parsed argument. -/
def ofArgument (a : TrialArgument) : Except ResolutionCause TrialBinding :=
  match TokenType.ofToken a.effectiveToken with
  | .error e => .error (.typeMapping e)
  | .ok type =>
    match TrialValue.convert a.literal type.host with
    | none => .error (.unconvertible a.name a.literal type.host)
    | some value => .ok ⟨a.name, type, value⟩

/-- Binds one expression. -/
def ofExpression (expression : String) : Except ResolutionCause TrialBinding :=
  match TrialArgument.parse expression with
  | .error reason => .error (.malformedArgument expression reason)
  | .ok a => ofArgument a

/-- Binds the expressions of a procedure, in order. -/
def bindAll (procedure : String) : List String → Except ResolutionError (List TrialBinding)
  | [] => .ok []
  | expression :: rest =>
    match ofExpression expression with
    | .error cause => .error ⟨procedure, cause⟩
    | .ok binding =>
      match bindAll procedure rest with
      | .error e => .error e
      | .ok bindings => .ok (binding :: bindings)

end TrialBinding

end Sprocket
