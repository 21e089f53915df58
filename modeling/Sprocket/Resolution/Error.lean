import Sprocket.Trial.Argument
import Sprocket.WireType

/-!
# Resolution errors

What can go wrong between a declared procedure and its resolved parameters and shape. Every such
error names the procedure it belongs to.
-/

namespace Sprocket

/-- What went wrong while a procedure was resolved. -/
inductive ResolutionCause where
  | typeMapping (error : TypeError)
  | connection (message : String)
  | procedureNotFound
  | introspection (message : String)
  | trialExecution (message : String)
  | malformedArgument (expression : String) (reason : ArgumentError)
  | unconvertible (parameter value : String) (host : HostType)
  deriving DecidableEq, Repr

/-- A failed resolution: the procedure and the cause. -/
structure ResolutionError where
  procedure : String
  cause : ResolutionCause
  deriving DecidableEq, Repr

namespace ResolutionError

/-- The text of a resolution error. -/
def message (e : ResolutionError) : String :=
  match e.cause with
  | .typeMapping inner => "procedure '" ++ e.procedure ++ "': " ++ inner.message
  | .connection text =>
    "could not connect to the database while resolving '" ++ e.procedure ++ "': " ++ text
  | .procedureNotFound => "procedure '" ++ e.procedure ++ "' was not found"
  | .introspection text =>
    "failed to introspect the parameters of '" ++ e.procedure ++ "': " ++ text
  | .trialExecution text => "trial execution of '" ++ e.procedure ++ "' failed: " ++ text
  | .malformedArgument expression reason =>
    "procedure '" ++ e.procedure ++ "': malformed trial argument '" ++ expression ++ "': "
      ++ reason.message
  | .unconvertible parameter value host =>
    "procedure '" ++ e.procedure ++ "': there was a problem converting the value '" ++ value
      ++ "' of '" ++ parameter ++ "' to " ++ host.label

/-- The texts of the errors an error rests on. -/
def sources (e : ResolutionError) : List String :=
  match e.cause with
  | .typeMapping inner => [inner.message]
  | _ => []

end ResolutionError

end Sprocket
