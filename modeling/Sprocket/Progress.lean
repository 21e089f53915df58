import Sprocket.Method

/-!
# Progress

The steps of building a context as they are announced. A header opens a new section of output;
the other steps belong to the section before them.
-/

namespace Sprocket

/-- One step of building a context. -/
inductive Progress where
  | contextStarted (context : String) (procedures : Nat)
  | procedureStarted (procedure method : String)
  | trialExecuting (procedure : String) (arguments : Nat)
  | shapeResolved (procedure : String) (shape : ShapeKind) (columns : Nat) (trial : Bool)
  | introspectingParameters (procedure : String)
  | parametersResolved (procedure : String) (count : Nat)
  | procedureDone (procedure : String)
  | contextDone (context : String) (methods : Nat)
  deriving DecidableEq, Repr

namespace Progress

/-- Whether a step opens a new section. -/
def isHeader : Progress → Bool
  | contextStarted .. => true
  | procedureStarted .. => true
  | _ => false

/-- The line that announces a step. -/
def message : Progress → String
  | contextStarted context procedures =>
    "Building context '" ++ context ++ "' (" ++ toString procedures ++ " procedure(s))"
  | procedureStarted procedure method =>
    "Generating method '" ++ method ++ "' for '" ++ procedure ++ "'"
  | trialExecuting procedure arguments =>
    "Testing '" ++ procedure ++ "' with " ++ toString arguments ++ " parameter(s) ..."
  | shapeResolved procedure .rowSequence columns true =>
    "'" ++ procedure ++ "' returned " ++ toString columns
      ++ " columns, generating result class."
  | shapeResolved procedure .scalar _ true =>
    "'" ++ procedure ++ "' returned one column, generating method as scalar."
  | shapeResolved procedure .affectedCount _ true =>
    "'" ++ procedure ++ "' didn't return any columns, generating method as affected count."
  | shapeResolved procedure .scalar _ false =>
    "'" ++ procedure ++ "' declares a return type, generating method as scalar."
  | shapeResolved procedure _ _ false =>
    "'" ++ procedure ++ "' declares no return type, generating method as affected count."
  | introspectingParameters procedure =>
    "Introspecting '" ++ procedure ++ "' to derive the parameters."
  | parametersResolved _ count => "Found " ++ toString count ++ " parameter(s)"
  | procedureDone _ => "Done."
  | contextDone context methods =>
    "Context '" ++ context ++ "' built with " ++ toString methods ++ " method(s)"

/-- What a number of observers see of a list of steps: each step reaches every observer, in the
order they subscribed, before the next step. -/
def broadcast (observers : Nat) (steps : List Progress) : List (Nat × Progress) :=
  steps.flatMap fun step => (List.range observers).map fun observer => (observer, step)

/-- The line of a step on a terminal: steps below a header are set in by two columns. -/
def terminalLine (p : Progress) : String :=
  if p.isHeader then p.message else "  " ++ p.message

end Progress

end Sprocket
