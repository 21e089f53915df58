import Sprocket.Method
import Sprocket.Resolution.Session

/-!
# Resolving procedures

Parameters are found by introspection and shapes by trial, each in a session of its own. Only the
first result set of a trial counts: no columns make an affected count, one column a single value,
more of them rows.
-/

namespace Sprocket.Resolution

/-- The cause of a failed introspection. -/
def introspectionCause : RemoteError → ResolutionCause
  | .connect text => .connection text
  | .notFound => .procedureNotFound
  | .query text => .introspection text

/-- The cause of a failed trial. -/
def trialCause : RemoteError → ResolutionCause
  | .connect text => .connection text
  | .notFound => .procedureNotFound
  | .query text => .trialExecution text

/-- The host type of a column in a dialect. -/
def columnType (dialect : Dialect) (procedure : String) (column : WireColumn) :
    Except ResolutionError HostType :=
  match dialect.hostType column.wireType with
  | .ok type => .ok type
  | .error e => .error ⟨procedure, .typeMapping e⟩

/-- Types the columns of a list in order; the first one without a host type is the error. -/
def typed {α : Type} (dialect : Dialect) (procedure : String) (build : String → HostType → α) :
    List WireColumn → Except ResolutionError (List α)
  | [] => .ok []
  | column :: rest =>
    match columnType dialect procedure column with
    | .error e => .error e
    | .ok type =>
      match typed dialect procedure build rest with
      | .error e => .error e
      | .ok others => .ok (build column.name type :: others)

/-- The shape that the columns of a first result set stand for. -/
def shapeOfColumns (dialect : Dialect) (procedure : String) :
    List WireColumn → Except ResolutionError ReturnShape
  | [] => .ok .affectedCount
  | [column] => (columnType dialect procedure column).map .scalar
  | columns => (typed dialect procedure ResultColumn.mk columns).map .rowSequence

/-- The parameters of a procedure, in the order the remote system reports them. -/
def parameters (r : Remote) (procedure : String) :
    Trace SessionEvent ResolutionError (List Parameter) :=
  ((r.inSession (r.askParameters procedure)).relabel id
      fun e => ⟨procedure, introspectionCause e⟩).andThen
    fun rows => .ofExcept (typed r.dialect procedure Parameter.mk rows)

/-- The shape of a procedure called with bound arguments. -/
def shapeOf (r : Remote) (procedure : String) (bindings : List TrialBinding) :
    Trace SessionEvent ResolutionError ReturnShape :=
  ((r.inSession (r.askResults procedure bindings)).relabel id
      fun e => ⟨procedure, trialCause e⟩).andThen
    fun sets => .ofExcept (shapeOfColumns r.dialect procedure (sets.head?.getD []))

/-- The shape of a procedure tried with sample arguments. No session is opened for arguments that
cannot be bound. -/
def shapeByTrial (r : Remote) (procedure : String) (expressions : List String) :
    Trace SessionEvent ResolutionError ReturnShape :=
  (Trace.ofExcept (TrialBinding.bindAll procedure expressions)).andThen (shapeOf r procedure)

end Sprocket.Resolution
