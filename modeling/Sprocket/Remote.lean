import Sprocket.Trial.Binding

/-!
# Remote systems

What a database server answers: the dialect of its type names, the procedures it knows with their
parameters and result sets, and the failures it reports. The answers depend on the question alone,
never on earlier questions.
-/

namespace Sprocket

/-- A name with its type as the server spells it. -/
structure WireColumn where
  name : String
  wireType : String
  deriving DecidableEq, Repr

/-- A failure a server reports. -/
inductive RemoteError where
  | connect (message : String)
  | notFound
  | query (message : String)
  deriving DecidableEq, Repr

/-- What a server knows of one procedure. The errors, where present, are reported in place of an
answer; `failure` is the error of a call that was carried out. -/
structure RemoteProcedure where
  name : String
  parameters : List WireColumn
  resultSets : List (List WireColumn)
  failure : Option String
  introspectError : Option RemoteError
  executeError : Option RemoteError
  deriving DecidableEq, Repr

/-- A remote system. Of two procedures of one name the later one counts. -/
structure Remote where
  dialect : Dialect
  connectFailure : Option String
  procedures : List RemoteProcedure
  deriving DecidableEq, Repr

namespace Remote

/-- A remote system that refuses every connection. -/
def refusing (message : String) : Remote := ⟨.postgres, some message, []⟩

/-- The procedure of a name, which is compared character for character. -/
def procedure? (r : Remote) (name : String) : Option RemoteProcedure :=
  r.procedures.reverse.find? (·.name == name)

/-- The answer to a question about parameters. -/
def introspect (r : Remote) (name : String) : Except RemoteError (List WireColumn) :=
  match r.procedure? name with
  | none => .error .notFound
  | some p =>
    match p.introspectError with
    | some e => .error e
    | none => .ok p.parameters

/-- Whether a call of a procedure is carried out at all. -/
def carriesOut (r : Remote) (name : String) : Bool :=
  match r.procedure? name with
  | none => false
  | some p => p.executeError.isNone

/-- The answer to a call. -/
def execute (r : Remote) (name : String) : Except RemoteError (List (List WireColumn)) :=
  match r.procedure? name with
  | none => .error .notFound
  | some p =>
    match p.executeError, p.failure with
    | some e, _ => .error e
    | none, some text => .error (.query text)
    | none, none => .ok p.resultSets

end Remote

end Sprocket
