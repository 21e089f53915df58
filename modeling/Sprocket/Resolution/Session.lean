import Sprocket.Remote
import Sprocket.Trace

/-!
# Sessions

Everything asked of a remote system is asked in a session, which is closed however the asking
ends. A session is seen through its events: opened, asked, closed.
-/

namespace Sprocket

/-- Something that happens between this program and a remote system. An execution is `carried`
out unless the server refuses the call. -/
inductive SessionEvent where
  | opened
  | introspected (procedure : String)
  | executed (procedure : String) (arguments : List TrialBinding) (carried : Bool)
  | closed
  deriving DecidableEq, Repr

namespace SessionEvent

/-- The number of sessions opened. -/
def openings (events : List SessionEvent) : Nat := events.countP (· == .opened)

/-- The number of sessions closed. -/
def closings (events : List SessionEvent) : Nat := events.countP (· == .closed)

/-- The call an event carries out, if it does. -/
def call? : SessionEvent → Option (String × List TrialBinding)
  | executed procedure arguments true => some (procedure, arguments)
  | _ => none

/-- The calls carried out, in order. -/
def calls (events : List SessionEvent) : List (String × List TrialBinding) :=
  events.filterMap call?

end SessionEvent

namespace Remote

/-- Runs `body` in a session of its own. If no connection can be made nothing is opened and
`body` does not run. -/
def inSession {α : Type} (r : Remote)
    (body : Trace SessionEvent RemoteError α) : Trace SessionEvent RemoteError α :=
  match r.connectFailure with
  | some text => .fail (.connect text)
  | none => body.within .opened .closed

/-- Asks for the parameters of a procedure. -/
def askParameters (r : Remote) (name : String) :
    Trace SessionEvent RemoteError (List WireColumn) :=
  ⟨[.introspected name], r.introspect name⟩

/-- Calls a procedure and asks for the schema of its result sets. -/
def askResults (r : Remote) (name : String) (arguments : List TrialBinding) :
    Trace SessionEvent RemoteError (List (List WireColumn)) :=
  ⟨[.executed name arguments (r.carriesOut name)], r.execute name⟩

end Remote

end Sprocket
