import Sprocket.Connection.Keywords
import Sprocket.Connection.Url
import Sprocket.Remote

/-!
# Servers

Where a connection string leads. Nothing is reached from here: a string that is well formed and
names a server leads to one that does not answer.
-/

namespace Sprocket.Connection

/-- Why no connection is made. -/
inductive Refusal where
  | invalidString
  | invalidConfiguration
  | unreachable
  deriving DecidableEq, Repr

/-- The text of a refusal. -/
def Refusal.message : Refusal → String
  | invalidString => "invalid connection string"
  | invalidConfiguration => "invalid configuration"
  | unreachable => "error connecting to server"

/-- The servers and ports a connection string names. -/
def endpoints? (text : String) : Option Endpoints :=
  match Url.afterScheme? text.toList with
  | some body => Url.body? body
  | none => Keywords.read? text.toList

/-- Why a connection string does not lead to a connection. -/
def refusal (text : String) : Refusal :=
  match endpoints? text with
  | none => .invalidString
  | some e => if e.consistent then .unreachable else .invalidConfiguration

/-- The remote system a connection string leads to. -/
def server (text : String) : Remote := .refusing (refusal text).message

end Sprocket.Connection
