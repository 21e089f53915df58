import Sprocket.Manifest.Problem
import Sprocket.Report.Line

/-!
# Outcomes

How the run of a command ends, and what it leaves on the two output streams of a terminal.
-/

namespace Sprocket.Command

/-- How a run ends. -/
inductive Ending where
  | done
  | problem (problem : Problem)
  | failed (chain : List String)
  | misused
  deriving DecidableEq, Repr

/-- A run that has ended: the lines of the output, the lines of the error stream before any error
is told, the remarks for the log, and the ending. -/
structure Outcome where
  output : List String
  notices : List String
  remarks : List String
  ending : Ending
  deriving DecidableEq, Repr

/-- The exit status of an ending. -/
def Ending.status : Ending → Nat
  | done => 0
  | problem _ => 1
  | failed _ => 1
  | misused => 2

/-- The texts of an error and of its causes, the outermost first. -/
def Ending.causes : Ending → List String
  | failed chain => chain
  | _ => []

namespace Outcome

/-- A run that prints lines and ends well. -/
def printed (output : List String) : Outcome := ⟨output, [], [], .done⟩

/-- A run that ends in an error before anything is printed. -/
def failed (chain : List String) : Outcome := ⟨[], [], [], .failed chain⟩

/-- A run that ends in a problem with a manifest. -/
def rejected (p : Problem) : Outcome := ⟨[], [], [], .problem p⟩

/-- A run that prints a report and ends well. -/
def reported (lines : List ReportLine) : Outcome :=
  ⟨ReportLine.outputLines lines, ReportLine.errorLines lines, [], .done⟩

/-- The same run with notices and remarks made before it. -/
def after (notices remarks : List String) (o : Outcome) : Outcome :=
  { o with notices := notices ++ o.notices, remarks := remarks ++ o.remarks }

/-- The text on the output: every line ends in a newline. -/
def text (o : Outcome) : String := String.join (o.output.map (· ++ "\n"))

end Outcome

end Sprocket.Command
