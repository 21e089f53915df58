/-!
# Report lines

A report says what each of its lines is; a terminal decides how such a line looks. Warnings go to
the error stream and everything else to the output.
-/

namespace Sprocket

/-- One line of a report. -/
inductive ReportLine where
  | success (text : String)
  | heading (name : String)
  | keyValue (key value : String)
  | listItem (text : String)
  | addedItem (text : String)
  | warning (text : String)
  | divider (label : String)
  | preformatted (text : String)
  | newline
  deriving DecidableEq, Repr

namespace ReportLine

/-- The line as a terminal shows it, without its newline. -/
def terminal : ReportLine → String
  | success text => "✓ " ++ text
  | heading name => name
  | keyValue key value => "  " ++ key ++ ": " ++ value
  | listItem text => "  - " ++ text
  | addedItem text => "  + " ++ text
  | warning text => "warning: " ++ text
  | divider label => "── " ++ label ++ " ──"
  | preformatted text => text
  | newline => ""

/-- Whether a line goes to the error stream. -/
def isWarning : ReportLine → Bool
  | warning _ => true
  | _ => false

/-- What a report prints on the output. -/
def outputLines (lines : List ReportLine) : List String :=
  (lines.filter (!·.isWarning)).map terminal

/-- What a report prints on the error stream. -/
def errorLines (lines : List ReportLine) : List String :=
  (lines.filter (·.isWarning)).map terminal

end ReportLine

end Sprocket
