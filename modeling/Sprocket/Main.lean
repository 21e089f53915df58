import Sprocket.Command.Run
import Sprocket.Connection.Server

/-!
# The command line

The program on the files, the environment and the terminal of a real machine. Everything a command
decides is decided in `Sprocket.Command`; here the operations are carried out and the outcome shown.
-/

namespace Sprocket.Command

/-- The text of an error of the machine. -/
def machineText (e : IO.Error) : String := toString e

/-- The directory above a path, unless it is the working directory. -/
def directoryAbove? (path : String) : Option String :=
  (Files.Path.parent? path).filter (· != "")

/-- Writes a file and makes the directories above it first. -/
def writeOnMachine (path content : String) : IO (Option String) :=
  try
    if let some directory := directoryAbove? path then IO.FS.createDirAll directory
    IO.FS.writeFile path content
    return none
  catch e => return some (machineText e)

/-- Reads a file; one that cannot be read has no content. -/
def readOnMachine (path : String) : IO (Option String) :=
  try return some (← IO.FS.readFile path)
  catch _ => return none

/-- Whether a file or a directory is there. -/
def isOnMachine (path : String) : IO Bool :=
  try
    let _ ← IO.FS.realPath path
    return true
  catch _ => return false

/-- Asks whether a file may be overwritten; anything but a yes leaves it. -/
def askOnMachine (path : String) : IO (Except (List String) Bool) := do
  let input ← IO.getStdin
  if !(← input.isTty) then return .error unattended
  IO.eprint (path ++ " already exists. Overwrite? (y/n) ")
  let answer ← input.getLine
  return .ok ((answer.toList.head?.map Char.toLower) == some 'y')

/-- The workspace of the machine. -/
def machine : Workspace IO where
  contains := isOnMachine
  read := readOnMachine
  write := writeOnMachine
  environment := fun key => IO.getEnv key
  remote := Connection.server
  confirm := askOnMachine

/-- The lines that tell an error chain. -/
def chainLines (chain : List String) : List String :=
  "Error:" :: chain.mapIdx fun i text => "   " ++ toString i ++ ": " ++ text

/-- The lines that tell a problem with a manifest. -/
def problemLines (p : Problem) : List String :=
  p.code?.toList ++ [p.message] ++ p.labels.map (fun label => "  " ++ label.text)
    ++ p.help?.toList.map fun help => "  help: " ++ help

/-- The lines that tell how a run ended. -/
def Ending.lines : Ending → List String
  | done => []
  | problem p => problemLines p
  | failed chain => chainLines chain
  | misused => ["usage: dataflip <init|generate|check> [options]"]

/-- Shows an outcome on the two streams. -/
def Outcome.tell (o : Outcome) : IO Unit := do
  for line in o.remarks do IO.eprintln (" WARN " ++ line)
  for line in o.notices do IO.eprintln line
  IO.print o.text
  for line in o.ending.lines do IO.eprintln line

end Sprocket.Command

/-- Runs a command line and ends with its exit status. -/
def main (arguments : List String) : IO UInt32 := do
  let outcome ← Sprocket.Command.run Sprocket.Command.machine arguments
  outcome.tell
  return UInt32.ofNat outcome.ending.status
