import Sprocket.Files.Tree
import Sprocket.Remote

/-!
# Workspaces

What a command may do to the world around it: look for files, read and write them, read variables of
the environment, follow connection strings, and ask before it overwrites. The commands are written
against these operations alone, so that they run on a tree in memory as well as on a real one.
-/

namespace Sprocket.Command

/-- The operations a command works with. Writing makes the directories above a file and answers with
the text of the error, if there is one; asking may fail, with the texts of its causes. -/
structure Workspace (m : Type → Type) where
  contains : String → m Bool
  read : String → m (Option String)
  write : String → String → m (Option String)
  environment : String → m (Option String)
  remote : String → Remote
  confirm : String → m (Except (List String) Bool)

/-- The causes of a question that nobody can answer. -/
def unattended : List String := ["IO error: not a terminal", "not a terminal"]

/-- A tree of files in memory with an environment and the systems that connection strings lead to.
Nobody is there to answer questions. -/
def Workspace.ofTree (environment : String → Option String) (remote : String → Remote) :
    Workspace (StateM Files.Tree) where
  contains path := do return (← get).contains path
  read path := do return ((← get).read path).toOption
  write path content := do
    let (written, error) := (← get).write path content
    set written
    return error.map Files.FileError.message
  environment key := pure (environment key)
  remote := remote
  confirm _ := pure (.error unattended)

end Sprocket.Command
