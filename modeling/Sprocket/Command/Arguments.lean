import Sprocket.Text.Split

/-!
# Command lines

What the words of a command line ask for. An option is written `--name value`, `--name=value`,
`-n value`, `-nvalue` or `-n=value`; a switch stands alone; short forms may share one dash. Nothing
may be given twice, and a word that begins with a dash is no value, unless it is the dash alone.
-/

namespace Sprocket.Command

/-- The file that is read where none is named. -/
def defaultManifestPath : String := "dataflip.toml"

/-- What `init` is asked to do. -/
structure InitRequest where
  output : String
  force : Bool
  deriving DecidableEq, Repr

/-- What `generate` is asked to do. -/
structure GenerateRequest where
  config : String
  context : Option String
  dryRun : Bool
  dumpContexts : Bool
  deriving DecidableEq, Repr

/-- What `check` is asked to do. -/
structure CheckRequest where
  config : String
  deriving DecidableEq, Repr

/-- What a command line asks for. -/
inductive Request where
  | init (request : InitRequest)
  | generate (request : GenerateRequest)
  | check (request : CheckRequest)
  | version
  | help
  deriving DecidableEq, Repr

/-- What comes with an option: nothing, any text, or the path of a file, which is not empty. -/
inductive OptionKind where
  | switch | text | path
  deriving DecidableEq, Repr

/-- An option of a command, with its long name and perhaps a short one. -/
structure OptionRule where
  long : String
  short : Option Char
  kind : OptionKind
  deriving DecidableEq, Repr

/-- The options of `init`. -/
def initOptions : List OptionRule := [⟨"output", some 'o', .path⟩, ⟨"force", none, .switch⟩]

/-- The options of `generate`. -/
def generateOptions : List OptionRule :=
  [⟨"config", some 'c', .path⟩, ⟨"context", none, .text⟩, ⟨"dry-run", none, .switch⟩,
    ⟨"dump-ir", none, .switch⟩]

/-- The options of `check`. -/
def checkOptions : List OptionRule := [⟨"config", some 'c', .path⟩]

/-- The options that were given, by long name; a switch has the empty text. -/
abbrev Given : Type := List (String × String)

/-- Why a command line ends before it is read to its end: help is asked for, or a mistake. -/
inductive Stop where
  | help
  | usage
  deriving DecidableEq, Repr

/-- One option with the text that comes with it, if that is already known. -/
structure Mention where
  rule : OptionRule
  value : Option String
  deriving DecidableEq, Repr

/-- Notes an option with its value; none may be given twice, and no path is empty. -/
def note (given : Given) (rule : OptionRule) (value : String) : Except Stop Given :=
  if given.any (·.1 == rule.long) || (rule.kind == .path && value.isEmpty) then .error .usage
  else .ok (given ++ [(rule.long, value)])

/-- Reads a long option after its two dashes. -/
def readLong (rules : List OptionRule) (s : List Char) : Except Stop Mention :=
  let (name, value) :=
    match Text.splitFirst '=' s with
    | some (name, value) => (String.ofList name, some (String.ofList value))
    | none => (String.ofList s, none)
  match rules.find? (·.long == name) with
  | some rule =>
    if rule.kind == .switch && value.isSome then .error .usage else .ok ⟨rule, value⟩
  | none => .error (if name = "help" && value.isNone then .help else .usage)

/-- Reads short options after their dash; the commands have no short switch but the one for help, so
the first option takes what follows it as its value. -/
def readShort (rules : List OptionRule) : List Char → Except Stop Mention
  | [] => .error .usage
  | c :: r =>
    match rules.find? (·.short == some c) with
    | some rule =>
      let value :=
        match r with
        | [] => none
        | '=' :: rest => some (String.ofList rest)
        | rest => some (String.ofList rest)
      .ok ⟨rule, value⟩
    | none => .error (if c = 'h' then .help else .usage)

/-- Reads the option a word mentions; other words are out of place. -/
def readMention (rules : List OptionRule) (word : String) : Except Stop Mention :=
  match word.toList with
  | '-' :: '-' :: s => readLong rules s
  | '-' :: s => readShort rules s
  | _ => .error .usage

/-- Whether a word may be the value of the option before it. -/
def isValue (word : String) : Bool := word = "-" || word.toList.head? != some '-'

/-- Reads the options of a command. Two dashes alone end them, and nothing may follow. -/
def readOptions (rules : List OptionRule) : Given → List String → Except Stop Given
  | given, [] => .ok given
  | given, word :: rest =>
    if word = "--" then if rest.isEmpty then .ok given else .error .usage
    else
      match readMention rules word with
      | .error stop => .error stop
      | .ok ⟨rule, some value⟩ =>
        match note given rule value with
        | .error stop => .error stop
        | .ok given => readOptions rules given rest
      | .ok ⟨rule, none⟩ =>
        if rule.kind == .switch then
          match note given rule "" with
          | .error stop => .error stop
          | .ok given => readOptions rules given rest
        else
          match rest with
          | [] => .error .usage
          | value :: rest =>
            if isValue value then
              match note given rule value with
              | .error stop => .error stop
              | .ok given => readOptions rules given rest
            else .error .usage

/-- The path given by an option, or the usual one. -/
def pathOf (given : Given) (long : String) : String :=
  (given.lookup long).getD defaultManifestPath

/-- Whether a switch was given. -/
def isGiven (given : Given) (long : String) : Bool := (given.lookup long).isSome

/-- The request of `init`. -/
def InitRequest.ofGiven (given : Given) : InitRequest :=
  ⟨pathOf given "output", isGiven given "force"⟩

/-- The request of `generate`. -/
def GenerateRequest.ofGiven (given : Given) : GenerateRequest :=
  ⟨pathOf given "config", given.lookup "context", isGiven given "dry-run",
    isGiven given "dump-ir"⟩

/-- The request of `check`. -/
def CheckRequest.ofGiven (given : Given) : CheckRequest := ⟨pathOf given "config"⟩

/-- The request for the words that follow the name of a command. -/
def Request.ofOptions (rules : List OptionRule) (make : Given → Request) (words : List String) :
    Option Request :=
  match readOptions rules [] words with
  | .ok given => some (make given)
  | .error .help => some .help
  | .error .usage => none

/-- What a command line asks for; `none` for one that cannot be understood. -/
def Request.ofArguments : List String → Option Request
  | [] => none
  | word :: rest =>
    if word = "init" then ofOptions initOptions (fun g => init (.ofGiven g)) rest
    else if word = "generate" then ofOptions generateOptions (fun g => generate (.ofGiven g)) rest
    else if word = "check" then ofOptions checkOptions (fun g => check (.ofGiven g)) rest
    else if word = "--version" || "-V".isPrefixOf word then some version
    else if word = "--help" || word = "help" || "-h".isPrefixOf word then some help
    else none

end Sprocket.Command
