import Sprocket.Manifest.Decode
import Sprocket.Manifest.Identifier
import Sprocket.Manifest.Locate

/-!
# Problems with manifests

Everything that can be wrong with a manifest, with the text, the code, the advice and the labels
it is reported with. A label points at a span of the manifest; one whose span was not found is left
out.
-/

namespace Sprocket

/-- What is wrong with the meaning of a manifest that can be read. -/
inductive ValidationRule where
  | noContexts
  | repeatedContext (context : String)
  | databaseSource (context : String)
  | blankVariable (context : String)
  | blankProcedure (context : String)
  | keywordAsMethod (procedure : String)
  | formAsMethod (procedure : String) (fault : Identifier.Fault)
  deriving DecidableEq, Repr

/-- What is wrong with a manifest. -/
inductive ProblemCause where
  | unreadable
  | malformed
  | undecodable (error : DecodeError)
  | invalid (rule : ValidationRule) (span : Option Span)
  | duplicateMethod (method context : String) (first second : Option Span)
  | reservedKeyword (name place : String) (span : Option Span)
  | invalidIdentifier (name place : String) (fault : Identifier.Fault) (span : Option Span)
  deriving DecidableEq, Repr

/-- A problem with the manifest in a file. -/
structure Problem where
  file : String
  cause : ProblemCause
  deriving DecidableEq, Repr

/-- A span with what is said about it. -/
structure Label where
  text : String
  span : Span
  deriving DecidableEq, Repr

/-- The text of a rule that is broken. -/
def ValidationRule.message : ValidationRule → String
  | noContexts => "at least one [[contexts]] entry is required"
  | repeatedContext context => "context '" ++ context ++ "' is declared more than once"
  | databaseSource context => "context '" ++ context ++ "': " ++ DatabaseConfig.sourceRule
  | blankVariable context => "context '" ++ context ++ "': database env cannot be empty"
  | blankProcedure context => "context '" ++ context ++ "': procedure name cannot be empty"
  | keywordAsMethod procedure =>
    "procedure '" ++ procedure
      ++ "' cannot be used as a method name (it is a C# reserved keyword); set 'method' explicitly"
  | formAsMethod procedure fault =>
    "procedure '" ++ procedure ++ "' cannot be used as a method name (" ++ fault.words
      ++ "); set 'method' explicitly"

namespace Problem

/-- The text of a problem. -/
def message (p : Problem) : String :=
  match p.cause with
  | .unreadable => "failed to read '" ++ p.file ++ "'"
  | .malformed => "failed to parse dataflip.toml"
  | .undecodable _ => "failed to parse dataflip.toml"
  | .invalid rule _ => rule.message
  | .duplicateMethod method context _ _ =>
    "duplicate method '" ++ method ++ "' in context '" ++ context ++ "'"
  | .reservedKeyword name _ _ => "'" ++ name ++ "' is a C# reserved keyword"
  | .invalidIdentifier name place _ _ => "invalid " ++ place ++ " name '" ++ name ++ "'"

/-- The code of a problem, where it has one. -/
def code? (p : Problem) : Option String :=
  match p.cause with
  | .malformed => some "dataflip::parse_error"
  | .undecodable _ => some "dataflip::parse_error"
  | .invalid .. => some "dataflip::validation_error"
  | .duplicateMethod .. => some "dataflip::duplicate_method"
  | _ => none

/-- What to do about a problem, where there is advice. -/
def help? (p : Problem) : Option String :=
  match p.cause with
  | .unreadable => some "run 'dataflip init' to create a starter dataflip.toml"
  | .duplicateMethod .. =>
    some "give one of the procedures an explicit, different 'method' name"
  | .reservedKeyword name _ _ =>
    some ("rename '" ++ name ++ "' to something else, e.g. '" ++ name ++ "Proc'")
  | .invalidIdentifier _ _ fault _ =>
    some (fault.words ++ ". Use only letters, numbers, and underscores, starting with a letter or "
      ++ "underscore.")
  | _ => none

/-- A label, if its span was found. -/
def label (text : String) (span : Option Span) : List Label :=
  (span.map (Label.mk text)).toList

/-- The labels of a problem. -/
def labels (p : Problem) : List Label :=
  match p.cause with
  | .invalid rule span => label rule.message span
  | .duplicateMethod _ _ first second =>
    label "first declared here" first ++ label "declared again here" second
  | .reservedKeyword _ _ span => label "reserved keyword used here" span
  | .invalidIdentifier _ _ _ span => label "invalid identifier" span
  | _ => []

end Problem

end Sprocket
