import Sprocket.Manifest.Problem
import Sprocket.Text.Split

/-!
# Validating manifests

The rules a manifest has to keep, checked group by group in order: the name of the group, whether
it repeats an earlier one, its namespace, its database, and then its procedures in order. The
first rule that is broken is the problem reported.
-/

namespace Sprocket

/-- The text of a manifest together with the groups being looked at, for messages. -/
structure Scope where
  source : String
  path : List String
  deriving DecidableEq, Repr

/-- The outcome of a check. -/
abbrev Checked : Type := Except ProblemCause Unit

namespace Scope

/-- The groups being looked at, separated by dots. -/
def pathText (s : Scope) : String := ".".intercalate s.path

/-- The words for something of a kind in this scope. -/
def place (s : Scope) (kind : String) : String :=
  if s.path.isEmpty then kind else kind ++ " in '" ++ s.pathText ++ "'"

/-- The span of the `n`-th setting of a key to a value. -/
def find? (s : Scope) (key value : String) (n : Nat) : Option Span :=
  Locate.valueSpan? s.source key value n

/-- Checks a name that is set under a key. -/
def checkName (s : Scope) (name key kind : String) : Checked :=
  if Identifier.isKeyword name then
    .error (.reservedKeyword name (s.place kind) (s.find? key name 0))
  else
    match Identifier.fault? name with
    | some fault => .error (.invalidIdentifier name (s.place kind) fault (s.find? key name 0))
    | none => .ok ()

/-- Checks the segments of a namespace, in order. -/
def checkSegments (s : Scope) (whole : String) : List String → Checked
  | [] => .ok ()
  | segment :: rest =>
    if Identifier.isKeyword segment then
      .error (.reservedKeyword segment (s.place "namespace") (s.find? "namespace" whole 0))
    else
      match Identifier.fault? segment with
      | some fault =>
        .error (.invalidIdentifier whole (s.place "namespace") fault
          (s.find? "namespace" whole 0))
      | none => s.checkSegments whole rest

/-- The segments of a namespace. -/
def segments (name : String) : List String := (Text.pieces '.' name.toList).map String.ofList

/-- Checks a namespace. -/
def checkNamespace (s : Scope) (name : String) : Checked := s.checkSegments name (segments name)

/-- Checks the database of a group. -/
def checkDatabase (s : Scope) (config : ContextConfig) : Checked :=
  match config.database.source? with
  | none => .error (.invalid (.databaseSource config.name) (s.find? "name" config.name 0))
  | some (.env key) =>
    if Text.allBlank key then .error (.invalid (.blankVariable config.name) none) else .ok ()
  | some (.url _) => .ok ()

/-- Checks the name of the method a declaration generates. -/
def checkMethod (s : Scope) (d : Declaration) : Checked :=
  match d.method with
  | some method => s.checkName method "method" "method"
  | none =>
    if Identifier.isKeyword d.name then
      .error (.invalid (.keywordAsMethod d.name) (s.find? "name" d.name 0))
    else
      match Identifier.fault? d.name with
      | some fault => .error (.invalid (.formAsMethod d.name fault) (s.find? "name" d.name 0))
      | none => .ok ()

/-- The spans of the declarations that generate a method, given how many spelled-out and how many
defaulted ones came before. -/
def methodSpans (s : Scope) (method : String) : Nat → Nat → List Declaration → List (Option Span)
  | _, _, [] => []
  | spelled, defaulted, d :: rest =>
    if d.methodName = method then
      match d.method with
      | some name =>
        s.find? "method" name spelled :: s.methodSpans method (spelled + 1) defaulted rest
      | none =>
        s.find? "name" d.name defaulted :: s.methodSpans method spelled (defaulted + 1) rest
    else s.methodSpans method spelled defaulted rest

/-- The span of the `n`-th declaration of a group that generates a method. -/
def methodSpan? (s : Scope) (config : ContextConfig) (method : String) (n : Nat) : Option Span :=
  ((s.methodSpans method 0 0 config.procedures)[n]?).join

/-- Checks declarations, given the methods of those before them. -/
def checkProcedures (s : Scope) (config : ContextConfig) :
    List String → List Declaration → Checked
  | _, [] => .ok ()
  | seen, d :: rest =>
    if Text.allBlank d.name then
      .error (.invalid (.blankProcedure config.name) (s.find? "name" d.name 0))
    else
      match s.checkMethod d with
      | .error e => .error e
      | .ok () =>
        if seen.contains d.methodName then
          .error (.duplicateMethod d.methodName config.name
            (s.methodSpan? config d.methodName 0) (s.methodSpan? config d.methodName 1))
        else s.checkProcedures config (d.methodName :: seen) rest

/-- Checks what a group holds. -/
def checkContext (s : Scope) (config : ContextConfig) : Checked :=
  match s.checkNamespace config.namespaceName with
  | .error e => .error e
  | .ok () =>
    match s.checkDatabase config with
    | .error e => .error e
    | .ok () => s.checkProcedures config [] config.procedures

/-- Checks groups, given the names of those before them. -/
def checkContexts (s : Scope) : List String → List ContextConfig → Checked
  | _, [] => .ok ()
  | seen, config :: rest =>
    match s.checkName config.name "name" "context" with
    | .error e => .error e
    | .ok () =>
      if seen.contains config.name then
        .error (.invalid (.repeatedContext config.name)
          (s.find? "name" config.name (seen.count config.name)))
      else
        match ({ s with path := s.path ++ [config.name] } : Scope).checkContext config with
        | .error e => .error e
        | .ok () => s.checkContexts (config.name :: seen) rest

end Scope

namespace Manifest

/-- Checks a manifest read from a text. -/
def validate (m : Manifest) (source : String) : Checked :=
  if m.contexts.isEmpty then .error (.invalid .noContexts none)
  else (Scope.mk source []).checkContexts [] m.contexts

end Manifest

end Sprocket
