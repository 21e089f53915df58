import Sprocket.Manifest.Config
import Sprocket.Number.Shortest
import Sprocket.Text.Quoted
import Sprocket.Toml.Value

/-!
# Decoding manifests

A manifest out of the entries of a TOML document. The keys of a table are visited in the order of
their characters, and the first one that does not fit ends the decoding; keys that are missing are
noticed after that, in the order of the fields. A structure may also be written as an array of all
its fields in order.
-/

namespace Sprocket

/-- Whether an integer lies from `-2^low` up to but not including `2^high`. -/
def withinPowers (low high : Nat) (n : Int) : Bool :=
  -(Int.pow 2 low) ≤ n && n < Int.pow 2 high

/-- What stands where something else was expected. -/
inductive Found where
  | string (text : String)
  | integer (value : Int)
  | float (value : Number.Floating)
  | boolean (value : Bool)
  | sequence
  | map
  deriving DecidableEq, Repr

/-- Why the entries of a document are no manifest. -/
inductive DecodeError where
  | invalidType (found : Found) (expected : String)
  | unknownField (name : String) (expected : List String)
  | missingField (name : String)
  | invalidLength (length : Nat) (expected : String)
  | integerOverflow
  | floatOverflow
  deriving DecidableEq, Repr

namespace Found

/-- The text of a floating-point number, with a point. -/
def floatText (x : Number.Floating) : String :=
  let text := x.display Number.binary64
  if x.isFinite && !text.toList.contains '.' then text ++ ".0" else text

/-- The text of an integer, with the width it takes where that is more than sixty-four bits. -/
def integerText (n : Int) : String :=
  let text := "integer `" ++ Number.displayInt n ++ "`"
  if withinPowers 63 64 n then text
  else if withinPowers 127 127 n then text ++ " as i128"
  else text ++ " as u128"

/-- The words for what was found. -/
def words : Found → String
  | string text => "string " ++ String.ofList (Text.quoted text.toList)
  | integer n => integerText n
  | float x => "floating point `" ++ floatText x ++ "`"
  | boolean b => "boolean `" ++ (if b then "true" else "false") ++ "`"
  | sequence => "sequence"
  | map => "map"

end Found

/-- The words for a choice of names. -/
def oneOf : List String → String
  | [] => "there are no fields"
  | [a] => "expected `" ++ a ++ "`"
  | [a, b] => "expected `" ++ a ++ "` or `" ++ b ++ "`"
  | names => "expected one of " ++ ", ".intercalate (names.map fun n => "`" ++ n ++ "`")

/-- The text of a decoding error. -/
def DecodeError.message : DecodeError → String
  | invalidType found expected => "invalid type: " ++ found.words ++ ", expected " ++ expected
  | unknownField name expected => "unknown field `" ++ name ++ "`, " ++ oneOf expected
  | missingField name => "missing field `" ++ name ++ "`"
  | invalidLength length expected =>
    "invalid length " ++ toString length ++ ", expected " ++ expected
  | integerOverflow => "integer number overflowed"
  | floatOverflow => "floating-point number overflowed"

namespace Decode

open Toml

/-- The result of decoding a part of a document. -/
abbrev Result (α : Type) : Type := Except DecodeError α

/-- Refuses a value where something else was expected. -/
def refuse {α : Type} (v : Value) (expected : String) : Result α :=
  match v with
  | .string s => .error (.invalidType (.string s) expected)
  | .integer n =>
    if withinPowers 127 128 n then .error (.invalidType (.integer n) expected)
    else .error .integerOverflow
  | .float literal =>
    match literal, literal.value Number.binary64 with
    | .decimal .., .infinite _ => .error .floatOverflow
    | _, x => .error (.invalidType (.float x) expected)
  | .boolean b => .error (.invalidType (.boolean b) expected)
  | .moment _ => .error (.invalidType .map expected)
  | .array .. => .error (.invalidType .sequence expected)
  | .table .. => .error (.invalidType .map expected)

/-- Decodes a string. -/
def text (expected : String) : Value → Result String
  | .string s => .ok s
  | v => refuse v expected

/-- Decodes a string without a form of its own. -/
def string : Value → Result String := text "a string"

/-- Decodes a path. -/
def path : Value → Result String := text "path string"

/-- Decodes a truth value. -/
def boolean : Value → Result Bool
  | .boolean b => .ok b
  | v => refuse v "a boolean"

/-- Decodes an array, item by item. -/
def list {α : Type} (item : Value → Result α) : Value → Result (List α)
  | .array _ items => items.mapM item
  | v => refuse v "a sequence"

/-- The key a date is seen under where a table is expected. -/
def momentKey : String := "$__toml_private_datetime"

/-- Puts an entry in front of the first entry with a greater key. -/
def insertEntry (e : String × Value) : Entries → Entries
  | [] => [e]
  | d :: rest => if e.1 < d.1 then e :: d :: rest else d :: insertEntry e rest

/-- Entries in the order of their keys. -/
def sorted (es : Entries) : Entries := es.foldl (fun acc e => insertEntry e acc) []

/-- How a structure is decoded: its name, its fields in order, how a field is put into a draft of
it, and how a draft is completed. A field of an array that is cut short is missing unless the
structure names it as one that may be. -/
structure Shape (δ α : Type) where
  name : String
  fields : List String
  draft : δ
  put : δ → String → Value → Result δ
  complete : δ → Result α
  optional : List String

namespace Shape

variable {δ α : Type}

/-- What is expected where a structure does not stand. -/
def expected (s : Shape δ α) : String := "struct " ++ s.name

/-- What is expected of an array in place of a structure. -/
def expectedLength (s : Shape δ α) : String :=
  s.expected ++ " with " ++ toString s.fields.length
    ++ (if s.fields.length = 1 then " element" else " elements")

/-- Puts entries into a draft, in order. -/
def putAll (s : Shape δ α) : δ → Entries → Result δ
  | draft, [] => .ok draft
  | draft, (key, v) :: rest =>
    if s.fields.contains key then do
      let draft ← s.put draft key v
      s.putAll draft rest
    else .error (.unknownField key s.fields)

/-- Puts the items of an array into a draft, in the order of the fields; `index` is the number of
fields already put. -/
def putItems (s : Shape δ α) : Nat → δ → List String → List Value → Result δ
  | _, draft, [], _ => .ok draft
  | index, draft, key :: keys, [] =>
    if s.optional.contains key then s.putItems (index + 1) draft keys []
    else .error (.invalidLength index s.expectedLength)
  | index, draft, key :: keys, v :: rest => do
    let draft ← s.put draft key v
    s.putItems (index + 1) draft keys rest

/-- Decodes the entries of a table. -/
def ofEntries (s : Shape δ α) (es : Entries) : Result α := do
  s.complete (← s.putAll s.draft (sorted es))

/-- Decodes a structure. -/
def decode (s : Shape δ α) : Value → Result α
  | .table _ es => s.ofEntries es
  | .array _ items => do s.complete (← s.putItems 0 s.draft s.fields items)
  | .moment t => s.ofEntries [(momentKey, .string t)]
  | v => refuse v s.expected

end Shape

/-- A field that has to be there. -/
def required {α : Type} (name : String) : Option α → Result α
  | some a => .ok a
  | none => .error (.missingField name)

/-- A declaration with fields still missing. -/
structure DeclarationDraft where
  name : Option String
  method : Option String
  returns : Option String
  comments : Option String
  trial : Option (List String)

/-- How a declaration is decoded. -/
def declaration : Shape DeclarationDraft Declaration where
  name := "ProcedureDeclaration"
  fields := ["name", "method", "returns", "comments", "trial"]
  draft := ⟨none, none, none, none, none⟩
  put draft key v :=
    if key = "name" then do .ok { draft with name := ← string v }
    else if key = "method" then do .ok { draft with method := ← string v }
    else if key = "returns" then do .ok { draft with returns := ← string v }
    else if key = "comments" then do .ok { draft with comments := ← string v }
    else do .ok { draft with trial := ← list string v }
  complete draft := do
    .ok ⟨← required "name" draft.name, draft.method, draft.returns, draft.comments,
      draft.trial.getD []⟩
  optional := ["trial"]

/-- How a database is decoded. -/
def database : Shape DatabaseConfig DatabaseConfig where
  name := "DatabaseConfig"
  fields := ["url", "env"]
  draft := ⟨none, none⟩
  put draft key v :=
    if key = "url" then do .ok { draft with url := ← string v }
    else do .ok { draft with env := ← string v }
  complete draft := .ok draft
  optional := []

/-- Output settings with fields still missing. -/
structure OutputDraft where
  host : Option String
  typings : Option String
  camelCase : Option Bool
  bindings : Option String

/-- How output settings are decoded. -/
def output : Shape OutputDraft OutputConfig where
  name := "OutputConfig"
  fields := ["host", "typings", "camel_case", "bindings"]
  draft := ⟨none, none, none, none⟩
  put draft key v :=
    if key = "host" then do .ok { draft with host := ← path v }
    else if key = "typings" then do .ok { draft with typings := ← path v }
    else if key = "camel_case" then do .ok { draft with camelCase := ← boolean v }
    else do .ok { draft with bindings := ← path v }
  complete draft := do
    .ok ⟨← required "host" draft.host, draft.typings, draft.camelCase.getD false, draft.bindings⟩
  optional := ["camel_case"]

/-- A group with fields still missing. -/
structure ContextDraft where
  name : Option String
  namespaceName : Option String
  database : Option DatabaseConfig
  output : Option OutputConfig
  procedures : Option (List Declaration)

/-- How a group is decoded. -/
def context : Shape ContextDraft ContextConfig where
  name := "ContextConfig"
  fields := ["name", "namespace", "database", "output", "procedures"]
  draft := ⟨none, none, none, none, none⟩
  put draft key v :=
    if key = "name" then do .ok { draft with name := ← string v }
    else if key = "namespace" then do .ok { draft with namespaceName := ← string v }
    else if key = "database" then do .ok { draft with database := ← database.decode v }
    else if key = "output" then do .ok { draft with output := ← output.decode v }
    else do .ok { draft with procedures := ← list declaration.decode v }
  complete draft := do
    .ok ⟨← required "name" draft.name, ← required "namespace" draft.namespaceName,
      ← required "database" draft.database, ← required "output" draft.output,
      ← required "procedures" draft.procedures⟩
  optional := []

/-- How a manifest is decoded. -/
def manifest : Shape (Option (List ContextConfig)) Manifest where
  name := "Manifest"
  fields := ["contexts"]
  draft := none
  put _ _ v := do .ok (some (← list context.decode v))
  complete draft := do .ok ⟨← required "contexts" draft⟩
  optional := []

end Decode

/-- The manifest that the entries of a document stand for. -/
def Manifest.ofEntries (es : Toml.Entries) : Except DecodeError Manifest :=
  Decode.manifest.ofEntries es

end Sprocket
