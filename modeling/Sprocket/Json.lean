import Sprocket.Method
import Sprocket.Text.Ascii

/-!
# Context dumps

Contexts as JSON, for inspection. An array or object that is not empty is written over several
lines, set in by two columns a level.
-/

namespace Sprocket

/-- The JSON values that occur in a dump. -/
inductive Json where
  | null
  | string (text : String)
  | array (items : List Json)
  | object (fields : List (String × Json))

namespace Json

/-- A character as it stands in a JSON string. -/
def escapeChar (c : Char) : List Char :=
  if c = '"' then ['\\', '"']
  else if c = '\\' then ['\\', '\\']
  else if c = '\n' then ['\\', 'n']
  else if c = '\r' then ['\\', 'r']
  else if c = '\t' then ['\\', 't']
  else if c.toNat = 8 then ['\\', 'b']
  else if c.toNat = 12 then ['\\', 'f']
  else if c.toNat < 32 then ['\\', 'u'] ++ Text.hexDigits 4 c.toNat
  else [c]

/-- A JSON string. -/
def stringText (s : String) : String :=
  String.ofList ('"' :: s.toList.flatMap escapeChar ++ ['"'])

/-- A newline with the indentation of a level. -/
def lineBreak (level : Nat) : String :=
  "\n" ++ String.ofList (List.replicate (2 * level) ' ')

mutual

/-- The text of a value that stands at a level. -/
def pretty (level : Nat) : Json → String
  | null => "null"
  | string text => stringText text
  | array [] => "[]"
  | array (v :: rest) =>
    "[" ++ lineBreak (level + 1) ++ pretty (level + 1) v ++ prettyItems (level + 1) rest
      ++ lineBreak level ++ "]"
  | object [] => "\x7b\x7d"
  | object ((key, v) :: rest) =>
    "\x7b" ++ lineBreak (level + 1) ++ stringText key ++ ": " ++ pretty (level + 1) v
      ++ prettyFields (level + 1) rest ++ lineBreak level ++ "\x7d"

/-- The text of further items of an array. -/
def prettyItems (level : Nat) : List Json → String
  | [] => ""
  | v :: rest => "," ++ lineBreak level ++ pretty level v ++ prettyItems level rest

/-- The text of further fields of an object. -/
def prettyFields (level : Nat) : List (String × Json) → String
  | [] => ""
  | (key, v) :: rest =>
    "," ++ lineBreak level ++ stringText key ++ ": " ++ pretty level v ++ prettyFields level rest

end

end Json

/-- A name with its type. -/
def typedName (name : String) (type : HostType) : Json :=
  .object [("name", .string name), ("ty", .string type.key)]

/-- A return shape in a dump. -/
def ReturnShape.toJson : ReturnShape → Json
  | rowSequence columns =>
    .object [("row_sequence", .array (columns.map fun c => typedName c.name c.type))]
  | scalar type => .object [("scalar", .string type.key)]
  | affectedCount => .string "affected_count"

/-- A method in a dump. -/
def Method.toJson (m : Method) : Json :=
  .object [("name", .string m.name), ("procedure", .string m.procedure),
    ("parameters", .array (m.parameters.map fun p => typedName p.name p.type)),
    ("shape", m.shape.toJson), ("doc", (m.doc.map Json.string).getD .null)]

/-- A context in a dump. -/
def Context.toJson (c : Context) : Json :=
  .object [("namespace", .string c.namespaceName), ("name", .string c.name),
    ("methods", .array (c.methods.map Method.toJson))]

end Sprocket
