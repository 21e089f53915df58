import Sprocket.Text.Ascii

/-!
# Identifiers of generated code

A name that becomes a C# identifier consists of ASCII letters, digits and underscores, does not
begin with a digit, and is no keyword.
-/

namespace Sprocket.Identifier

/-- The reserved words of C#. -/
def keywords : List String :=
  ["abstract", "as", "base", "bool", "break", "byte", "case", "catch", "char", "checked", "class",
    "const", "continue", "decimal", "default", "delegate", "do", "double", "else", "enum", "event",
    "explicit", "extern", "false", "finally", "fixed", "float", "for", "foreach", "goto", "if",
    "implicit", "in", "int", "interface", "internal", "is", "lock", "long", "namespace", "new",
    "null", "object", "operator", "out", "override", "params", "private", "protected", "public",
    "readonly", "ref", "return", "sbyte", "sealed", "short", "sizeof", "stackalloc", "static",
    "string", "struct", "switch", "this", "throw", "true", "try", "typeof", "uint", "ulong",
    "unchecked", "unsafe", "ushort", "using", "virtual", "void", "volatile", "while"]

/-- What is wrong with the form of a name. -/
inductive Fault where
  | empty | start | character
  deriving DecidableEq, Repr

/-- The words for a fault. -/
def Fault.words : Fault → String
  | empty => "name cannot be empty"
  | start => "name must start with a letter or underscore"
  | character => "name must contain only letters, numbers, and underscores"

/-- Whether a name is a reserved word. -/
def isKeyword (name : String) : Bool := keywords.contains name

/-- The fault in the form of a name, if there is one. -/
def fault? (name : String) : Option Fault :=
  match name.toList with
  | [] => some .empty
  | c :: r =>
    if !(c.isAlpha || c == '_') then some .start
    else if r.all Text.isWordChar then none
    else some .character

/-- Whether a name may stand as an identifier. -/
def isUsable (name : String) : Bool := !isKeyword name && (fault? name).isNone

end Sprocket.Identifier
