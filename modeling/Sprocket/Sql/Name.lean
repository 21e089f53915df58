import Sprocket.Text.Blank
import Sprocket.Text.Split

/-!
# Names in SQL

Quoted identifiers, in which a double quote is written twice, and names qualified by a schema.
-/

namespace Sprocket.Sql

/-- The characters of an identifier as they stand between quotes. -/
def escapeQuotes (s : List Char) : List Char :=
  s.flatMap fun c => if c = '"' then ['"', '"'] else [c]

/-- An identifier between quotes, on characters. -/
def quoteChars (s : List Char) : List Char := '"' :: escapeQuotes s ++ ['"']

/-- An identifier between quotes. -/
def quote (name : String) : String := String.ofList (quoteChars name.toList)

/-- A part of a name without blanks at its ends and without one pair of quotes around it. -/
def unquote (part : List Char) : List Char :=
  match Text.trim part with
  | '"' :: r =>
    if r.getLast? = some '"' then r.dropLast else '"' :: r
  | s => s

/-- Splits a name into schema and routine at its first dot. -/
def splitName (name : String) : Option String × String :=
  match Text.splitFirst '.' name.toList with
  | some (schema, routine) =>
    (some (String.ofList (unquote schema)), String.ofList (unquote routine))
  | none => (none, String.ofList (unquote name.toList))

end Sprocket.Sql
