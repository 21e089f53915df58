import Sprocket.Connection.Settings
import Sprocket.Text.Blank

/-!
# Connection strings of keywords

The form `key = value key = value …`. A value may stand in single quotes, and a backslash takes the
character after it as it is. The reading ends where no key follows.
-/

namespace Sprocket.Connection.Keywords

/-- Text that was read, with what follows it. -/
abbrev Read : Type := List Char × List Char

/-- Reads a value up to a blank. -/
def bareValue : List Char → Read
  | [] => ([], [])
  | ['\\'] => ([], [])
  | '\\' :: c :: r => let (value, rest) := bareValue r; (c :: value, rest)
  | c :: r =>
    if Text.isBlank c then ([], c :: r)
    else let (value, rest) := bareValue r; (c :: value, rest)

/-- Reads a value up to the quote that closes it. -/
def quotedValue? : List Char → Option Read
  | [] => none
  | ['\\'] => none
  | '\\' :: c :: r => (quotedValue? r).map fun (value, rest) => (c :: value, rest)
  | c :: r =>
    if c = '\'' then some ([], r)
    else (quotedValue? r).map fun (value, rest) => (c :: value, rest)

/-- Reads a value, which may be empty only inside quotes. -/
def value? : List Char → Option Read
  | '\'' :: r => quotedValue? r
  | s =>
    let (value, rest) := bareValue s
    if value.isEmpty then none else some (value, rest)

/-- Whether a character may stand in a key. -/
def isKeyChar (c : Char) : Bool := !Text.isBlank c && c != '='

/-- A setting as written. -/
abbrev Setting : Type := String × String

/-- Reads one setting, if a key follows. -/
def setting? (s : List Char) : Option (Option (Setting × List Char)) :=
  let s := Text.trimStart s
  let key := s.takeWhile isKeyChar
  if key.isEmpty then some none
  else
    match Text.trimStart (s.dropWhile isKeyChar) with
    | '=' :: r =>
      (value? (Text.trimStart r)).map fun (value, rest) =>
        some ((String.ofList key, String.ofList value), rest)
    | _ => none

/-- Reads at most `fuel` settings and applies them. -/
def settings? : Nat → List Char → Endpoints → Option Endpoints
  | 0, _, e => some e
  | fuel + 1, s, e =>
    match setting? s with
    | none => none
    | some none => some e
    | some (some ((key, value), rest)) => (e.set? key value).bind (settings? fuel rest)

/-- Reads a connection string of keywords; every setting is at least one character long. -/
def read? (s : List Char) : Option Endpoints := settings? (s.length + 1) s .none

end Sprocket.Connection.Keywords
