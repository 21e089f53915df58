import Sprocket.Text.Blank
import Sprocket.Text.Split
import Sprocket.WireType

/-!
# Trial arguments

A trial argument names a parameter and a sample value, as in `@Id: "5":int`. The value may be
quoted; a type token may follow the closing quote, or stand after the last colon inside the value.
A token inside the value is split off only if it is a known one, so a value with colons of its own
(a time, an address) needs no quotes.
-/

namespace Sprocket

/-- A parsed trial argument; `token` is none where no type was written. -/
structure TrialArgument where
  name : String
  literal : String
  token : Option String
  deriving DecidableEq, Repr

/-- Why an expression is no trial argument. -/
inductive ArgumentError where
  | noSeparator
  | emptyName
  | unterminated
  | trailing (text : String)
  deriving DecidableEq, Repr

namespace TrialArgument

/-- The type token of an argument that writes none. -/
def defaultToken : String := "string"

/-- The type token in force. -/
def effectiveToken (a : TrialArgument) : String := a.token.getD defaultToken

/-- Splits a known token off the end of a value. -/
def splitKnownToken (value : List Char) : List Char × Option (List Char) :=
  match Text.splitLast ':' value with
  | some (literal, token) =>
    if (TokenType.ofToken? token).isSome then (Text.trim literal, some (Text.trim token))
    else (value, none)
  | none => (value, none)

/-- Reads what follows the closing quote of a literal. -/
def readTail (literal tail : List Char) :
    Except ArgumentError (List Char × Option (List Char)) :=
  match Text.trim tail with
  | [] => .ok (splitKnownToken literal)
  | ':' :: r =>
    match Text.trim r with
    | [] => .error (.trailing (String.ofList (':' :: r)))
    | token => .ok (literal, some token)
  | junk => .error (.trailing (String.ofList junk))

/-- Reads the trimmed text after the name: a literal and a token. -/
def readValue : List Char → Except ArgumentError (List Char × Option (List Char))
  | '"' :: quoted =>
    match Text.splitFirst '"' quoted with
    | some (literal, tail) => readTail literal tail
    | none => .error .unterminated
  | value => .ok (splitKnownToken value)

/-- Reads a trial argument. -/
def parse (expression : String) : Except ArgumentError TrialArgument :=
  match Text.splitFirst ':' expression.toList with
  | none => .error .noSeparator
  | some (before, after) =>
    if (Text.trim before).isEmpty then .error .emptyName
    else
      match readValue (Text.trim after) with
      | .error e => .error e
      | .ok (literal, token) =>
        .ok ⟨String.ofList (Text.trim before), String.ofList literal, token.map String.ofList⟩

end TrialArgument

/-- The text of an argument error. -/
def ArgumentError.message : ArgumentError → String
  | noSeparator => "expected 'name: \"value\"'"
  | emptyName => "parameter name cannot be empty"
  | unterminated => "unterminated string literal"
  | trailing text => "unexpected '" ++ text ++ "' after the value"

end Sprocket
