import Sprocket.HostType
import Sprocket.Number.Literal
import Sprocket.Number.Shortest
import Sprocket.Text.Ascii
import Sprocket.Text.Blank
import Sprocket.Text.Split

/-!
# Sample values

A literal converted to a host type. Numbers are read exactly and checked against the range of
their type; decimals keep their spelling; texts and times keep every character, blanks included.
-/

namespace Sprocket

/-- A converted sample value. -/
inductive TrialValue where
  | integer (value : Int)
  | float (value : Number.Floating)
  | decimal (text : String)
  | boolean (value : Bool)
  | guid (text : String)
  | text (text : String)
  deriving DecidableEq, Repr

namespace TrialValue

/-- The range of the integer host types. -/
def integerRange? : HostType → Option Number.IntRange
  | .byte => some Number.byteRange
  | .int16 => some Number.int16Range
  | .int32 => some Number.int32Range
  | .int64 => some Number.int64Range
  | _ => none

/-- Reads a number for a type of thirty-two bits. The value keeps the precision of sixty-four;
only a finite literal beyond the range of thirty-two bits is refused. -/
def readSingle? (s : List Char) : Option Number.Floating := do
  let single ← Number.readFloating? Number.binary32 s
  let double ← Number.readFloating? Number.binary64 s
  if single.isFinite || !double.isFinite then some double else none

/-- The text after an optional sign. -/
def afterSign : List Char → List Char
  | '+' :: r => r
  | '-' :: r => r
  | s => s

/-- Whether a text is a decimal: an optional sign, then digits with at most one point among them
and at least one digit. -/
def isDecimal (s : List Char) : Bool :=
  let parts := (Text.splitFirst '.' (afterSign s)).getD (afterSign s, [])
  !(parts.1.isEmpty && parts.2.isEmpty) && parts.1.all Char.isDigit && parts.2.all Char.isDigit

/-- Reads a truth value: `true`, `false`, `1` or `0` in any ASCII case. -/
def readBoolean? (s : List Char) : Option Bool :=
  let word := String.ofList (Text.asciiLower s)
  if word = "true" ∨ word = "1" then some true
  else if word = "false" ∨ word = "0" then some false
  else none

/-- The lengths of the groups of a unique identifier. -/
def guidLengths : List Nat := [8, 4, 4, 4, 12]

/-- Whether a text is a unique identifier: five groups of hexadecimal digits. -/
def isGuid (s : List Char) : Bool :=
  let groups := Text.pieces '-' s
  groups.map List.length == guidLengths && groups.all (·.all Text.isHexDigit)

/-- Converts a literal to a host type, if it is a literal of that type. -/
def convert (literal : String) (host : HostType) : Option TrialValue :=
  let trimmed := Text.trim literal.toList
  match host with
  | .byte | .int16 | .int32 | .int64 => do
    let range ← integerRange? host
    integer <$> range.read? trimmed
  | .single => float <$> readSingle? trimmed
  | .double => float <$> Number.readFloating? Number.binary64 trimmed
  | .decimal => if isDecimal trimmed then some (decimal (String.ofList trimmed)) else none
  | .boolean => boolean <$> readBoolean? trimmed
  | .guid =>
    if isGuid trimmed then some (guid (String.ofList (Text.asciiLower trimmed))) else none
  | .string | .dateTime | .dateTimeOffset | .timeSpan | .binary | .object => some (text literal)

/-- The text a value is sent as. -/
def display : TrialValue → String
  | integer n => Number.displayInt n
  | float x => x.display Number.binary64
  | boolean b => if b then "true" else "false"
  | decimal s => s
  | guid s => s
  | text s => s

end TrialValue

end Sprocket
