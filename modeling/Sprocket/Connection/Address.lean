import Sprocket.Number.Integer
import Sprocket.Text.Ascii
import Sprocket.Text.Split

/-!
# Network addresses

The two written forms of a network address: four decimal numbers between points, and eight
hexadecimal groups between colons, of which one run of zero groups may be left out and the last two
may be written as a dotted address.
-/

namespace Sprocket.Connection.Address

/-- One number of a dotted address: at most three digits, at most 255, no needless zero in front. -/
def isOctet (s : List Char) : Bool :=
  match Number.readDigits? s with
  | none => false
  | some n => n ≤ 255 && s.length ≤ 3 && (s.length = 1 || s.head? != some '0')

/-- Whether a text is a dotted address. -/
def isDotted (s : List Char) : Bool :=
  let octets := Text.pieces '.' s
  octets.length = 4 && octets.all isOctet

/-- Whether a text is one hexadecimal group. -/
def isGroup (s : List Char) : Bool := !s.isEmpty && s.length ≤ 4 && s.all Text.isHexDigit

/-- How many groups a list of texts stands for, where a dotted address may be `last`. -/
def groupCount? (last : Bool) : List (List Char) → Option Nat
  | [] => some 0
  | [s] => if isGroup s then some 1 else if last && isDotted s then some 2 else none
  | s :: rest => if isGroup s then (groupCount? last rest).map (· + 1) else none

/-- The texts between colons; the empty text has none. -/
def groups (s : List Char) : List (List Char) := if s.isEmpty then [] else Text.pieces ':' s

/-- Whether a text is an address of eight groups. -/
def isGrouped (s : List Char) : Bool :=
  match Text.splitAtText [':', ':'] s with
  | none => groupCount? true (groups s) == some 8
  | some (front, back) =>
    match groupCount? false (groups front), groupCount? true (groups back) with
    | some m, some n => m + n ≤ 7
    | _, _ => false

/-- Whether a text is a network address. -/
def isAddress (s : String) : Bool := isDotted s.toList || isGrouped s.toList

end Sprocket.Connection.Address
