/-!
# ASCII case and classes

Case folding and character classes that touch the ASCII letters only: type names, tokens and
file extensions are compared this way, and every other character stands for itself.
-/

namespace Sprocket.Text

/-- The text with its ASCII capitals turned into small letters. -/
def asciiLower (s : List Char) : List Char := s.map Char.toLower

/-- Whether two texts are equal up to the case of ASCII letters. -/
def equalIgnoringCase (s t : List Char) : Bool := asciiLower s == asciiLower t

/-- Whether a character is an ASCII hexadecimal digit. -/
def isHexDigit (c : Char) : Bool :=
  c.isDigit || ('a' ≤ c && c ≤ 'f') || ('A' ≤ c && c ≤ 'F')

/-- The value of a hexadecimal digit. -/
def hexValue (c : Char) : Nat :=
  if c.isDigit then c.toNat - '0'.toNat
  else if 'a' ≤ c then c.toNat - 'a'.toNat + 10
  else c.toNat - 'A'.toNat + 10

/-- Whether a character may stand inside an identifier: an ASCII letter or digit, or `_`. -/
def isWordChar (c : Char) : Bool := c.isAlphanum || c == '_'

/-- The digit characters of a number below sixteen, in small letters. -/
def hexDigit (n : Nat) : Char :=
  if n < 10 then Char.ofNat ('0'.toNat + n) else Char.ofNat ('a'.toNat + (n - 10))

/-- A number in hexadecimal, at least `width` digits wide, with the lowest digit last. -/
def hexDigits : Nat → Nat → List Char
  | 0, _ => []
  | width + 1, n => hexDigits width (n / 16) ++ [hexDigit (n % 16)]

end Sprocket.Text
