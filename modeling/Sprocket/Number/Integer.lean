/-!
# Integer literals

An integer literal is an optional sign and one or more ASCII digits. The value is exact whatever
the number of digits; a range is checked afterwards.
-/

namespace Sprocket.Number

/-- The value of a list of decimal digits, the highest first. -/
def ofDigits (s : List Char) : Nat := s.foldl (fun n c => 10 * n + (c.toNat - '0'.toNat)) 0

/-- The value of one or more ASCII digits. -/
def readDigits? (s : List Char) : Option Nat :=
  if !s.isEmpty && s.all Char.isDigit then some (ofDigits s) else none

/-- The value of an integer literal; a minus sign is read only where `signed` allows one. -/
def readInteger? (signed : Bool) : List Char → Option Int
  | '+' :: r => (readDigits? r).map Int.ofNat
  | '-' :: r => if signed then (readDigits? r).map fun n => -Int.ofNat n else none
  | s => (readDigits? s).map Int.ofNat

/-- The values a fixed-width integer type holds. -/
structure IntRange where
  low : Int
  high : Int
  deriving DecidableEq, Repr

/-- Whether a range holds a value. -/
def IntRange.contains (range : IntRange) (n : Int) : Bool := range.low ≤ n && n ≤ range.high

/-- The range of eight bits without a sign. -/
def byteRange : IntRange := ⟨0, 255⟩

/-- The range of sixteen bits with a sign. -/
def int16Range : IntRange := ⟨-32768, 32767⟩

/-- The range of thirty-two bits with a sign. -/
def int32Range : IntRange := ⟨-2147483648, 2147483647⟩

/-- The range of sixty-four bits with a sign. -/
def int64Range : IntRange := ⟨-9223372036854775808, 9223372036854775807⟩

/-- Reads an integer literal whose value lies in a range; the sign is read where the range has
negative values. -/
def IntRange.read? (range : IntRange) (s : List Char) : Option Int :=
  (readInteger? (range.low < 0) s).filter range.contains

/-- The digits of an integer, with a sign in front of a negative one. -/
def displayInt (n : Int) : String :=
  match n with
  | .ofNat k => String.ofList (Nat.toDigits 10 k)
  | .negSucc k => "-" ++ String.ofList (Nat.toDigits 10 (k + 1))

end Sprocket.Number
