import Sprocket.Number.Binary
import Sprocket.Number.Integer
import Sprocket.Text.Ascii

/-!
# Floating-point literals

A literal is an optional sign followed by `inf`, `infinity` or `nan` in any ASCII case, or by
decimal digits with an optional point and an optional exponent; at least one digit stands before
the exponent. Its value is the nearest number of a binary format.
-/

namespace Sprocket.Number

/-- A floating-point literal: `decimal s d e` is `d · 10^e`, negated if `s` is set. -/
inductive Literal where
  | nan
  | infinity (negative : Bool)
  | decimal (negative : Bool) (digits : Nat) (exponent : Int)
  deriving DecidableEq, Repr

/-- Reads the exponent of a literal: nothing, or `e` and an integer. -/
def readExponent? : List Char → Option Int
  | [] => some 0
  | c :: r => if c = 'e' ∨ c = 'E' then readInteger? true r else none

/-- Reads the digits of a literal without its sign. -/
def readUnsigned? (negative : Bool) (s : List Char) : Option Literal :=
  let whole := s.takeWhile Char.isDigit
  let rest := s.dropWhile Char.isDigit
  let fraction := match rest with
    | '.' :: r => r.takeWhile Char.isDigit
    | _ => []
  let tail := match rest with
    | '.' :: r => r.dropWhile Char.isDigit
    | _ => rest
  if whole.isEmpty && fraction.isEmpty then none
  else (readExponent? tail).map fun e =>
    .decimal negative (ofDigits (whole ++ fraction)) (e - (fraction.length : Int))

/-- Reads a literal after its sign. -/
def readMagnitude? (negative : Bool) (s : List Char) : Option Literal :=
  if Text.equalIgnoringCase s "inf".toList || Text.equalIgnoringCase s "infinity".toList then
    some (.infinity negative)
  else if Text.equalIgnoringCase s "nan".toList then some .nan
  else readUnsigned? negative s

/-- Reads a floating-point literal. -/
def readLiteral? : List Char → Option Literal
  | '+' :: r => readMagnitude? false r
  | '-' :: r => readMagnitude? true r
  | s => readMagnitude? false s

/-- The number of a format nearest to `digits · 10^exponent`. Powers of ten that put any value
beyond the greatest or below the least number of a format are not computed. -/
def Format.ofDecimal (format : Format) (negative : Bool) (digits : Nat) (exponent : Int) :
    Floating :=
  let zero := Floating.finite negative 0 format.minExponent
  let nearest (num den : Nat) : Floating :=
    match format.round num den with
    | some (m, e) => .finite negative m e
    | none => .infinite negative
  if digits = 0 then zero
  else if 400 < exponent then .infinite negative
  else if exponent < -(400 + (digits.log2 : Int)) then zero
  else if 0 ≤ exponent then nearest (digits * Nat.pow 10 exponent.toNat) 1
  else nearest digits (Nat.pow 10 (-exponent).toNat)

/-- The number of a format that a literal stands for. -/
def Literal.value (format : Format) : Literal → Floating
  | nan => .nan
  | infinity negative => .infinite negative
  | decimal negative digits exponent => format.ofDecimal negative digits exponent

/-- Reads a literal as a number of a format. -/
def readFloating? (format : Format) (s : List Char) : Option Floating :=
  (readLiteral? s).map (·.value format)

end Sprocket.Number
