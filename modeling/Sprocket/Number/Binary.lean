/-!
# Binary floating point

Floating-point numbers as exact values: a finite one is a sign, a whole number and a power of two.
`Format.round` gives the nearest value of a format to a fraction, with ties to the even
neighbour.
-/

namespace Sprocket.Number

/-- A binary format: the bits of a whole part, and the least and greatest power of two it is
scaled by. -/
structure Format where
  precision : Nat
  minExponent : Int
  maxExponent : Int
  deriving DecidableEq, Repr

/-- Numbers of thirty-two bits. -/
def binary32 : Format := ⟨24, -149, 104⟩

/-- Numbers of sixty-four bits. -/
def binary64 : Format := ⟨53, -1074, 971⟩

/-- A floating-point number: `finite s m e` is `m · 2^e`, negated if `s` is set. -/
inductive Floating where
  | nan
  | infinite (negative : Bool)
  | finite (negative : Bool) (mantissa : Nat) (exponent : Int)
  deriving DecidableEq, Repr

/-- Whether a number is finite. -/
def Floating.isFinite : Floating → Bool
  | finite .. => true
  | _ => false

/-- The whole number nearest to `num / den`; of two, the even one. -/
def roundToEven (num den : Nat) : Nat :=
  let whole := num / den
  let rest := num % den
  if 2 * rest < den then whole
  else if den < 2 * rest then whole + 1
  else if whole % 2 = 0 then whole else whole + 1

/-- The greatest `e` with `2^e ≤ num / den`. -/
def binaryExponent (num den : Nat) : Int :=
  let guess : Int := (num.log2 : Int) - (den.log2 : Int)
  let reached :=
    if 0 ≤ guess then den * Nat.pow 2 guess.toNat ≤ num
    else den ≤ num * Nat.pow 2 (-guess).toNat
  if reached then guess else guess - 1

/-- The fraction `num / den` divided by `2^e`. -/
def scaleDown (num den : Nat) (e : Int) : Nat × Nat :=
  if 0 ≤ e then (num, den * Nat.pow 2 e.toNat) else (num * Nat.pow 2 (-e).toNat, den)

/-- The number of a format nearest to `num / den`, as a whole part and a power of two; none if it
lies beyond the greatest one. -/
def Format.round (format : Format) (num den : Nat) : Option (Nat × Int) :=
  if num = 0 then some (0, format.minExponent)
  else
    let e := max format.minExponent (binaryExponent num den - (format.precision : Int) + 1)
    let scaled := scaleDown num den e
    let mantissa := roundToEven scaled.1 scaled.2
    let result :=
      if mantissa = Nat.pow 2 format.precision then (mantissa / 2, e + 1) else (mantissa, e)
    if format.maxExponent < result.2 then none else some result

end Sprocket.Number
