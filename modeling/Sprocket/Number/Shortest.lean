import Sprocket.Number.Binary

/-!
# Shortest decimals

The text of a floating-point number is the decimal with the fewest digits that reads back as the
number, and of those the nearest one; of two equally near ones, the greater. It is written without
an exponent, however many zeros that takes.
-/

namespace Sprocket.Number

/-- The numbers that round to a given one: from `low` to `high` in units of `2^exponent` around
`middle`, ends included if `closed` is set. -/
structure Rounding where
  low : Nat
  middle : Nat
  high : Nat
  exponent : Int
  closed : Bool
  deriving DecidableEq, Repr

/-- The rounding interval of `m · 2^e`. Below a power of two the neighbour is half as far away,
unless the format has no finer numbers there. -/
def Format.rounding (format : Format) (m : Nat) (e : Int) : Rounding :=
  let narrow := m = Nat.pow 2 (format.precision - 1) ∧ format.minExponent < e
  ⟨4 * m - (if narrow then 1 else 2), 4 * m, 4 * m + 2, e - 2, m % 2 == 0⟩

/-- Powers of two and ten brought to whole numbers: `a · 2^e` is compared with `b · 10^k` as
`a · fst` with `b · snd`. -/
def commonScale (e k : Int) : Nat × Nat :=
  (Nat.pow 2 e.toNat * Nat.pow 10 (-k).toNat, Nat.pow 10 k.toNat * Nat.pow 2 (-e).toNat)

/-- Whether `n · 10^k` lies in the rounding interval. -/
def Rounding.holds (r : Rounding) (n : Nat) (k : Int) : Bool :=
  let scale := commonScale r.exponent k
  let point := n * scale.2
  if r.closed then r.low * scale.1 ≤ point && point ≤ r.high * scale.1
  else r.low * scale.1 < point && point < r.high * scale.1

/-- The nearer of the two neighbours of the middle among the multiples of `10^k` that lie in the
interval. -/
def Rounding.onGrid? (r : Rounding) (k : Int) : Option Nat :=
  let scale := commonScale r.exponent k
  let below := r.middle * scale.1 / scale.2
  let gapBelow := r.middle * scale.1 - below * scale.2
  let gapAbove := (below + 1) * scale.2 - r.middle * scale.1
  match r.holds below k, r.holds (below + 1) k with
  | true, true => some (if gapAbove ≤ gapBelow then below + 1 else below)
  | true, false => some below
  | false, true => some (below + 1)
  | false, false => none

/-- The least `k` with `m · 2^e < 10^k`, for `m` at least one. -/
def decimalExponent (m : Nat) (e : Int) : Int :=
  let guess := ((m.log2 : Int) + e) * 30103 / 100000 + 1
  let below (k : Int) : Bool :=
    let scale := commonScale e k
    m * scale.1 < scale.2
  if below (guess - 1) then guess - 1 else if below guess then guess else guess + 1

/-- Searches ever finer grids for the first point of the interval; `count` grids are tried. -/
def Rounding.search (r : Rounding) : Nat → Int → Nat × Int
  | 0, k => ((r.onGrid? k).getD 0, k)
  | count + 1, k =>
    match r.onGrid? k with
    | some n => (n, k)
    | none => r.search count (k - 1)

/-- The shortest decimal `n · 10^k` that reads back as `m · 2^e`, for `m` at least one. -/
def Format.shortest (format : Format) (m : Nat) (e : Int) : Nat × Int :=
  (format.rounding m e).search format.precision (decimalExponent m e - 1)

/-- The digits of `n · 10^k` without an exponent. -/
def positional (n : Nat) (k : Int) : List Char :=
  let digits := Nat.toDigits 10 n
  if 0 ≤ k then digits ++ List.replicate k.toNat '0'
  else
    let places := (-k).toNat
    let padded := List.replicate (places + 1 - digits.length) '0' ++ digits
    let whole := padded.take (padded.length - places)
    let fraction := ((padded.drop (padded.length - places)).reverse.dropWhile (· == '0')).reverse
    if fraction.isEmpty then whole else whole ++ '.' :: fraction

/-- The text of a number of a format. -/
def Floating.display (format : Format) : Floating → String
  | nan => "NaN"
  | infinite negative => if negative then "-inf" else "inf"
  | finite negative m e =>
    let digits :=
      if m = 0 then ['0']
      else
        let decimal := format.shortest m e
        positional decimal.1 decimal.2
    String.ofList (if negative then '-' :: digits else digits)

end Sprocket.Number
