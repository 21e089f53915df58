import Sprocket.Text.Split
import Sprocket.Toml.Value

/-!
# TOML scalars

Values written as a single word: truth values, integers, floating-point numbers, dates and times.
A word is read as a whole or not at all.
-/

namespace Sprocket.Toml

/-- Whether a character may stand in a word. -/
def isWordChar (c : Char) : Bool := c.isAlphanum || "_+-.:".toList.contains c

/-- The text without the underscores between its digits; none where an underscore stands next to
anything but two digits, or where there is no digit. -/
def joinDigits? (isDigit : Char → Bool) : List Char → Option (List Char)
  | [] => none
  | [c] => if isDigit c then some [c] else none
  | c :: '_' :: r => if isDigit c then (joinDigits? isDigit r).map (c :: ·) else none
  | c :: r => if isDigit c then (joinDigits? isDigit r).map (c :: ·) else none

/-- The value of digits in a base. -/
def valueInBase (base : Nat) (digits : List Char) : Nat :=
  digits.foldl (fun n d => base * n + Text.hexValue d) 0

/-- Whether a character is a digit of a base up to sixteen. -/
def isDigitOf (base : Nat) (c : Char) : Bool := Text.isHexDigit c && Text.hexValue c < base

/-- The digits of a decimal number without a leading zero. -/
def wholeDigits? (s : List Char) : Option (List Char) := do
  let digits ← joinDigits? Char.isDigit s
  if 1 < digits.length && digits.head? == some '0' then none else some digits

/-- Reads an integer. -/
def integer? : List Char → Option Int
  | '0' :: 'x' :: r => (joinDigits? (isDigitOf 16) r).map fun d => Int.ofNat (valueInBase 16 d)
  | '0' :: 'o' :: r => (joinDigits? (isDigitOf 8) r).map fun d => Int.ofNat (valueInBase 8 d)
  | '0' :: 'b' :: r => (joinDigits? (isDigitOf 2) r).map fun d => Int.ofNat (valueInBase 2 d)
  | '-' :: r => (wholeDigits? r).map fun d => -Int.ofNat (Number.ofDigits d)
  | '+' :: r => (wholeDigits? r).map fun d => Int.ofNat (Number.ofDigits d)
  | s => (wholeDigits? s).map fun d => Int.ofNat (Number.ofDigits d)

/-- The text after an optional sign. -/
def afterSign : List Char → List Char
  | '+' :: r => r
  | '-' :: r => r
  | s => s

/-- Whether a text is what follows the whole part of a floating-point number: a fraction, an
exponent, or both. -/
def isFloatTail : List Char → Bool
  | '.' :: r =>
    let fraction := r.takeWhile fun c => c != 'e' && c != 'E'
    (joinDigits? Char.isDigit fraction).isSome
      && (match r.drop fraction.length with
        | [] => true
        | _ :: exponent => (joinDigits? Char.isDigit (afterSign exponent)).isSome)
  | _ :: exponent => (joinDigits? Char.isDigit (afterSign exponent)).isSome
  | [] => false

/-- Reads a floating-point number. -/
def float? (s : List Char) : Option Number.Literal :=
  let unsigned := afterSign s
  if unsigned == "inf".toList then some (.infinity (s.head? == some '-'))
  else if unsigned == "nan".toList then some .nan
  else
    let whole := unsigned.takeWhile fun c => c != '.' && c != 'e' && c != 'E'
    if (wholeDigits? whole).isSome && isFloatTail (unsigned.drop whole.length) then
      Number.readLiteral? (s.filter (· != '_'))
    else none

/-- The number of days of a month. -/
def daysOfMonth (year month : Nat) : Nat :=
  if month = 2 then
    if year % 4 = 0 ∧ (year % 100 ≠ 0 ∨ year % 400 = 0) then 29 else 28
  else if month = 4 ∨ month = 6 ∨ month = 9 ∨ month = 11 then 30 else 31

/-- Reads a number of exactly `width` digits. -/
def fixed? (width : Nat) (s : List Char) : Option (Nat × List Char) :=
  let digits := s.take width
  if digits.length = width ∧ digits.all Char.isDigit then
    some (Number.ofDigits digits, s.drop width)
  else none

/-- The rest after a given character. -/
def after? (c : Char) : List Char → Option (List Char)
  | d :: r => if d = c then some r else none
  | [] => none

/-- The rest after a date. -/
def date? (s : List Char) : Option (List Char) := do
  let (year, r) ← fixed? 4 s
  let (month, r) ← fixed? 2 (← after? '-' r)
  let (day, r) ← fixed? 2 (← after? '-' r)
  if 1 ≤ month ∧ month ≤ 12 ∧ 1 ≤ day ∧ day ≤ daysOfMonth year month then some r else none

/-- The rest after a fraction of a second, if there is one. -/
def fraction? : List Char → Option (List Char)
  | '.' :: r => if (r.takeWhile Char.isDigit).isEmpty then none else some (r.dropWhile Char.isDigit)
  | s => some s

/-- The rest after the seconds of a time, if there are any. -/
def seconds? : List Char → Option (List Char)
  | ':' :: r => do
    let (second, r) ← fixed? 2 r
    if second ≤ 60 then fraction? r else none
  | s => some s

/-- The rest after a time of day. -/
def time? (s : List Char) : Option (List Char) := do
  let (hour, r) ← fixed? 2 s
  let (minute, r) ← fixed? 2 (← after? ':' r)
  if hour ≤ 23 ∧ minute ≤ 59 then seconds? r else none

/-- Whether a text is the offset of a time, or nothing. -/
def isOffset : List Char → Bool
  | [] => true
  | ['Z'] => true
  | ['z'] => true
  | c :: r =>
    let read : Option (List Char) := do
      let (hour, r) ← fixed? 2 r
      let (minute, r) ← fixed? 2 (← after? ':' r)
      if hour ≤ 23 ∧ minute ≤ 59 then some r else none
    (c == '+' || c == '-') && read == some []

/-- Whether a text is a date, a time, or a date and a time with an optional offset. -/
def isMoment (s : List Char) : Bool :=
  match date? s with
  | some [] => true
  | some (c :: r) =>
    (c == 'T' || c == 't' || c == ' ') && ((time? r).map isOffset).getD false
  | none => time? s == some []

/-- Reads a word as a value. -/
def scalar? (word : List Char) : Option Value :=
  if word == "true".toList then some (.boolean true)
  else if word == "false".toList then some (.boolean false)
  else
    match integer? word, float? word with
    | some n, _ => some (.integer n)
    | none, some x => some (.float x)
    | none, none => if isMoment word then some (.moment (String.ofList word)) else none

/-- The word at the front of a text. A time may follow a date after a single space. -/
def takeWord (s : List Char) : List Char × List Char :=
  let word := s.takeWhile isWordChar
  let rest := s.drop word.length
  match rest with
  | ' ' :: d :: r =>
    if date? word == some [] && d.isDigit then
      let time := (d :: r).takeWhile isWordChar
      (word ++ ' ' :: time, (d :: r).drop time.length)
    else (word, rest)
  | _ => (word, rest)

end Sprocket.Toml
