import Sprocket.Text.Ascii
import Sprocket.Text.Offset

/-!
# Locating settings

Where a setting `key = "value"` stands in the text of a manifest. Both kinds of quotes are found,
with or without a space on each side of the equals sign. A key counts only if it is not the tail of
a longer one. The span covers the value without its quotes.
-/

namespace Sprocket

/-- A stretch of text, in bytes. -/
structure Span where
  offset : Nat
  length : Nat
  deriving DecidableEq, Repr

namespace Locate

/-- The spellings of a setting that are found. -/
def spellings (key value : List Char) : List (List Char) :=
  [key ++ " = \"".toList ++ value ++ ['"'], key ++ "=\"".toList ++ value ++ ['"'],
    key ++ " = '".toList ++ value ++ ['\''], key ++ "='".toList ++ value ++ ['\'']]

/-- Whether a key may begin after a character. -/
def startsKey : Option Char → Bool
  | none => true
  | some c => !Text.isWordChar c

/-- Puts a number into a list in ascending order. -/
def insertNat (n : Nat) : List Nat → List Nat
  | [] => [n]
  | m :: rest => if n ≤ m then n :: m :: rest else m :: insertNat n rest

/-- Numbers in ascending order. -/
def sortNat (ns : List Nat) : List Nat := ns.foldr insertNat []

/-- The offsets of the value in every setting of a key to it, in the order of the text. -/
def valueOffsets (source key value : List Char) : List Nat :=
  sortNat ((spellings key value).flatMap fun spelling =>
    ((Text.occurrences spelling source).filter fun hit => startsKey hit.before).map fun hit =>
      hit.offset + Text.byteLength spelling - Text.byteLength value - 1)

/-- The value of the setting of a key to it that stands after `n` others. -/
def valueSpan? (source : String) (key value : String) (n : Nat) : Option Span :=
  (valueOffsets source.toList key.toList value.toList)[n]?.map fun offset =>
    ⟨offset, Text.byteLength value.toList⟩

end Locate

end Sprocket
