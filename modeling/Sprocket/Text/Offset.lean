/-!
# Positions in text

Positions and lengths are counted in bytes of UTF-8. `occurrences` walks a text once, from left
to right, and reports where a pattern occurs; a reported occurrence is never overlapped by the
next one.
-/

namespace Sprocket.Text

/-- The number of bytes of a text in UTF-8. -/
def byteLength : List Char → Nat
  | [] => 0
  | c :: r => c.utf8Size + byteLength r

/-- One occurrence of a pattern: the byte it starts at and the character in front of it. -/
structure Occurrence where
  offset : Nat
  before : Option Char
  deriving DecidableEq, Repr

/-- The occurrences of `pattern` in the rest of a text, of which `skip` characters belong to the
occurrence just reported. -/
def occurrencesFrom (pattern : List Char) :
    Nat → Nat → Option Char → List Char → List Occurrence
  | _, _, _, [] => []
  | skip + 1, offset, _, c :: r =>
    occurrencesFrom pattern skip (offset + c.utf8Size) (some c) r
  | 0, offset, before, c :: r =>
    if pattern.isPrefixOf (c :: r) then
      ⟨offset, before⟩ ::
        occurrencesFrom pattern (pattern.length - 1) (offset + c.utf8Size) (some c) r
    else occurrencesFrom pattern 0 (offset + c.utf8Size) (some c) r

/-- The occurrences of a pattern that is not empty, from left to right and without overlap. -/
def occurrences (pattern s : List Char) : List Occurrence :=
  occurrencesFrom pattern 0 0 none s

@[simp] theorem byteLength_nil : byteLength [] = 0 := rfl

@[simp] theorem byteLength_append (s t : List Char) :
    byteLength (s ++ t) = byteLength s + byteLength t := by
  induction s with
  | nil => simp
  | cons c r ih => rw [List.cons_append, byteLength, byteLength, ih, Nat.add_assoc]

end Sprocket.Text
