import Sprocket.Text.Lowercase

/-!
# Names in generated code

A server marks the names of parameters with `@`. Generated identifiers drop the marks, and client
code may ask for a small first letter besides.
-/

namespace Sprocket.Naming

/-- Whether a character marks a remote name. -/
def isMarker (c : Char) : Bool := c == '@'

/-- A remote name without its marks, on characters. -/
def unmarked (s : List Char) : List Char := s.filter (!isMarker ·)

/-- A client identifier on characters: no marks, and a small first letter if `camel` is set. -/
def clientChars (camel : Bool) (s : List Char) : List Char :=
  if camel then Text.lowerFirst (unmarked s) else unmarked s

/-- The identifier of a remote name in host code. -/
def field (name : String) : String := String.ofList (unmarked name.toList)

/-- The identifier of a remote name in client code. -/
def client (camel : Bool) (name : String) : String :=
  String.ofList (clientChars camel name.toList)

theorem mem_unmarked {s : List Char} {c : Char} : c ∈ unmarked s ↔ c ∈ s ∧ c ≠ '@' := by
  simp [unmarked, isMarker]

theorem unmarked_eq_self_iff {s : List Char} : unmarked s = s ↔ '@' ∉ s := by
  constructor
  · intro h hmark
    rw [← h] at hmark
    exact (mem_unmarked.1 hmark).2 rfl
  · intro h
    refine List.filter_eq_self.2 fun c hc => ?_
    have hne : c ≠ '@' := by
      rintro rfl
      exact h hc
    simpa [isMarker] using hne

theorem unmarked_eq_nil_iff {s : List Char} : unmarked s = [] ↔ ∀ c ∈ s, c = '@' := by
  simp [unmarked, isMarker]

end Sprocket.Naming
