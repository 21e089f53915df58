import Mathlib.Data.List.TakeDrop
import Sprocket.Sql.Call

/-!
# Calls that can be read back

The statement of a call holds names between quotes, and a name may hold anything, quotes and other
statements included. A reader that knows nothing of how a call is written, only how a server reads
quoted identifiers, gets back all that went into the statement.

* `Naming.markless`: a name as a call names an argument;
* `readQuoted`: the identifier up to the quote that closes it;
* `CallStatement`, `readCall`: what a statement calls;
* `readQuoted_escapeQuotes`, `readArgument_argument`: what is written of one part is read back,
  whatever stands behind it;
* `readCall_call`: a statement is read back;
* `call_reads_back`: and so it differs from those of all other calls.
-/

namespace Sprocket

namespace Naming

/-- A name without any mark. -/
def markless (name : String) : String := String.ofList (name.toList.filter (· != '@'))

/-- Host code drops every mark of a name. -/
theorem field_eq (name : String) : field name = markless name := rfl

end Naming

namespace Sql

/-! ### Reading a statement -/

/-- One argument of a call: the parameter, the number of the placeholder that is sent as text, and
the type it is cast to. -/
structure CallArgument where
  name : String
  placeholder : Nat
  cast : String
  deriving DecidableEq, Repr

/-- What a statement calls. -/
structure CallStatement where
  kind : RoutineKind
  schema : Option String
  name : String
  arguments : List CallArgument
  deriving DecidableEq, Repr

/-- Reads an identifier behind the quote that opens it: two quotes stand for one, and a single one
closes it. -/
def readQuoted : List Char → Option (List Char × List Char)
  | [] => none
  | '"' :: '"' :: r => (readQuoted r).map fun parts => ('"' :: parts.1, parts.2)
  | '"' :: r => some ([], r)
  | c :: r => (readQuoted r).map fun parts => (c :: parts.1, parts.2)

/-- Reads a quoted identifier. -/
def readIdentifier : List Char → Option (String × List Char)
  | '"' :: r => (readQuoted r).map fun parts => (String.ofList parts.1, parts.2)
  | _ => none

/-- Reads the words a call begins with. -/
def readKind (s : List Char) : Option (RoutineKind × List Char) :=
  match Text.dropMark? "SELECT * FROM ".toList s with
  | some r => some (.function, r)
  | none => (Text.dropMark? "CALL ".toList s).map fun r => (.procedure, r)

/-- Reads a routine: its name, behind its schema and a dot if it has one. -/
def readTarget (s : List Char) : Option ((Option String × String) × List Char) :=
  match readIdentifier s with
  | none => none
  | some (schema, '.' :: r) => (readIdentifier r).map fun parts => ((some schema, parts.1), parts.2)
  | some (name, r) => some ((none, name), r)

/-- Whether a character may stand in the name of a type. -/
def isTypeChar (c : Char) : Bool := c.isAlpha || c == ' '

/-- Reads an argument: a name, a numbered placeholder for a text, and the type it is cast to. -/
def readArgument (s : List Char) : Option (CallArgument × List Char) := do
  let (name, s) ← readIdentifier s
  let s ← Text.dropMark? " => ($".toList s
  let (digits, s) := s.span Char.isDigit
  let s ← Text.dropMark? "::text)::".toList s
  let (cast, s) := s.span isTypeChar
  some (⟨name, Nat.ofDigitChars 10 digits 0, String.ofList cast⟩, s)

/-- Reads arguments with commas between them up to the parenthesis that closes them, at most as
many as are asked for. -/
def readArguments : Nat → List Char → Option (List CallArgument × List Char)
  | 0, _ => none
  | most + 1, s => do
    let (argument, s) ← readArgument s
    match s with
    | ')' :: r => some ([argument], r)
    | _ => do
      let r ← Text.dropMark? ", ".toList s
      let (others, r) ← readArguments most r
      some (argument :: others, r)

/-- Reads the arguments behind the parenthesis that opens them; there may be none. -/
def readArgumentList : List Char → Option (List CallArgument × List Char)
  | ')' :: r => some ([], r)
  | s => readArguments s.length s

/-- Reads a statement as a call, if it is one and nothing else. -/
def readCall (s : List Char) : Option CallStatement := do
  let (kind, s) ← readKind s
  let ((schema, name), s) ← readTarget s
  let s ← Text.dropMark? "(".toList s
  let (arguments, s) ← readArgumentList s
  if s.isEmpty then some ⟨kind, schema, name, arguments⟩ else none

/-! ### Parts -/

/-- **An identifier ends where it is closed.** It is read back whatever it holds, if what stands
behind it is not a quote. -/
theorem readQuoted_escapeQuotes (s : List Char) {rest : List Char} (hrest : rest.head? ≠ some '"') :
    readQuoted (escapeQuotes s ++ '"' :: rest) = some (s, rest) := by
  induction s with
  | nil =>
    have hnot : ∀ r, rest ≠ '"' :: r := by
      rintro r rfl
      exact hrest rfl
    simp [escapeQuotes, readQuoted]
  | cons c s ih =>
    by_cases hc : c = '"'
    · subst hc
      simpa [escapeQuotes, readQuoted] using ih
    · simpa [escapeQuotes, readQuoted, hc] using ih

theorem readIdentifier_quote (name : String) (rest : List Char) (hrest : rest.head? ≠ some '"') :
    readIdentifier ((quote name).toList ++ rest) = some (name, rest) := by
  simp [quote, quoteChars, readIdentifier, readQuoted_escapeQuotes _ hrest]

theorem readKind_opening (kind : RoutineKind) (rest : List Char) :
    readKind (kind.opening.toList ++ rest) = some (kind, rest) := by
  cases kind with
  | function => rfl
  | procedure => rfl

theorem readTarget_target (schema : Option String) (name : String) (rest : List Char)
    (hquote : rest.head? ≠ some '"') (hdot : rest.head? ≠ some '.') :
    readTarget ((target schema name).toList ++ rest) = some ((schema, name), rest) := by
  cases schema with
  | none =>
    simp only [target, readTarget, readIdentifier_quote name rest hquote]
    split
    · simp_all
    · simp_all
    · simp_all
  | some schema =>
    have hname := readIdentifier_quote name rest hquote
    have hschema := readIdentifier_quote schema ('.' :: ((quote name).toList ++ rest)) (by simp)
    simp only [target, readTarget, String.toList_append, List.append_assoc, String.reduceToList,
      List.cons_append, List.nil_append, hschema, hname, Option.map_some]

/-- Characters of a kind end where one of another kind comes. -/
theorem span_append {p : Char → Bool} {s : List Char} (hs : ∀ c ∈ s, p c = true)
    (rest : List Char) (hrest : ∀ c ∈ rest.head?, p c = false) :
    (s ++ rest).span p = (s, rest) := by
  rw [List.span_eq_takeWhile_dropWhile, List.takeWhile_append_of_pos hs,
    List.dropWhile_append_of_pos hs]
  cases rest with
  | nil => simp
  | cons c rest => simp [hrest c rfl]

theorem isTypeChar_of_mem_castName (type : BindType) :
    ∀ c ∈ type.castName.toList, isTypeChar c = true := by
  rw [← List.all_eq_true]
  cases type <;> decide

/-- The argument that a binding stands for under a number. -/
def CallArgument.ofBinding (binding : TrialBinding) (number : Nat) : CallArgument :=
  ⟨Naming.markless binding.name, number, binding.type.bind.castName⟩

theorem readArgument_argument (number : Nat) (binding : TrialBinding) (rest : List Char)
    (hrest : ∀ c ∈ rest.head?, isTypeChar c = false) :
    readArgument ((argument number binding).toList ++ rest) =
      some (.ofBinding binding number, rest) := by
  have hdigits : ∀ c ∈ Nat.toDigits 10 number, c.isDigit = true := fun c hc =>
    Nat.isDigit_of_mem_toDigits (by decide) (by decide) hc
  have hnumber := span_append hdigits
    ("::text)::".toList ++ (binding.type.bind.castName.toList ++ rest)) (by simp)
  have hcast := span_append (isTypeChar_of_mem_castName binding.type.bind) rest hrest
  have hname := readIdentifier_quote (Naming.markless binding.name)
    (" => ($".toList ++ (Nat.toDigits 10 number ++ ("::text)::".toList ++
      (binding.type.bind.castName.toList ++ rest)))) (by simp)
  simp only [argument, Naming.field_eq, readArgument, String.toList_append, List.append_assoc,
    Nat.toString_eq_ofList_toDigits, String.toList_ofList, hname, Option.bind_eq_bind,
    Option.bind_some, Text.dropMark?_append, hnumber, hcast, Nat.ofDigitChars_ten_toDigits,
    String.ofList_toList]
  rfl

/-! ### Lists of arguments -/

/-- The arguments that bindings stand for, numbered in order. -/
def argumentsOf (first : Nat) (bindings : List TrialBinding) : List CallArgument :=
  (bindings.zipIdx first).map fun numbered => .ofBinding numbered.1 numbered.2

/-- The text of arguments, on characters. -/
def argumentChars (first : Nat) (bindings : List TrialBinding) : List Char :=
  (", ".intercalate (argumentsFrom first bindings)).toList

@[simp] theorem argumentChars_singleton (first : Nat) (binding : TrialBinding) :
    argumentChars first [binding] = (argument first binding).toList := by
  simp [argumentChars, argumentsFrom]

theorem argumentChars_cons_cons (first : Nat) (binding next : TrialBinding)
    (others : List TrialBinding) :
    argumentChars first (binding :: next :: others) =
      (argument first binding).toList ++
        (", ".toList ++ argumentChars (first + 1) (next :: others)) := by
  simp [argumentChars, argumentsFrom]

theorem head?_argument (first : Nat) (binding : TrialBinding) :
    (argument first binding).toList.head? = some '"' := by
  simp [argument, quote, quoteChars]

theorem head?_argumentChars (first : Nat) (binding : TrialBinding) (others : List TrialBinding) :
    (argumentChars first (binding :: others)).head? = some '"' := by
  cases others with
  | nil => rw [argumentChars_singleton, head?_argument]
  | cons next others =>
    rw [argumentChars_cons_cons, List.head?_append, head?_argument, Option.some_or]

/-- A text of arguments is at least as long as there are arguments. -/
theorem length_le_length_argumentChars (first : Nat) (bindings : List TrialBinding) :
    bindings.length ≤ (argumentChars first bindings).length := by
  induction bindings generalizing first with
  | nil => simp
  | cons binding others ih =>
    cases others with
    | nil =>
      have hhead := head?_argumentChars first binding []
      cases hchars : argumentChars first [binding] with
      | nil => simp [hchars] at hhead
      | cons => simp
    | cons next others =>
      have hothers := ih (first + 1)
      rw [argumentChars_cons_cons, List.length_append, List.length_append, List.length_cons]
      have hcomma : ", ".toList.length = 2 := rfl
      omega

/-- Arguments are read back up to the parenthesis that closes them. -/
theorem readArguments_argumentChars {bindings : List TrialBinding} (hbindings : bindings ≠ [])
    {first most : Nat} (hmost : bindings.length ≤ most) (rest : List Char) :
    readArguments most (argumentChars first bindings ++ ')' :: rest) =
      some (argumentsOf first bindings, rest) := by
  induction bindings generalizing first most with
  | nil => exact absurd rfl hbindings
  | cons binding others ih =>
    obtain ⟨most, rfl⟩ := Nat.exists_eq_add_of_lt (Nat.lt_of_lt_of_le others.length.succ_pos hmost)
    rw [Nat.zero_add] at hmost ⊢
    cases others with
    | nil =>
      have hargument := readArgument_argument first binding (')' :: rest) (by simp; decide)
      simp [readArguments, hargument, argumentsOf]
    | cons next others =>
      have hothers :
          readArguments most (argumentChars (first + 1) (next :: others) ++ ')' :: rest) =
            some (argumentsOf (first + 1) (next :: others), rest) :=
        ih (List.cons_ne_nil _ _) (Nat.le_of_succ_le_succ hmost)
      have hargument := readArgument_argument first binding (", ".toList ++
        (argumentChars (first + 1) (next :: others) ++ ')' :: rest)) (by simp; decide)
      rw [argumentChars_cons_cons, List.append_assoc, List.append_assoc, readArguments, hargument]
      simp only [Option.bind_eq_bind, Option.bind_some]
      split
      next hclose => simp at hclose
      next => simp only [Text.dropMark?_append, Option.bind_some, hothers, argumentsOf,
          List.zipIdx_cons, List.map_cons]

/-- The arguments of a call are read back, each under its number. -/
theorem readArgumentList_argumentChars (bindings : List TrialBinding) (rest : List Char) :
    readArgumentList (argumentChars 1 bindings ++ ')' :: rest) =
      some (argumentsOf 1 bindings, rest) := by
  cases bindings with
  | nil => rfl
  | cons binding others =>
    have hmost : (binding :: others).length ≤
        (argumentChars 1 (binding :: others) ++ ')' :: rest).length := by
      have hlength := length_le_length_argumentChars 1 (binding :: others)
      rw [List.length_append]
      omega
    unfold readArgumentList
    split
    next hclose =>
      have hhead := head?_argumentChars 1 binding others
      cases hchars : argumentChars 1 (binding :: others) with
      | nil => simp [hchars] at hhead
      | cons c chars => simp_all
    next => exact readArguments_argumentChars (List.cons_ne_nil _ _) hmost rest

/-! ### Statements -/

theorem readCall_call (schema : Option String) (name : String) (kind : RoutineKind)
    (bindings : List TrialBinding) :
    readCall (call schema name kind bindings).toList =
      some ⟨kind, schema, name, argumentsOf 1 bindings⟩ := by
  have htarget := readTarget_target schema name
    ("(".toList ++ (argumentChars 1 bindings ++ [')'])) (by simp) (by simp)
  have hclose : ")".toList = [')'] := rfl
  simp only [call, readCall, String.toList_append, List.append_assoc, readKind_opening,
    Option.bind_eq_bind, Option.bind_some, hclose]
  rw [← argumentChars, htarget]
  simp only [Option.bind_some, Text.dropMark?_append, readArgumentList_argumentChars,
    List.isEmpty_nil, if_true]

/-- What a binding adds to a statement besides its number: its name without marks, and the type it
is cast to. -/
def signature (b : TrialBinding) : String × String :=
  (Naming.markless b.name, b.type.bind.castName)

theorem signatures_eq_of_argumentsOf_eq {first : Nat} {bindings bindings' : List TrialBinding}
    (h : argumentsOf first bindings = argumentsOf first bindings') :
    bindings.map signature = bindings'.map signature := by
  induction bindings generalizing first bindings' with
  | nil =>
    cases bindings' with
    | nil => rfl
    | cons => cases h
  | cons b bs ih =>
    cases bindings' with
    | nil => cases h
    | cons b' bs' =>
      simp only [argumentsOf, List.zipIdx_cons, List.map_cons, List.cons.injEq,
        CallArgument.ofBinding, CallArgument.mk.injEq, true_and] at h
      obtain ⟨⟨hname, hcast⟩, hrest⟩ := h
      rw [List.map_cons, List.map_cons, signature, signature, hname, hcast, ih hrest]

theorem argumentsFrom_congr {first : Nat} {bindings bindings' : List TrialBinding}
    (h : bindings.map signature = bindings'.map signature) :
    argumentsFrom first bindings = argumentsFrom first bindings' := by
  induction bindings generalizing first bindings' with
  | nil =>
    cases bindings' with
    | nil => rfl
    | cons => cases h
  | cons b bs ih =>
    cases bindings' with
    | nil => cases h
    | cons b' bs' =>
      obtain ⟨hfirst, hrest⟩ := List.cons.inj h
      obtain ⟨hname, hcast⟩ := Prod.mk.inj hfirst
      rw [argumentsFrom, argumentsFrom, ih hrest, argument, argument, Naming.field_eq,
        Naming.field_eq, hname, hcast]

/-- **A call can be read back.** Whatever the names hold, the statement of a call reads as that
call: its kind, its schema and its name, and one argument for each binding, under the name without
marks, a number from one on, and the type that it is cast to. So two calls are written alike only if
they agree in all of these. -/
theorem call_reads_back (schema : Option String) (name : String) (kind : RoutineKind)
    (bindings : List TrialBinding) :
    readCall (call schema name kind bindings).toList =
        some ⟨kind, schema, name, argumentsOf 1 bindings⟩ ∧
    ∀ schema' name' kind' bindings',
      call schema name kind bindings = call schema' name' kind' bindings' ↔
        kind = kind' ∧ schema = schema' ∧ name = name' ∧
          bindings.map signature = bindings'.map signature := by
  refine ⟨readCall_call schema name kind bindings, fun schema' name' kind' bindings' => ⟨?_, ?_⟩⟩
  · intro h
    have hread := readCall_call schema name kind bindings
    rw [h, readCall_call, Option.some.injEq, CallStatement.mk.injEq] at hread
    obtain ⟨hkind, hschema, hname, harguments⟩ := hread
    exact ⟨hkind.symm, hschema.symm, hname.symm, signatures_eq_of_argumentsOf_eq harguments.symm⟩
  · rintro ⟨rfl, rfl, rfl, hbindings⟩
    rw [call, call, argumentsFrom_congr hbindings]

end Sql

end Sprocket
