import Mathlib.Data.List.Basic
import Sprocket.Proofs.Tables
import Sprocket.Toml.Document

/-!
# Manifests line by line

A sheet is a manifest in which every header and every text stands on a line of its own, the texts as
`key = "value"` without escapes. What such a document holds can be told from its lines: each of them
changes the tables read so far.

* `Sheet.Line`, `Sheet.text`: the lines of a sheet and the text they make;
* `Line.Formed`: the lines that read back;
* `Sheet.step`: what a line changes;
* `read?_text`: the text of a sheet is read line by line.
-/

namespace Sprocket.Sheet

open Toml

/-- The headers of a manifest. -/
inductive Header where
  | group | database | output | procedure
  deriving DecidableEq, Repr

/-- The table a header opens. -/
def Header.path : Header → List String
  | group => ["contexts"]
  | database => ["contexts", "database"]
  | output => ["contexts", "output"]
  | procedure => ["contexts", "procedures"]

/-- Whether a header stands for one of many tables. -/
def Header.repeats : Header → Bool
  | group => true
  | procedure => true
  | _ => false

/-- What stands on a line of a sheet: nothing, a header, a text under a key, or a value of another
kind under a key as it is spelled. The key is the last part of a dotted one. -/
inductive Content where
  | blank
  | header (header : Header)
  | text (path : List String) (key value : String)
  | other (path : List String) (key : String) (spelling : List Char) (value : Value)

/-- A line of a sheet: its content with blanks on both sides, and whether the newline after it is
written with a carriage return. -/
structure Line where
  indent : List Char
  content : Content
  trail : List Char
  returns : Bool

/-- Names with dots between them. -/
def dotted (names : List String) : List Char := ['.'].intercalate (names.map String.toList)

/-- What stands in front of the value of a text. -/
def lead (path : List String) (key : String) : List Char :=
  dotted (path ++ [key]) ++ " = \"".toList

/-- A header as it is written. -/
def Header.chars (h : Header) : List Char :=
  if h.repeats then "[[".toList ++ dotted h.path ++ "]]".toList else '[' :: dotted h.path ++ [']']

/-- What stands on a line as it is written. -/
def Content.chars : Content → List Char
  | blank => []
  | header h => h.chars
  | text path key value => lead path key ++ value.toList ++ ['"']
  | other path key spelling _ => dotted (path ++ [key]) ++ " = ".toList ++ spelling

namespace Line

/-- A line as it is written. -/
def chars (line : Line) : List Char := line.indent ++ line.content.chars ++ line.trail

/-- The newline after a line. -/
def newline (line : Line) : List Char := if line.returns then ['\r', '\n'] else ['\n']

end Line

theorem Line.newline_ne_nil (line : Line) : line.newline ≠ [] := by
  unfold Line.newline
  split <;> simp

/-- Lines as a text, with a newline between two of them. -/
def text : List Line → List Char
  | [] => []
  | [line] => line.chars
  | line :: rest => line.chars ++ line.newline ++ text rest

/-- What follows a line before the next one. -/
def Line.close (line : Line) (rest : List Line) : List Char :=
  if rest.isEmpty then [] else line.newline

theorem text_cons (line : Line) (rest : List Line) :
    text (line :: rest) = line.chars ++ line.close rest ++ text rest := by
  cases rest with
  | nil => simp [text, Line.close]
  | cons next rest => rfl

/-! ### Lines that read back -/

/-- A key that needs no quotes. -/
def IsBare (name : String) : Prop := name.toList ≠ [] ∧ ∀ c ∈ name.toList, isBareKeyChar c = true

instance : DecidablePred IsBare := fun name =>
  decidable_of_iff (name.toList ≠ [] ∧ name.toList.all isBareKeyChar = true)
    (by rw [IsBare, List.all_eq_true])

/-- A text that needs no escapes. -/
def IsPlainText (value : List Char) : Prop :=
  ∀ c ∈ value, isPlain c = true ∧ c ≠ '"' ∧ c ≠ '\\'

instance : DecidablePred IsPlainText := fun value =>
  decidable_of_iff (value.all fun c => isPlain c && c != '"' && c != '\\')
    (by simp [IsPlainText, and_assoc])

/-- The end of a line: blanks, and then the end of the text or a newline. -/
def LineEnd (rest : List Char) : Prop :=
  ∃ blanks next, (∀ c ∈ blanks, isSpace c = true) ∧ rest = blanks ++ next ∧
    (next = [] ∨ (newline? next).isSome = true)

/-- A spelling is read as a value at the end of a line. -/
def Spells (spelling : List Char) (v : Value) : Prop :=
  ∀ rest, LineEnd rest → skipSpaces (spelling ++ rest) = spelling ++ rest ∧
    readValue? (2 * (spelling ++ rest).length + 2) maxDepth (spelling ++ rest) = some (v, rest)

/-- Contents that read back: keys need no quotes, and texts no escapes. -/
def Content.Formed : Content → Prop
  | .blank => True
  | .header _ => True
  | .text path key value => (∀ name ∈ path ++ [key], IsBare name) ∧ IsPlainText value.toList
  | .other path key spelling v => (∀ name ∈ path ++ [key], IsBare name) ∧ Spells spelling v ∧ Flat v

/-- Lines that read back: their content does, with nothing but blanks around it. -/
structure Line.Formed (line : Line) : Prop where
  indent : ∀ c ∈ line.indent, isSpace c = true
  content : line.content.Formed
  trail : ∀ c ∈ line.trail, isSpace c = true

/-! ### What a line changes -/

/-- The header in force and the tables read so far. -/
abbrev State : Type := List String × Entries

/-- Adds a value under a key. -/
def add (path : List String) (key : String) (v : Value) (s : State) : Option State :=
  (changeWithin (addDotted key v path) s.1 s.2).map (s.1, ·)

/-- What a header does to the value it names. -/
def Header.change (h : Header) : Option Value → Option Value :=
  if h.repeats then openElement else openTable

/-- What a line changes. -/
def step (s : State) (line : Line) : Option State :=
  match line.content with
  | .blank => some s
  | .header h => (changeAt h.change h.path s.2).map (h.path, ·)
  | .text path key value => add path key (.string value) s
  | .other path key _ v => add path key v s

/-! ### Keys -/

theorem skipSpaces_of_head {c : Char} (h : isSpace c = false) (r : List Char) :
    skipSpaces (c :: r) = c :: r := by
  simp [skipSpaces, h]

/-- A character of a key is none of those that end it. -/
theorem ne_of_isBareKeyChar {c d : Char} (h : isBareKeyChar c = true)
    (hd : isBareKeyChar d = false) : c ≠ d := by
  rintro rfl
  rw [h] at hd
  cases hd

theorem isSpace_of_isBareKeyChar {c : Char} (h : isBareKeyChar c = true) : isSpace c = false := by
  have hspace := ne_of_isBareKeyChar h (show isBareKeyChar ' ' = false by decide)
  have htab := ne_of_isBareKeyChar h (show isBareKeyChar '\t' = false by decide)
  simp [isSpace, hspace, htab]

theorem readKey?_bare {name : String} (h : IsBare name) {rest : List Char}
    (hrest : ∀ c ∈ rest.head?, isBareKeyChar c = false) :
    readKey? (name.toList ++ rest) = some (name, rest) := by
  obtain ⟨hne, hbare⟩ := h
  have htake : (name.toList ++ rest).takeWhile isBareKeyChar = name.toList := by
    rw [List.takeWhile_append_of_pos hbare]
    cases rest with
    | nil => simp
    | cons c r => simp [hrest c (by simp)]
  have hdrop : (name.toList ++ rest).dropWhile isBareKeyChar = rest := by
    rw [List.dropWhile_append_of_pos hbare]
    cases rest with
    | nil => rfl
    | cons c r => simp [hrest c (by simp)]
  cases hname : name.toList with
  | nil => exact absurd hname hne
  | cons c r =>
    have hc := hbare c (by simp [hname])
    have hdouble := ne_of_isBareKeyChar hc (show isBareKeyChar '"' = false by decide)
    have hsingle := ne_of_isBareKeyChar hc (show isBareKeyChar '\'' = false by decide)
    rw [hname] at htake hdrop
    rw [List.cons_append] at htake hdrop ⊢
    unfold readKey?
    split
    · exact absurd (List.cons.inj ‹_›).1 hdouble
    · exact absurd (List.cons.inj ‹_›).1 hsingle
    · dsimp only
      rw [htake, hdrop, ← hname, String.ofList_toList]
      simp [hne]

/-- The front of what follows a key in a line ends the key, and is no dot. -/
def EndsKey (rest : List Char) : Prop :=
  (∀ c ∈ rest.head?, isBareKeyChar c = false) ∧ ∀ r, skipSpaces rest ≠ '.' :: r

theorem dotted_singleton (name : String) : dotted [name] = name.toList := by
  simp [dotted]

theorem dotted_cons_cons (name next : String) (names : List String) :
    dotted (name :: next :: names) = name.toList ++ '.' :: dotted (next :: names) := by
  simp [dotted, List.intercalate_cons_cons]

theorem exists_bare_eq {name : String} (h : IsBare name) :
    ∃ c r, name.toList = c :: r ∧ isBareKeyChar c = true := by
  obtain ⟨hne, hbare⟩ := h
  cases hname : name.toList with
  | nil => exact absurd hname hne
  | cons c r => exact ⟨c, r, rfl, hbare c (by simp [hname])⟩

/-- A dotted key begins with a character of a key. -/
theorem exists_dotted_eq {names : List String} (hne : names ≠ []) (h : ∀ n ∈ names, IsBare n) :
    ∃ c r, dotted names = c :: r ∧ isBareKeyChar c = true := by
  cases names with
  | nil => exact absurd rfl hne
  | cons name names =>
    obtain ⟨c, r, hname, hc⟩ := exists_bare_eq (h name List.mem_cons_self)
    cases names with
    | nil => exact ⟨c, r, by rw [dotted_singleton, hname], hc⟩
    | cons next names =>
      exact ⟨c, r ++ '.' :: dotted (next :: names), by rw [dotted_cons_cons, hname]; rfl, hc⟩

theorem skipSpaces_bare {name : String} (h : IsBare name) (rest : List Char) :
    skipSpaces (name.toList ++ rest) = name.toList ++ rest := by
  obtain ⟨c, r, hname, hc⟩ := exists_bare_eq h
  rw [hname, List.cons_append]
  exact skipSpaces_of_head (isSpace_of_isBareKeyChar hc) _

/-- A dotted key is read up to its end. -/
theorem readPath?_dotted {names : List String} (hne : names ≠ []) (h : ∀ n ∈ names, IsBare n)
    {rest : List Char} (hrest : EndsKey rest) {fuel : Nat} (hfuel : names.length ≤ fuel) :
    readPath? fuel (dotted names ++ rest) = some (names, skipSpaces rest) := by
  induction names generalizing fuel with
  | nil => exact absurd rfl hne
  | cons name names ih =>
    obtain ⟨hname, hnames⟩ := List.forall_mem_cons.1 h
    cases fuel with
    | zero => cases hfuel
    | succ fuel =>
      cases names with
      | nil =>
        rw [dotted_singleton, readPath?, skipSpaces_bare hname, readKey?_bare hname hrest.1]
        dsimp only [Option.bind_eq_bind, Option.bind_some]
        split
        · exact absurd ‹_› (hrest.2 _)
        · rfl
      | cons next names =>
        have hdot : ∀ c ∈ ('.' :: (dotted (next :: names) ++ rest)).head?,
            isBareKeyChar c = false := by simp; decide
        rw [dotted_cons_cons, List.append_assoc, List.cons_append, readPath?, skipSpaces_bare hname,
          readKey?_bare hname hdot]
        dsimp only [Option.bind_eq_bind, Option.bind_some]
        rw [skipSpaces_of_head (by decide)]
        exact congrArg (Option.bind · fun read => some (name :: read.1, read.2))
          (ih (by simp) hnames (Nat.le_of_succ_le_succ hfuel))

theorem length_le_dotted {names : List String} (h : ∀ n ∈ names, IsBare n) :
    names.length ≤ (dotted names).length := by
  induction names with
  | nil => exact Nat.zero_le _
  | cons name names ih =>
    obtain ⟨hname, hnames⟩ := List.forall_mem_cons.1 h
    have hpos := List.length_pos_of_ne_nil hname.1
    cases names with
    | nil => rwa [dotted_singleton]
    | cons next names =>
      have hrest := ih hnames
      rw [dotted_cons_cons]
      simp only [List.length_append, List.length_cons] at hrest hpos ⊢
      omega

/-- A dotted key is read from a text of any length that begins with it. -/
theorem readPath?_length {names : List String} (hne : names ≠ []) (h : ∀ n ∈ names, IsBare n)
    {rest : List Char} (hrest : EndsKey rest) :
    readPath? (dotted names ++ rest).length (dotted names ++ rest) =
      some (names, skipSpaces rest) := by
  have hlength := length_le_dotted h
  refine readPath?_dotted hne h hrest ?_
  rw [List.length_append]
  omega

/-! ### Values -/

/-- A text without escapes is read up to its closing quote. -/
theorem readBasic?_plain {value : List Char} (h : IsPlainText value) (rest : List Char)
    {fuel : Nat} (hfuel : value.length < fuel) :
    readBasic? fuel (value ++ '"' :: rest) = some (value, rest) := by
  induction value generalizing fuel with
  | nil =>
    cases fuel with
    | zero => cases hfuel
    | succ fuel => rfl
  | cons c r ih =>
    obtain ⟨⟨hplain, hquote, hescape⟩, hr⟩ := List.forall_mem_cons.1 h
    cases fuel with
    | zero => cases hfuel
    | succ fuel =>
      rw [List.cons_append, readBasic?, if_pos hplain, ih hr (Nat.lt_of_succ_lt_succ hfuel)]
      · rfl
      · exact fun heq => hquote heq
      · exact fun heq => hescape heq

theorem LineEnd.head_ne {rest : List Char} (h : LineEnd rest) (r : List Char) :
    rest ≠ '"' :: r := by
  obtain ⟨blanks, next, hblanks, rfl, hnext⟩ := h
  intro heq
  cases blanks with
  | nil =>
    obtain rfl : next = '"' :: r := heq
    rcases hnext with hnil | hsome
    · cases hnil
    · cases hsome
  | cons c blanks =>
    obtain rfl := (List.cons.inj heq).1
    exact absurd (hblanks '"' List.mem_cons_self) (by decide)

theorem readValue?_text {value : List Char} (h : IsPlainText value) {rest : List Char}
    (hrest : LineEnd rest) (fuel depth : Nat) :
    readValue? (fuel + 1) depth ('"' :: (value ++ '"' :: rest)) =
      some (.string (String.ofList value), rest) := by
  have hbasic : readBasic? ((value ++ '"' :: rest).length + 1) (value ++ '"' :: rest) =
      some (value, rest) := readBasic?_plain h rest (by rw [List.length_append]; omega)
  have hstring : readString? ('"' :: (value ++ '"' :: rest)) = some (value, rest) := by
    unfold readString?
    split
    next r heq =>
      -- three quotes in a row: neither the text nor what follows it begins with one
      cases value with
      | nil => exact absurd (List.cons.inj (List.cons.inj heq).2).2 (hrest.head_ne r)
      | cons c t =>
        have hquote := (h c List.mem_cons_self).2.1
        exact absurd (List.cons.inj (List.cons.inj heq).2).1 hquote
    next heq => simp at heq
    next r _ heq =>
      obtain rfl := (List.cons.inj heq).2
      exact hbasic
    next heq => simp at heq
    next _ hnot _ => exact absurd rfl (hnot _)
  have hread : readValue? (fuel + 1) depth ('"' :: (value ++ '"' :: rest)) =
      (readString? ('"' :: (value ++ '"' :: rest))).map
        fun read => (.string (String.ofList read.1), read.2) := by
    cases depth <;> rfl
  rw [hread, hstring]
  rfl

/-- A text without escapes in its quotes is the spelling of it. -/
theorem spells_text {value : String} (h : IsPlainText value.toList) :
    Spells ('"' :: (value.toList ++ ['"'])) (.string value) := by
  intro rest hrest
  have hvalue := readValue?_text h hrest (2 * ('"' :: (value.toList ++ ['"']) ++ rest).length + 1)
    maxDepth
  rw [String.ofList_toList] at hvalue
  refine ⟨skipSpaces_of_head (by decide) _, ?_⟩
  rwa [List.cons_append, List.append_assoc, List.singleton_append] at hvalue ⊢

/-! ### Lines -/

theorem skipSpaces_append {blanks : List Char} (h : ∀ c ∈ blanks, isSpace c = true)
    (rest : List Char) : skipSpaces (blanks ++ rest) = skipSpaces rest :=
  List.dropWhile_append_of_pos h

theorem endLine?_append {blanks : List Char} (h : ∀ c ∈ blanks, isSpace c = true)
    (rest : List Char) : endLine? (blanks ++ rest) = endLine? rest := by
  rw [endLine?, endLine?, skipComment?, skipComment?, skipSpaces_append h]

/-- What begins with a mark or a key is no end of a line. -/
theorem endLine?_of_head {c : Char} (hspace : isSpace c = false) (hcomment : c ≠ '#')
    (hnewline : c ≠ '\n') (hreturn : c ≠ '\r') (r : List Char) : endLine? (c :: r) = none := by
  have hskip : skipComment? (c :: r) = some (c :: r) := by
    unfold skipComment?
    rw [skipSpaces_of_head hspace]
    split
    next heq => exact absurd (List.cons.inj heq).1 hcomment
    next => rfl
  have hend : newline? (c :: r) = none := by
    unfold newline?
    split
    next heq => exact absurd (List.cons.inj heq).1 hnewline
    next heq => exact absurd (List.cons.inj heq).1 hreturn
    next => rfl
  simp [endLine?, hskip, hend]

/-- After the content of a line, the line ends and the next one is left. -/
theorem Line.Formed.lineEnd {line : Line} (h : line.Formed) (rest : List Line) :
    LineEnd (line.trail ++ (line.close rest ++ text rest)) := by
  refine ⟨line.trail, line.close rest ++ text rest, h.trail, rfl, ?_⟩
  cases rest with
  | nil => exact .inl rfl
  | cons next rest =>
    right
    cases hreturns : line.returns <;> simp [Line.close, Line.newline, hreturns, newline?]

theorem Line.Formed.endLine? {line : Line} (h : line.Formed) (rest : List Line) :
    Toml.endLine? (line.trail ++ (line.close rest ++ text rest)) = some (text rest) := by
  rw [endLine?_append h.trail]
  cases rest with
  | nil => rfl
  | cons next rest =>
    have hclose : line.close (next :: rest) = line.newline := rfl
    cases hreturns : line.returns <;> rw [hclose, Line.newline, hreturns] <;> rfl

/-! ### Reading a line -/

theorem endsKey_of_space {c : Char} (hdot : c ≠ '.') (hspace : isSpace c = false)
    (r : List Char) : EndsKey (' ' :: c :: r) := by
  have hskip : skipSpaces (' ' :: c :: r) = c :: r := skipSpaces_of_head hspace r
  refine ⟨by simp; decide, fun r' h => hdot ?_⟩
  rw [hskip] at h
  exact (List.cons.inj h).1

theorem endsKey_of_head {c : Char} (hbare : isBareKeyChar c = false) (hdot : c ≠ '.')
    (hspace : isSpace c = false) (r : List Char) : EndsKey (c :: r) := by
  refine ⟨by simpa using hbare, fun r' h => hdot ?_⟩
  rw [skipSpaces_of_head hspace] at h
  exact (List.cons.inj h).1

/-- A key with a value is added to the table in force. -/
theorem readPair?_eq {path : List String} {key : String} {spelling : List Char} {v : Value}
    (hbare : ∀ name ∈ path ++ [key], IsBare name) {rest : List Char}
    (hskip : skipSpaces (spelling ++ rest) = spelling ++ rest)
    (hvalue : readValue? (2 * (spelling ++ rest).length + 2) maxDepth (spelling ++ rest) =
      some (v, rest)) (s : State) :
    readPair? s.1 s.2 (dotted (path ++ [key]) ++ (" = ".toList ++ (spelling ++ rest))) =
      (add path key v s).map fun s' => (s'.2, rest) := by
  have hends : EndsKey (" = ".toList ++ (spelling ++ rest)) :=
    endsKey_of_space (by decide) (by decide) _
  have hpath := readPath?_length (by simp) hbare hends
  have hequals : skipSpaces (" = ".toList ++ (spelling ++ rest)) =
      '=' :: ' ' :: (spelling ++ rest) := rfl
  have hspace : skipSpaces (' ' :: (spelling ++ rest)) = spelling ++ rest := hskip
  rw [hequals] at hpath
  rw [readPair?, hpath]
  simp only [Option.bind_eq_bind, Option.bind_some, after?, if_pos, hspace, hvalue,
    List.getLast?_concat, Option.getD_some, List.dropLast_concat, add]
  cases changeWithin (addDotted key v path) s.1 s.2 <;> rfl

/-- A header opens its table. -/
theorem readHeader?_eq (h : Header) (root : Entries) (rest : List Char) :
    ∃ r, h.chars = '[' :: r ∧ readHeader? root (r ++ rest) =
      (changeAt h.change h.path root).map fun root' => (h.path, root', rest) := by
  have hbare : ∀ name ∈ h.path, IsBare name := by
    cases h <;> decide
  have hne : h.path ≠ [] := by cases h <;> simp [Header.path]
  cases hrepeats : h.repeats with
  | true =>
    have hchange : h.change = openElement := by rw [Header.change, hrepeats]; rfl
    have hends : EndsKey (']' :: ']' :: rest) :=
      endsKey_of_head (by decide) (by decide) (by decide) _
    have hpath := readPath?_length hne hbare hends
    refine ⟨'[' :: (dotted h.path ++ [']', ']']), by simp [Header.chars, hrepeats], ?_⟩
    have hclose : skipSpaces (']' :: ']' :: rest) = ']' :: ']' :: rest := rfl
    rw [hclose] at hpath
    simp only [List.cons_append, List.append_assoc, List.nil_append, readHeader?, hpath,
      Option.bind_eq_bind, Option.bind_some, after?, if_pos, hchange]
    cases changeAt openElement h.path root <;> rfl
  | false =>
    have hchange : h.change = openTable := by rw [Header.change, hrepeats]; rfl
    have hends : EndsKey (']' :: rest) :=
      endsKey_of_head (by decide) (by decide) (by decide) _
    have hpath := readPath?_length hne hbare hends
    refine ⟨dotted h.path ++ [']'], by simp [Header.chars, hrepeats], ?_⟩
    have hclose : skipSpaces (']' :: rest) = ']' :: rest := rfl
    rw [hclose] at hpath
    obtain ⟨c, r, hdotted, hc⟩ := exists_dotted_eq hne hbare
    have hbracket := ne_of_isBareKeyChar hc (show isBareKeyChar '[' = false by decide)
    rw [List.append_assoc, List.singleton_append, readHeader?]
    · simp only [hpath, Option.bind_eq_bind, Option.bind_some, after?, if_pos, hchange]
      cases changeAt openTable h.path root <;> rfl
    · intro r' heq
      rw [hdotted] at heq
      exact hbracket (List.cons.inj heq).1

/-! ### Reading all lines -/

/-- Only a blank line has no content. -/
theorem Content.chars_ne_nil {content : Content} (h : content ≠ .blank) : content.chars ≠ [] := by
  cases content with
  | blank => exact absurd rfl h
  | header header => cases header <;> simp [Content.chars, Header.chars, Header.repeats]
  | text path key value => simp [Content.chars]
  | other path key spelling v => simp [Content.chars]

theorem text_cons_content (line : Line) (rest : List Line) :
    text (line :: rest) = line.indent ++
      (line.content.chars ++ (line.trail ++ (line.close rest ++ text rest))) := by
  simp [text_cons, Line.chars]

/-- What stands after a line is shorter, unless the line is the last one and blank. -/
theorem length_text_lt {line : Line} {rest : List Line}
    (h : line.content ≠ .blank ∨ text rest ≠ []) :
    (text rest).length < (text (line :: rest)).length := by
  have hpos : 0 < line.content.chars.length ∨ 0 < (line.close rest).length := by
    refine h.imp (fun h => List.length_pos_of_ne_nil (Content.chars_ne_nil h)) fun h => ?_
    cases rest with
    | nil => exact absurd rfl h
    | cons next rest => exact List.length_pos_of_ne_nil line.newline_ne_nil
  rw [text_cons_content]
  simp only [List.length_append]
  omega

/-- Lines that make no text change nothing. -/
theorem foldlM_of_text_eq_nil {lines : List Line} (h : text lines = []) (s : State) :
    lines.foldlM step s = some s := by
  cases lines with
  | nil => rfl
  | cons line rest =>
    have hshort : ¬ (text rest).length < (text (line :: rest)).length := by simp [h]
    have hblank : line.content = .blank := by
      by_contra hblank
      exact hshort (length_text_lt (.inl hblank))
    cases rest with
    | nil => simp [step, hblank]
    | cons next rest =>
      rw [text_cons, List.append_eq_nil_iff, List.append_eq_nil_iff] at h
      exact absurd h.1.2 line.newline_ne_nil

/-- A line that begins with a key or a header is read by what it begins with. -/
theorem readLines?_of_head {c : Char} {r indent : List Char}
    (hindent : ∀ d ∈ indent, isSpace d = true) (hspace : isSpace c = false) (hcomment : c ≠ '#')
    (hnewline : c ≠ '\n') (hreturn : c ≠ '\r') (fuel : Nat) (s : State) :
    readLines? (fuel + 1) s.1 s.2 (indent ++ c :: r) =
      (if c = '[' then readHeader? s.2 r
        else (readPair? s.1 s.2 (c :: r)).map fun read => (s.1, read.1, read.2)).bind fun read =>
        (endLine? read.2.2).bind fun next => readLines? fuel read.1 read.2.1 next := by
  have hend : endLine? (indent ++ c :: r) = none := by
    rw [endLine?_append hindent, endLine?_of_head hspace hcomment hnewline hreturn]
  have hskip : skipSpaces (indent ++ c :: r) = c :: r := by
    rw [skipSpaces_append hindent, skipSpaces_of_head hspace]
  rw [readLines?, hend]
  dsimp only
  rw [hskip]
  by_cases hbracket : c = '['
  · subst hbracket
    rfl
  · rw [if_neg hbracket]
    split
    · exact absurd (List.cons.inj ‹_›).1 hbracket
    · cases readPair? s.1 s.2 (c :: r) <;> rfl

/-- A line with a key and a value changes the table in force. -/
theorem readLines?_pair {path : List String} {key : String} {spelling : List Char} {v : Value}
    (hbare : ∀ name ∈ path ++ [key], IsBare name) (hspells : Spells spelling v)
    {indent rest next : List Char} (hindent : ∀ d ∈ indent, isSpace d = true)
    (hrest : LineEnd rest) (hend : endLine? rest = some next) (fuel : Nat) (s : State) :
    readLines? (fuel + 1) s.1 s.2
        (indent ++ (dotted (path ++ [key]) ++ (" = ".toList ++ (spelling ++ rest)))) =
      (add path key v s).bind fun s' => readLines? fuel s'.1 s'.2 next := by
  obtain ⟨hskip, hvalue⟩ := hspells rest hrest
  have hpair := readPair?_eq hbare hskip hvalue s
  obtain ⟨c, r, hdotted, hc⟩ := exists_dotted_eq (by simp) hbare
  have hne := fun d (hd : isBareKeyChar d = false) => ne_of_isBareKeyChar hc hd
  rw [hdotted, List.cons_append] at hpair ⊢
  rw [readLines?_of_head hindent (isSpace_of_isBareKeyChar hc) (hne '#' (by decide))
    (hne '\n' (by decide)) (hne '\r' (by decide)), if_neg (hne '[' (by decide)), hpair, add]
  cases changeWithin (addDotted key v path) s.1 s.2 with
  | none => rfl
  | some root => simp [hend]

/-- A line with a header or a value takes its step, and the lines after it are read from there. -/
theorem readLines?_line {line : Line} (h : line.Formed) (hblank : line.content ≠ .blank)
    (rest : List Line) (fuel : Nat) (s : State) :
    readLines? (fuel + 1) s.1 s.2 (text (line :: rest)) =
      (step s line).bind fun s' => readLines? fuel s'.1 s'.2 (text rest) := by
  have hend := h.endLine? rest
  have hpair : ∀ {path : List String} {key : String} {spelling : List Char} {v : Value},
      (∀ name ∈ path ++ [key], IsBare name) → Spells spelling v →
      line.content.chars = dotted (path ++ [key]) ++ (" = ".toList ++ spelling) →
      readLines? (fuel + 1) s.1 s.2 (text (line :: rest)) =
        (add path key v s).bind fun s' => readLines? fuel s'.1 s'.2 (text rest) := by
    intro path key spelling v hbare hspells hchars
    rw [text_cons_content, hchars, List.append_assoc, List.append_assoc,
      readLines?_pair hbare hspells h.indent (h.lineEnd rest) hend]
  have hcontent := h.content
  cases hc : line.content with
  | blank => exact absurd hc hblank
  | header header =>
    obtain ⟨r, hr, hread⟩ :=
      readHeader?_eq header s.2 (line.trail ++ (line.close rest ++ text rest))
    rw [text_cons_content, hc, Content.chars, hr, List.cons_append,
      readLines?_of_head h.indent (by decide) (by decide) (by decide) (by decide), if_pos rfl,
      hread, step, hc]
    dsimp only
    cases changeAt header.change header.path s.2 with
    | none => rfl
    | some root => simp only [Option.map_some, Option.bind_some, hend]
  | text path key value =>
    rw [hc] at hcontent
    obtain ⟨hbare, hplain⟩ := hcontent
    rw [hpair hbare (spells_text hplain) (by simp [hc, Content.chars, lead]), step, hc]
  | other path key spelling v =>
    rw [hc] at hcontent
    obtain ⟨hbare, hspells, -⟩ := hcontent
    rw [hpair hbare hspells (by simp [hc, Content.chars]), step, hc]

/-- The text of lines is read line by line. -/
theorem readLines?_text {lines : List Line} (h : ∀ line ∈ lines, line.Formed) (s : State)
    {fuel : Nat} (hfuel : (text lines).length < fuel) :
    readLines? fuel s.1 s.2 (text lines) = (lines.foldlM step s).map Prod.snd := by
  induction lines generalizing fuel s with
  | nil =>
    cases fuel with
    | zero => cases hfuel
    | succ fuel => rfl
  | cons line rest ih =>
    obtain ⟨hline, hrest⟩ := List.forall_mem_cons.1 h
    cases fuel with
    | zero => cases hfuel
    | succ fuel =>
      change _ = ((step s line).bind (rest.foldlM step)).map Prod.snd
      have hshort : line.content ≠ .blank ∨ text rest ≠ [] → (text rest).length < fuel := fun h =>
        Nat.lt_of_lt_of_le (length_text_lt h) (Nat.le_of_lt_succ hfuel)
      by_cases hblank : line.content = .blank
      · have hend : endLine? (text (line :: rest)) = some (text rest) := by
          rw [text_cons_content, hblank, Content.chars, List.nil_append,
            endLine?_append hline.indent, hline.endLine? rest]
        rw [readLines?, hend, step, hblank]
        cases hnext : text rest with
        | nil => simp [foldlM_of_text_eq_nil hnext]
        | cons c r =>
          have hlater := ih hrest s (hshort (.inr (hnext ▸ List.cons_ne_nil c r)))
          rwa [hnext] at hlater
      · rw [readLines?_line hline hblank]
        cases step s line with
        | none => rfl
        | some s' => exact ih hrest s' (hshort (.inl hblank))

/-- A content begins with a bracket or a key. -/
theorem head_chars {content : Content} (h : content.Formed) :
    ∀ c ∈ content.chars.head?, isBareKeyChar c = true ∨ c = '[' := by
  have hkey : ∀ {path : List String} {key : String} {after : List Char},
      (∀ name ∈ path ++ [key], IsBare name) →
      ∀ c ∈ (dotted (path ++ [key]) ++ after).head?, isBareKeyChar c = true ∨ c = '[' := by
    intro path key after hbare c hc
    obtain ⟨d, r, hdotted, hd⟩ := exists_dotted_eq (by simp) hbare
    obtain rfl : d = c := by simpa [hdotted] using hc
    exact .inl hd
  cases content with
  | blank => intro c hc; cases hc
  | header header =>
    obtain ⟨r, hr, -⟩ := readHeader?_eq header [] []
    simp [Content.chars, hr]
  | text path key value =>
    rw [Content.chars, lead, List.append_assoc, List.append_assoc]
    exact hkey h.1
  | other path key spelling v =>
    rw [Content.chars, List.append_assoc]
    exact hkey h.1

theorem not_mem_head?_append {c : Char} {s t : List Char} (hs : c ∉ s.head?) (ht : c ∉ t.head?) :
    c ∉ (s ++ t).head? := by
  cases s with
  | nil => exact ht
  | cons d r => exact hs

/-- A sheet begins with no byte order mark. -/
theorem byteOrderMark_not_mem_head?_text {lines : List Line} (h : ∀ line ∈ lines, line.Formed) :
    byteOrderMark ∉ (text lines).head? := by
  cases lines with
  | nil => simp [text]
  | cons line rest =>
    have hline := h line List.mem_cons_self
    have hblanks : ∀ blanks : List Char, (∀ c ∈ blanks, isSpace c = true) →
        byteOrderMark ∉ blanks.head? := fun _ hspace hmark =>
      absurd (hspace _ (List.mem_of_mem_head? hmark)) (by decide)
    have hcontent : byteOrderMark ∉ line.content.chars.head? := fun hmark =>
      absurd (head_chars hline.content _ hmark) (by decide)
    have hclose : byteOrderMark ∉ (line.close rest ++ text rest).head? := by
      cases rest with
      | nil => simp [Line.close, text]
      | cons next rest =>
        cases hreturns : line.returns <;> simp [Line.close, Line.newline, hreturns] <;> decide
    rw [text_cons_content]
    exact not_mem_head?_append (hblanks _ hline.indent) <| not_mem_head?_append hcontent <|
      not_mem_head?_append (hblanks _ hline.trail) hclose

/-- The text of a sheet is read line by line. -/
theorem read?_text {lines : List Line} (h : ∀ line ∈ lines, line.Formed) :
    Toml.read? (String.ofList (text lines)) = (lines.foldlM step ([], [])).map Prod.snd := by
  have hread := readLines?_text h ([], []) (Nat.lt_succ_self _)
  rw [Toml.read?, String.toList_ofList]
  cases htext : text lines with
  | nil => rwa [htext] at hread
  | cons c r =>
    have hmark := byteOrderMark_not_mem_head?_text h
    have hc : c ≠ byteOrderMark := by simpa [htext] using hmark
    rw [htext] at hread
    simpa [hc] using hread

end Sprocket.Sheet
