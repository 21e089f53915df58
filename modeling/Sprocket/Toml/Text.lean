import Sprocket.Text.Ascii

/-!
# TOML text

The parts of a document that are read character by character: blanks and comments, the four kinds
of strings, and keys. A reader takes the rest of a document and returns what it read with what is
left; it returns nothing where the text is malformed.
-/

namespace Sprocket.Toml

/-- Whether a character separates tokens within a line. -/
def isSpace (c : Char) : Bool := c == ' ' || c == '\t'

/-- Whether a character may stand in a comment or a string: a tab, or no control character. -/
def isPlain (c : Char) : Bool := c == '\t' || (0x20 ≤ c.toNat && c.toNat != 0x7F)

/-- Whether a character may stand in a key without quotes. -/
def isBareKeyChar (c : Char) : Bool := c.isAlphanum || c == '_' || c == '-'

/-- The rest of a line after its blanks. -/
def skipSpaces (s : List Char) : List Char := s.dropWhile isSpace

/-- The rest after a newline. -/
def newline? : List Char → Option (List Char)
  | '\n' :: r => some r
  | '\r' :: '\n' :: r => some r
  | _ => none

/-- The rest after blanks and a comment, which ends before a newline. -/
def skipComment? (s : List Char) : Option (List Char) :=
  match skipSpaces s with
  | '#' :: r =>
    let rest := r.dropWhile isPlain
    if rest.isEmpty || (newline? rest).isSome then some rest else none
  | r => some r

/-- The rest after the end of a line: blanks, a comment, and a newline or the end of the text. -/
def endLine? (s : List Char) : Option (List Char) := do
  let rest ← skipComment? s
  if rest.isEmpty then some [] else newline? rest

/-- The rest after any number of blanks, comments and newlines. -/
def skipLines? : Nat → List Char → Option (List Char)
  | 0, s => some s
  | fuel + 1, s => do
    let rest ← skipComment? s
    match newline? rest with
    | some r => skipLines? fuel r
    | none => some rest

/-- The character of a code point, unless it is a surrogate or out of range. -/
def charOfCode? (n : Nat) : Option Char := if n.isValidChar then some (Char.ofNat n) else none

/-- Reads a fixed number of hexadecimal digits as a character. -/
def readCode? (width : Nat) (s : List Char) : Option (Char × List Char) := do
  let digits := s.take width
  if digits.length = width ∧ digits.all Text.isHexDigit then
    let c ← charOfCode? (digits.foldl (fun n d => 16 * n + Text.hexValue d) 0)
    some (c, s.drop width)
  else none

/-- Reads an escape after its backslash. -/
def readEscape? : List Char → Option (Char × List Char)
  | 'b' :: r => some (Char.ofNat 8, r)
  | 't' :: r => some ('\t', r)
  | 'n' :: r => some ('\n', r)
  | 'f' :: r => some (Char.ofNat 12, r)
  | 'r' :: r => some ('\r', r)
  | 'e' :: r => some (Char.ofNat 27, r)
  | '"' :: r => some ('"', r)
  | '\\' :: r => some ('\\', r)
  | 'x' :: r => readCode? 2 r
  | 'u' :: r => readCode? 4 r
  | 'U' :: r => readCode? 8 r
  | _ => none

/-- Reads a basic string after its opening quote. -/
def readBasic? : Nat → List Char → Option (List Char × List Char)
  | 0, _ => none
  | _, [] => none
  | _, '"' :: r => some ([], r)
  | fuel + 1, '\\' :: r => do
    let (c, rest) ← readEscape? r
    let (text, rest) ← readBasic? fuel rest
    some (c :: text, rest)
  | fuel + 1, c :: r =>
    if isPlain c then do
      let (text, rest) ← readBasic? fuel r
      some (c :: text, rest)
    else none

/-- Reads a literal string after its opening quote. -/
def readLiteral? (s : List Char) : Option (List Char × List Char) :=
  let text := s.takeWhile fun c => isPlain c && c != '\''
  match s.drop text.length with
  | '\'' :: r => some (text, r)
  | _ => none

/-- Whether a character starts a blank or a newline. -/
def isSpaceOrNewline (c : Char) : Bool := isSpace c || c == '\n' || c == '\r'

/-- The rest after a backslash that ends a line: the blanks and newlines up to the next text. -/
def skipLineEnd? (s : List Char) : Option (List Char) := do
  let rest ← newline? (skipSpaces s)
  some (rest.dropWhile isSpaceOrNewline)

/-- The quotes at the front of a text that close a string of three quotes: three of them, and up
to two more that belong to the string. Answers those two with the rest. -/
def closing? (quote : Char) (s : List Char) : Option (List Char × List Char) :=
  let run := (s.takeWhile (· == quote)).length
  if run < 3 then none
  else some (List.replicate (min run 5 - 3) quote, s.drop (min run 5))

/-- Reads a multi-line basic string after its opening quotes. -/
def readLongBasic? : Nat → List Char → Option (List Char × List Char)
  | 0, _ => none
  | _, [] => none
  | fuel + 1, '\\' :: r =>
    match skipLineEnd? r with
    | some rest => readLongBasic? fuel rest
    | none => do
      let (c, rest) ← readEscape? r
      let (text, rest) ← readLongBasic? fuel rest
      some (c :: text, rest)
  | fuel + 1, c :: r =>
    match closing? '"' (c :: r) with
    | some done => some done
    | none =>
      if isPlain c || (newline? (c :: r)).isSome then do
        let (text, rest) ← readLongBasic? fuel r
        some (c :: text, rest)
      else none

/-- Reads a multi-line literal string after its opening quotes. -/
def readLongLiteral? : List Char → Option (List Char × List Char)
  | [] => none
  | c :: r =>
    match closing? '\'' (c :: r) with
    | some done => some done
    | none =>
      if isPlain c || (newline? (c :: r)).isSome then do
        let (text, rest) ← readLongLiteral? r
        some (c :: text, rest)
      else none

/-- The text after the opening quotes of a multi-line string, without a first newline. -/
def dropFirstNewline (s : List Char) : List Char := (newline? s).getD s

/-- Reads a string of any kind, if a quote stands in front. -/
def readString? : List Char → Option (List Char × List Char)
  | '"' :: '"' :: '"' :: r => readLongBasic? (r.length + 1) (dropFirstNewline r)
  | '\'' :: '\'' :: '\'' :: r => readLongLiteral? (dropFirstNewline r)
  | '"' :: r => readBasic? (r.length + 1) r
  | '\'' :: r => readLiteral? r
  | _ => none

/-- Reads one key: bare, or a string on one line. -/
def readKey? : List Char → Option (String × List Char)
  | '"' :: r => (readBasic? (r.length + 1) r).map fun read => (String.ofList read.1, read.2)
  | '\'' :: r => (readLiteral? r).map fun read => (String.ofList read.1, read.2)
  | s =>
    let key := s.takeWhile isBareKeyChar
    if key.isEmpty then none else some (String.ofList key, s.dropWhile isBareKeyChar)

/-- Reads keys separated by dots, with blanks around each of them. -/
def readPath? : Nat → List Char → Option (List String × List Char)
  | 0, _ => none
  | fuel + 1, s => do
    let (key, rest) ← readKey? (skipSpaces s)
    match skipSpaces rest with
    | '.' :: r => do
      let (keys, rest) ← readPath? fuel r
      some (key :: keys, rest)
    | r => some ([key], r)

end Sprocket.Toml
