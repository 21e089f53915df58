import Sprocket.Toml.Scalar
import Sprocket.Toml.Text

/-!
# TOML documents

A document is a sequence of lines: headers that open a table, and keys with values that go into
the table opened last. Arrays and inline tables may run over several lines and end in a comma.
Values nest to a depth of eighty.
-/

namespace Sprocket.Toml

/-- The greatest depth of arrays and inline tables. -/
def maxDepth : Nat := 80

mutual

/-- Reads a value; `depth` is the number of arrays and inline tables it may still open. -/
def readValue? : Nat → Nat → List Char → Option (Value × List Char)
  | 0, _, _ => none
  | _, 0, '[' :: _ => none
  | _, 0, '{' :: _ => none
  | fuel + 1, depth + 1, '[' :: r => do
    let (items, rest) ← readItems? fuel depth r
    some (.array false items, rest)
  | fuel + 1, depth + 1, '{' :: r => do
    let (entries, rest) ← readEntries? fuel depth [] r
    some (.table .inlined entries, rest)
  | _, _, s =>
    match s with
    | '"' :: _ => (readString? s).map fun read => (.string (String.ofList read.1), read.2)
    | '\'' :: _ => (readString? s).map fun read => (.string (String.ofList read.1), read.2)
    | _ => (scalar? (takeWord s).1).map fun v => (v, (takeWord s).2)

/-- Reads the items of an array up to its end. -/
def readItems? : Nat → Nat → List Char → Option (List Value × List Char)
  | 0, _, _ => none
  | fuel + 1, depth, s => do
    let s ← skipLines? s.length s
    match s with
    | ']' :: r => some ([], r)
    | _ => do
      let (item, rest) ← readValue? fuel depth s
      let rest ← skipLines? rest.length rest
      match rest with
      | ',' :: r => do
        let (items, rest) ← readItems? fuel depth r
        some (item :: items, rest)
      | ']' :: r => some ([item], r)
      | _ => none

/-- Reads the keys and values of an inline table up to its end, given those read so far. -/
def readEntries? : Nat → Nat → Entries → List Char → Option (Entries × List Char)
  | 0, _, _, _ => none
  | fuel + 1, depth, entries, s => do
    let s ← skipLines? s.length s
    match s with
    | '}' :: r => some (entries, r)
    | _ => do
      let (path, rest) ← readPath? s.length s
      let rest ← after? '=' rest
      let (v, rest) ← readValue? fuel depth (skipSpaces rest)
      let entries ← addDotted (path.getLast?.getD "") v path.dropLast entries
      let rest ← skipLines? rest.length rest
      match rest with
      | ',' :: r => readEntries? fuel depth entries r
      | '}' :: r => some (entries, r)
      | _ => none

end

/-- Reads a key with its value at the front of a line and adds them to the table that a header
opened. -/
def readPair? (header : List String) (root : Entries) (s : List Char) :
    Option (Entries × List Char) := do
  let (path, rest) ← readPath? s.length s
  let rest ← after? '=' rest
  let rest := skipSpaces rest
  let (v, rest) ← readValue? (2 * rest.length + 2) maxDepth rest
  let root ← changeWithin (addDotted (path.getLast?.getD "") v path.dropLast) header root
  some (root, rest)

/-- Reads the rest of a header after its opening bracket. -/
def readHeader? (root : Entries) : List Char → Option (List String × Entries × List Char)
  | '[' :: r => do
    let (path, rest) ← readPath? r.length r
    let rest ← after? ']' rest
    let rest ← after? ']' rest
    let root ← changeAt openElement path root
    some (path, root, rest)
  | r => do
    let (path, rest) ← readPath? r.length r
    let rest ← after? ']' rest
    let root ← changeAt openTable path root
    some (path, root, rest)

/-- Reads the lines of a document, given the header in force and the entries so far. -/
def readLines? : Nat → List String → Entries → List Char → Option Entries
  | 0, _, _, _ => none
  | fuel + 1, header, root, s =>
    match endLine? s with
    | some [] => some root
    | some rest => readLines? fuel header root rest
    | none =>
      match skipSpaces s with
      | '[' :: r => do
        let (header, root, rest) ← readHeader? root r
        readLines? fuel header root (← endLine? rest)
      | rest => do
        let (root, rest) ← readPair? header root rest
        readLines? fuel header root (← endLine? rest)

/-- The byte order mark. -/
def byteOrderMark : Char := Char.ofNat 0xFEFF

/-- Reads a document, of which a byte order mark in front is no part. -/
def read? (document : String) : Option Entries :=
  let s := match document.toList with
    | c :: r => if c = byteOrderMark then r else c :: r
    | [] => []
  readLines? (s.length + 1) [] [] s

end Sprocket.Toml
