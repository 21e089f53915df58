import Sprocket.Number.Literal

/-!
# TOML values and tables

A table is a list of keys with values, in the order they were written. How a table came about
decides what may still be added to it: an inline table is closed, a table named by a header may
not be named again, one that only lies on the way to another header may still be named, and one
made by dotted keys grows by dotted keys only.
-/

namespace Sprocket.Toml

/-- How a table came about. -/
inductive TableKind where
  | inlined | header | implied | dotted
  deriving DecidableEq, Repr

/-- A TOML value. An array made of `[[…]]` headers is told apart from a written one. -/
inductive Value where
  | string (text : String)
  | integer (value : Int)
  | float (literal : Number.Literal)
  | boolean (value : Bool)
  | moment (text : String)
  | array (ofTables : Bool) (items : List Value)
  | table (kind : TableKind) (entries : List (String × Value))

/-- The keys and values of a table. -/
abbrev Entries : Type := List (String × Value)

namespace Entries

/-- The value of a key. -/
def get? (es : Entries) (key : String) : Option Value := (es.find? (·.1 == key)).map (·.2)

/-- The entries with the value of a present key replaced. -/
def replace (es : Entries) (key : String) (v : Value) : Entries :=
  es.map fun e => if e.1 == key then (key, v) else e

/-- The entries with a key set, whether it is present or not. -/
def set (es : Entries) (key : String) (v : Value) : Entries :=
  if (es.get? key).isSome then es.replace key v else es ++ [(key, v)]

/-- The entries with a new key; a key that is present is not set again. -/
def addNew (es : Entries) (key : String) (v : Value) : Option Entries :=
  if (es.get? key).isSome then none else some (es ++ [(key, v)])

end Entries

/-- Changes the entries of the last table of an array. -/
def changeLast (change : Entries → Option Entries) : List Value → Option (List Value)
  | [] => none
  | [.table kind es] => (change es).map fun es' => [.table kind es']
  | v :: rest => (changeLast change rest).map (v :: ·)

/-- Adds a value under a dotted key. The tables on the way must have been made by dotted keys, or
may lie on the way to a header as long as they are not the last one. -/
def addDotted (key : String) (v : Value) : List String → Entries → Option Entries
  | [], es => es.addNew key v
  | step :: path, es =>
    match es.get? step with
    | none => (addDotted key v path []).map fun sub => es.set step (.table .dotted sub)
    | some (.table kind sub) =>
      if kind = .dotted ∨ (kind = .implied ∧ path ≠ []) then
        (addDotted key v path sub).map fun sub' => es.set step (.table kind sub')
      else none
    | some (.array true items) =>
      if path = [] then none
      else (changeLast (addDotted key v path) items).map fun items' =>
        es.set step (.array true items')
    | some _ => none

/-- Changes what a header names. Tables on the way are made where they are missing; of an array of
tables the last one is meant. -/
def changeAt (change : Option Value → Option Value) : List String → Entries → Option Entries
  | [], _ => none
  | [key], es => (change (es.get? key)).map (es.set key)
  | step :: path, es =>
    match es.get? step with
    | none => (changeAt change path []).map fun sub => es.set step (.table .implied sub)
    | some (.table kind sub) =>
      if kind = .inlined then none
      else (changeAt change path sub).map fun sub' => es.set step (.table kind sub')
    | some (.array true items) =>
      (changeLast (changeAt change path) items).map fun items' => es.set step (.array true items')
    | some _ => none

/-- What a `[…]` header makes of the value under its name. -/
def openTable : Option Value → Option Value
  | none => some (.table .header [])
  | some (.table .implied es) => some (.table .header es)
  | some _ => none

/-- What a `[[…]]` header makes of the value under its name. -/
def openElement : Option Value → Option Value
  | none => some (.array true [.table .header []])
  | some (.array true items) => some (.array true (items ++ [.table .header []]))
  | some _ => none

/-- Changes the table a header has opened. -/
def changeWithin (change : Entries → Option Entries) : List String → Entries → Option Entries
  | [], es => change es
  | step :: path, es =>
    match es.get? step with
    | some (.table kind sub) =>
      (changeWithin change path sub).map fun sub' => es.set step (.table kind sub')
    | some (.array true items) =>
      (changeLast (changeWithin change path) items).map fun items' =>
        es.set step (.array true items')
    | _ => none

end Sprocket.Toml
