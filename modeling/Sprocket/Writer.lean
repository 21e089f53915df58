import Sprocket.Text.Split

/-!
# Writing indented code

A writer appends units of code, each on lines of its own, and keeps the depth of open blocks. The
depth follows the first and last character of a unit: one that begins with the closing delimiter
closes a block before it is written, and one that begins with the opening delimiter and does not
end with the closing one opens a block after it is written. Markup without delimiters changes the
depth by explicit steps.
-/

namespace Sprocket

/-- What one level of depth is written as. -/
inductive Indent where
  | spaces (width : Nat)
  | tab
  deriving DecidableEq, Repr

/-- The text of one level: two, four or eight columns, a tab, and four columns for any other
width. -/
def Indent.text : Indent → String
  | spaces 2 => "  "
  | spaces 4 => "    "
  | spaces 8 => "        "
  | spaces _ => "    "
  | tab => "\t"

/-- How code is laid out: the indentation and the two delimiters of a block. -/
structure Layout where
  indent : Indent
  opener : Char
  closer : Char
  deriving DecidableEq, Repr

/-- One thing a writer is asked to do. -/
inductive WriterStep where
  | emit (unit : String)
  | blank
  | indent
  | dedent
  deriving DecidableEq, Repr

/-- A block closed where none is open, by the unit `line`. -/
structure EmitError where
  line : String
  deriving DecidableEq, Repr

/-- The text of an emission error. -/
def EmitError.message (e : EmitError) : String :=
  "cannot close a block at depth 0 (line '" ++ e.line ++ "')"

namespace Layout

/-- Curly braces around blocks. -/
def braces (indent : Indent) : Layout := ⟨indent, '{', '}'⟩

/-- Whether a unit begins with the opening delimiter. -/
def begins (l : Layout) (unit : List Char) : Bool := unit.head? == some l.opener

/-- Whether a unit closes a block. -/
def closes (l : Layout) (unit : List Char) : Bool :=
  unit.head? == some l.closer && !l.begins unit

/-- Whether a unit leaves a block open. -/
def opens (l : Layout) (unit : List Char) : Bool :=
  l.begins unit && unit.getLast? != some l.closer

/-- One line at a depth, with its newline; an empty line is not indented. -/
def line (l : Layout) (depth : Nat) (content : List Char) : List Char :=
  if content.isEmpty then ['\n']
  else (List.replicate depth l.indent.text.toList).flatten ++ content ++ ['\n']

/-- The lines of a unit at a depth. -/
def block (l : Layout) (depth : Nat) (unit : List Char) : List Char :=
  (Text.pieces '\n' unit).flatMap (l.line depth)

end Layout

/-- A layout with the depth reached and the text written so far. -/
structure Writer where
  layout : Layout
  depth : Nat
  text : String
  deriving DecidableEq, Repr

/-- Something done with a writer. It may fail on the way, and then leaves the writer as it is at
that point. -/
abbrev Writing : Type → Type := EStateM EmitError Writer

namespace Writer

/-- A writer that has written nothing. -/
def empty (layout : Layout) : Writer := ⟨layout, 0, ""⟩

/-- Appends text behind what is there. -/
def append (added : List Char) : Writing Unit :=
  modify fun w => { w with text := w.text ++ String.ofList added }

/-- Opens a block or a level. -/
def raise : Writing Unit := modify fun w => { w with depth := w.depth + 1 }

/-- Closes a block or a level by a unit. -/
def lower (unit : String) : Writing Unit := do
  let w ← get
  if w.depth = 0 then throw ⟨unit⟩ else set { w with depth := w.depth - 1 }

/-- Carries out one step. -/
def step : WriterStep → Writing Unit
  | .blank => append ['\n']
  | .indent => raise
  | .dedent => lower ""
  | .emit unit => do
    let layout := (← get).layout
    if layout.closes unit.toList then lower unit
    append (layout.block (← get).depth unit.toList)
    if layout.opens unit.toList then raise

/-- Carries out steps in order, up to the first one that fails. -/
def run (w : Writer) : List WriterStep → Except EmitError Writer
  | [] => .ok w
  | s :: rest =>
    match (step s).run w with
    | .error e _ => .error e
    | .ok _ next => next.run rest

/-- The writer after a step, and the error if the step fails. -/
def answer (w : Writer) (s : WriterStep) : Writer × Option EmitError :=
  match (step s).run w with
  | .error e next => (next, some e)
  | .ok _ next => (next, none)

/-- Carries out steps in order, going on past those that fail; each one is answered with the
writer after it. -/
def runPast (w : Writer) : List WriterStep → List (Writer × Option EmitError)
  | [] => []
  | s :: rest => w.answer s :: (w.answer s).1.runPast rest

end Writer

/-- The text that steps write from nothing. -/
def Layout.render (l : Layout) (steps : List WriterStep) : Except EmitError String :=
  ((Writer.empty l).run steps).map (·.text)

end Sprocket
