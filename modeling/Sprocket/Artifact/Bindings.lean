import Sprocket.Method
import Sprocket.Writer

/-!
# Markup bindings

A context written as markup to copy from: a table bound to the rows of each method, and an input
bound to each parameter, under the same field names as in the typings.
-/

namespace Sprocket.Bindings

/-- The layout of markup. -/
def layout : Layout := .braces (.spaces 2)

/-- The cell of a column. -/
def cell (camel : Bool) (c : ResultColumn) : String :=
  "<td>\x7b\x7bitem." ++ Naming.client camel c.name ++ "\x7d\x7d</td>"

/-- The row of a method's table. -/
def row (m : Method) : String :=
  "<tr *ngFor=\"let item of " ++ Naming.client true m.name ++ "\">"

/-- What is bound to the result of a method. -/
def result (camel : Bool) (m : Method) : List WriterStep :=
  match m.shape with
  | .rowSequence columns =>
    [.emit "<table>", .indent, .emit (row m), .indent]
      ++ columns.map (fun c => .emit (cell camel c))
      ++ [.dedent, .emit "</tr>", .dedent, .emit "</table>"]
  | _ => [.emit "<!-- Method returns a basic type. -->"]

/-- The input of a parameter. -/
def input (camel : Bool) (p : Parameter) : String :=
  "<input name=\"" ++ Naming.client camel p.name ++ "\" [(ngModel)]=\"parameters."
    ++ Naming.client camel p.name ++ "\" />"

/-- What is bound to the parameters of a method. -/
def inputs (camel : Bool) (m : Method) : List WriterStep :=
  (if m.parameters.isEmpty then [.emit "<!-- Method expects no parameters. -->"] else [])
    ++ m.parameters.map (fun p => .emit (input camel p))

/-- The markup of a method. -/
def method (camel : Bool) (m : Method) : List WriterStep :=
  [.emit ("<!-- Bindings for " ++ m.name ++ "_Result -->")] ++ result camel m
    ++ [.emit ("<!-- Bindings for " ++ m.name ++ "_Parameters -->")] ++ inputs camel m

/-- The steps that write a context. -/
def steps (camel : Bool) (c : Context) : List WriterStep :=
  .emit ("<!-- Angular bindings for " ++ c.name ++ " -->")
    :: c.methods.flatMap fun m => .blank :: method camel m

/-- The markup of a context. -/
def render (camel : Bool) (c : Context) : Except EmitError String := layout.render (steps camel c)

end Sprocket.Bindings
