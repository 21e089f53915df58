import Sprocket.Method
import Sprocket.Writer

/-!
# TypeScript typings

A context written as a TypeScript namespace with two classes a method: the fields of its result
and those of its parameters. Host types are written as the client primitives they belong to.
-/

namespace Sprocket.Typings

/-- The TypeScript name of a client primitive. -/
def clientTypeName : ClientType → String
  | .text => "string"
  | .numeric => "number"
  | .boolean => "boolean"
  | .date => "Date"
  | .dynamic => "any"

/-- The TypeScript name of a host type. -/
def typeName (t : HostType) : String := clientTypeName t.client

/-- The layout of TypeScript code. -/
def layout : Layout := .braces (.spaces 2)

/-- A field of a class. -/
def field (camel : Bool) (name : String) (type : HostType) : WriterStep :=
  .emit (Naming.client camel name ++ ": " ++ typeName type ++ ";")

/-- The class of a method's result. -/
def resultClass (camel : Bool) (m : Method) : List WriterStep :=
  [.emit ("export class " ++ m.name ++ "_Result"), .emit "\x7b"]
    ++ (match m.shape with
      | .rowSequence columns => columns.map fun c => field camel c.name c.type
      | _ => [.emit "/* Method returns a basic type. */"])
    ++ [.emit "\x7d"]

/-- The class of a method's parameters. -/
def parameterClass (camel : Bool) (m : Method) : List WriterStep :=
  [.emit ("export class " ++ m.name ++ "_Parameters"), .emit "\x7b"]
    ++ (if m.parameters.isEmpty then [.emit "/* No parameters. */"] else [])
    ++ m.parameters.map (fun p => field camel p.name p.type)
    ++ [.emit "\x7d"]

/-- The two classes of a method. -/
def method (camel : Bool) (m : Method) : List WriterStep :=
  resultClass camel m ++ parameterClass camel m

/-- The classes of methods, with an empty line between two methods. -/
def methods (camel : Bool) : List Method → List WriterStep
  | [] => []
  | [m] => method camel m
  | m :: rest => method camel m ++ [.blank] ++ methods camel rest

/-- The steps that write a context. -/
def steps (camel : Bool) (c : Context) : List WriterStep :=
  [.emit ("export namespace " ++ c.name), .emit "\x7b"] ++ methods camel c.methods
    ++ [.emit "\x7d"]

/-- The TypeScript text of a context. -/
def render (camel : Bool) (c : Context) : Except EmitError String := layout.render (steps camel c)

end Sprocket.Typings
