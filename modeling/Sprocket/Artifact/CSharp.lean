import Sprocket.Method
import Sprocket.Text.Blank
import Sprocket.Writer

/-!
# C# contexts

A context written as a C# class. Every method becomes one call into the runtime, chosen by its
return shape; rows get a result class and a mapping from the reader. Parameters are bound under
their remote names, marks included, and read from fields without marks.
-/

namespace Sprocket.CSharp

/-- The C# name of a host type. -/
def typeName : HostType → String
  | .binary => "Byte[]"
  | t => t.label

/-- The C# name of a host type that may hold no value. -/
def optionalTypeName (t : HostType) : String :=
  if t.isValueType then typeName t ++ "?" else typeName t

/-- The layout of C# code. -/
def layout : Layout := .braces (.spaces 4)

/-- A property of a class. -/
def property (type : HostType) (name : String) : WriterStep :=
  .emit ("public " ++ optionalTypeName type ++ " " ++ name ++ " \x7b get; set; \x7d")

/-- The class that holds one row of a method; other methods have none. -/
def resultClass (m : Method) : List WriterStep :=
  match m.shape with
  | .rowSequence columns =>
    [.emit ("public class " ++ m.name ++ "Result"), .emit "\x7b"]
      ++ columns.map (fun c => property c.type c.name)
      ++ [.emit "\x7d", .blank]
  | _ => []

/-- The class that holds the parameters of a method. -/
def parameterClass (m : Method) : List WriterStep :=
  [.emit ("public class " ++ m.name ++ "Parameters"), .emit "\x7b"]
    ++ m.parameters.map (fun p => property p.type p.fieldName)
    ++ [.emit "\x7d"]

/-- The trimmed lines of a doc comment. -/
def docLines (doc : String) : List String :=
  (Text.lines doc.toList).map fun line => String.ofList (Text.trim line)

/-- The summary in front of a method. -/
def summary (m : Method) : List WriterStep :=
  match m.doc with
  | none => []
  | some doc =>
    [.emit "///<summary>"] ++ (docLines doc).map (fun line => .emit ("///" ++ line))
      ++ [.emit "///</summary>"]

/-- The parameter list of a method. -/
def argument (m : Method) : String :=
  if m.parameters.isEmpty then "" else m.name ++ "Parameters parameters"

/-- The return type of a method. -/
def returnType (m : Method) : String :=
  match m.shape with
  | .rowSequence _ => "IEnumerable<" ++ m.name ++ "Result>"
  | .scalar type => typeName type
  | .affectedCount => "int"

/-- The first line of a method. -/
def signature (m : Method) : String :=
  "public " ++ returnType m ++ " " ++ m.name ++ "(" ++ argument m ++ ")"

/-- The first line of the runtime call. -/
def call (m : Method) : String :=
  match m.shape with
  | .rowSequence _ => "return new SqlQuery(Settings).ExecuteObjectArray("
  | .scalar type =>
    "return (" ++ typeName type ++ ") new SqlQuery(Settings).ExecuteScalar("
  | .affectedCount => "return new SqlQuery(Settings).ExecuteNonQuery("

/-- What follows the parameters of the runtime call: a comma where a mapping comes next. -/
def bindingEnd (m : Method) : String :=
  match m.shape with
  | .rowSequence _ => ","
  | _ => ""

/-- The binding of one parameter. -/
def bindingLine (p : Parameter) : String :=
  "_.AddWithValue(\"" ++ p.name ++ "\", parameters." ++ p.fieldName ++ ");"

/-- The parameters of the runtime call. -/
def bindings (m : Method) : List WriterStep :=
  if m.parameters.isEmpty then [.emit ("parameters : _ => \x7b\x7d" ++ bindingEnd m)]
  else
    [.emit "parameters : _ =>", .emit "\x7b", .emit "if (parameters == null) return;"]
      ++ m.parameters.map (fun p => .emit (bindingLine p))
      ++ [.emit ("\x7d" ++ bindingEnd m)]

/-- The reading of one column, with what separates it from the next one. -/
def mappingLine (c : ResultColumn) (separator : String) : String :=
  c.name ++ " = reader[\"" ++ c.name ++ "\"] as " ++ optionalTypeName c.type ++ separator

/-- The readings of columns, separated by commas. -/
def mappingLines : List ResultColumn → List String
  | [] => []
  | [c] => [mappingLine c ""]
  | c :: rest => mappingLine c "," :: mappingLines rest

/-- The mapping from the reader to a result; only rows have one. -/
def mapping (m : Method) : List WriterStep :=
  match m.shape with
  | .rowSequence columns =>
    [.emit ("mapping : reader => new " ++ m.name ++ "Result()"), .emit "\x7b"]
      ++ (mappingLines columns).map .emit
      ++ [.emit "\x7d"]
  | _ => []

/-- The body of a method. -/
def body (m : Method) : List WriterStep :=
  [.emit (signature m), .emit "\x7b", .emit (call m), .indent,
      .emit ("query : \"" ++ m.procedure ++ "\",")]
    ++ bindings m ++ mapping m
    ++ [.dedent, .emit ");", .emit "\x7d"]

/-- A method with its parameter class and its summary. -/
def method (m : Method) : List WriterStep :=
  [.emit ("#region " ++ m.procedure)] ++ parameterClass m ++ summary m ++ body m
    ++ [.emit "#endregion"]

/-- The class of a context. -/
def contextClass (c : Context) : List WriterStep :=
  [.emit ("public class " ++ c.name ++ " : DataflipContext"), .emit "\x7b",
      .emit ("public " ++ c.name ++ "(DataflipSettings settings) : base(settings)"),
      .emit "\x7b\x7d", .blank,
      .emit ("public " ++ c.name ++ "() : base(\"" ++ c.name ++ "\")"), .emit "\x7b\x7d", .blank,
      .emit "#region Result Classes"]
    ++ c.methods.flatMap resultClass
    ++ [.emit "#endregion", .blank]
    ++ c.methods.flatMap (fun m => method m ++ [.blank])
    ++ [.emit "\x7d"]

/-- The steps that write a context. -/
def steps (c : Context) : List WriterStep :=
  [.emit "using System;", .emit "using System.Collections.Generic;", .emit "using System.Linq;",
      .emit "using Dataflip;", .blank, .emit ("namespace " ++ c.namespaceName), .emit "\x7b"]
    ++ contextClass c ++ [.emit "\x7d"]

/-- The C# text of a context. -/
def render (c : Context) : Except EmitError String := layout.render (steps c)

end Sprocket.CSharp
