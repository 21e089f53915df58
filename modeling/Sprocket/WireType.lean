import Sprocket.HostType
import Sprocket.Text.Ascii
import Sprocket.Text.Blank

/-!
# Type names on the wire

What database servers call their types, and what a manifest calls the type of a sample value.
A server's spelling depends on its dialect, so a lookup is always made in one dialect; blanks at
the ends and the case of ASCII letters make no difference.
-/

namespace Sprocket

/-- The kind of server that reports type names. -/
inductive Dialect where
  | sqlServer | postgres
  deriving DecidableEq, Repr, Inhabited

/-- The type a sample value is bound with when a procedure is tried. -/
inductive BindType where
  | bigInt | binary | bit | text | dateTime | dateTimeOffset | decimal | float | int | real
  | smallInt | time | tinyInt | uniqueIdentifier | xml
  deriving DecidableEq, Repr, Inhabited

/-- What a type token stands for: the host type and the bind type of a value. -/
structure TokenType where
  host : HostType
  bind : BindType
  deriving DecidableEq, Repr, Inhabited

/-- A type name that stands for nothing. -/
inductive TypeError where
  | unknownWireType (dialect : Dialect) (name : String)
  | unknownToken (token : String)
  deriving DecidableEq, Repr

namespace Dialect

/-- The name of a dialect in messages. -/
def id : Dialect → String
  | sqlServer => "sqlserver"
  | postgres => "postgres"

/-- The dialect with a given name. -/
def ofId? (s : String) : Option Dialect := [sqlServer, postgres].find? (·.id == s)

/-- The type names of a dialect, grouped by the host type they stand for. -/
def typeNames : Dialect → List (List String × HostType)
  | sqlServer =>
    [(["bigint"], .int64),
      (["binary", "varbinary", "image", "timestamp", "rowversion"], .binary),
      (["bit"], .boolean),
      (["char", "nchar", "varchar", "nvarchar", "text", "ntext", "xml", "sysname"], .string),
      (["date", "datetime", "datetime2", "smalldatetime"], .dateTime),
      (["datetimeoffset"], .dateTimeOffset),
      (["decimal", "numeric", "money", "smallmoney"], .decimal),
      (["float"], .double),
      (["real"], .single),
      (["int"], .int32),
      (["smallint"], .int16),
      (["tinyint"], .byte),
      (["time"], .timeSpan),
      (["uniqueidentifier"], .guid),
      (["structured", "udt", "variant", "sql_variant"], .object)]
  | postgres =>
    [(["smallint", "int2"], .int16),
      (["integer", "int", "int4"], .int32),
      (["bigint", "int8"], .int64),
      (["real", "float4"], .single),
      (["double precision", "float8"], .double),
      (["numeric", "decimal", "money"], .decimal),
      (["boolean", "bool"], .boolean),
      (["text", "character varying", "varchar", "character", "char", "bpchar", "name", "citext",
        "xml", "json", "jsonb"], .string),
      (["date", "timestamp", "timestamp without time zone"], .dateTime),
      (["timestamptz", "timestamp with time zone"], .dateTimeOffset),
      (["time", "time without time zone", "timetz", "time with time zone", "interval"],
        .timeSpan),
      (["bytea"], .binary),
      (["uuid"], .guid),
      (["record"], .object)]

end Dialect

/-- The tokens a manifest may write for the type of a value. -/
def typeTokens : List (List String × TokenType) :=
  [(["int64", "long", "bigint"], ⟨.int64, .bigInt⟩),
    (["byte[]", "binary"], ⟨.binary, .binary⟩),
    (["boolean", "bool", "bit"], ⟨.boolean, .bit⟩),
    (["string", "varchar", "text"], ⟨.string, .text⟩),
    (["datetime"], ⟨.dateTime, .dateTime⟩),
    (["datetimeoffset"], ⟨.dateTimeOffset, .dateTimeOffset⟩),
    (["decimal", "numeric", "number"], ⟨.decimal, .decimal⟩),
    (["integer", "int", "int32"], ⟨.int32, .int⟩),
    (["float", "double"], ⟨.double, .float⟩),
    (["single"], ⟨.single, .real⟩),
    (["int16", "short"], ⟨.int16, .smallInt⟩),
    (["timespan"], ⟨.timeSpan, .time⟩),
    (["byte"], ⟨.byte, .tinyInt⟩),
    (["guid"], ⟨.guid, .uniqueIdentifier⟩),
    (["xml"], ⟨.string, .xml⟩)]

/-- The form a type name is looked up in: trimmed, with small ASCII letters. -/
def lookupForm (s : List Char) : String := String.ofList (Text.asciiLower (Text.trim s))

/-- The entry of a table of names that lists a name. -/
def lookupName {α : Type} (table : List (List String × α)) (name : List Char) : Option α :=
  (table.find? (·.1.contains (lookupForm name))).map (·.2)

/-- The host type a dialect's type name stands for. -/
def Dialect.hostType (d : Dialect) (name : String) : Except TypeError HostType :=
  match lookupName d.typeNames name.toList with
  | some t => .ok t
  | none => .error (.unknownWireType d name)

/-- What a type token stands for, if it is one. -/
def TokenType.ofToken? (token : List Char) : Option TokenType := lookupName typeTokens token

/-- What a type token stands for. -/
def TokenType.ofToken (token : String) : Except TypeError TokenType :=
  match ofToken? token.toList with
  | some t => .ok t
  | none => .error (.unknownToken token)

/-- The text of a type error. -/
def TypeError.message : TypeError → String
  | unknownWireType dialect name =>
    "no host type mapping for " ++ dialect.id ++ " type '" ++ name ++ "'"
  | unknownToken token => "unknown type token '" ++ token ++ "'"

end Sprocket
