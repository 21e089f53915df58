/-!
# Host types

The value types that generated code can use. Every type name a database reports and every type
token a manifest spells resolves to exactly one of them, and each backend has its own name for
each of them. Client code sees them through the coarser `ClientType`.
-/

namespace Sprocket

/-- A value type of generated host code. -/
inductive HostType where
  | byte | int16 | int32 | int64
  | single | double | decimal
  | boolean | string
  | dateTime | dateTimeOffset | timeSpan
  | binary | guid | object
  deriving DecidableEq, Repr, Inhabited

/-- The family a host type belongs to. -/
inductive HostKind where
  | integer | float | decimal | text | boolean | dateTime | binary | uniqueIdentifier | other
  deriving DecidableEq, Repr

/-- A primitive of client code; `dynamic` stands for whatever has no primitive of its own. -/
inductive ClientType where
  | text | numeric | boolean | date | dynamic
  deriving DecidableEq, Repr

namespace HostType

/-- Every host type once. -/
def all : List HostType :=
  [byte, int16, int32, int64, single, double, decimal, boolean, string, dateTime, dateTimeOffset,
    timeSpan, binary, guid, object]

/-- The family of a host type. -/
def kind : HostType → HostKind
  | byte | int16 | int32 | int64 => .integer
  | single | double => .float
  | decimal => .decimal
  | string => .text
  | boolean => .boolean
  | dateTime | dateTimeOffset => .dateTime
  | binary => .binary
  | guid => .uniqueIdentifier
  | timeSpan | object => .other

/-- Whether a host type holds numbers. -/
def isNumeric (t : HostType) : Bool :=
  match t.kind with
  | .integer | .float | .decimal => true
  | _ => false

/-- Whether a host type needs a wrapper to hold no value. -/
def isValueType : HostType → Bool
  | string | binary | object => false
  | _ => true

/-- The client primitive of a host type. -/
def client (t : HostType) : ClientType :=
  match t.kind with
  | .text => .text
  | .integer | .float | .decimal => .numeric
  | .boolean => .boolean
  | .dateTime => .date
  | .binary | .uniqueIdentifier | .other => .dynamic

/-- The spelling of a host type in a context dump. -/
def key : HostType → String
  | byte => "byte"
  | int16 => "int16"
  | int32 => "int32"
  | int64 => "int64"
  | single => "single"
  | double => "double"
  | decimal => "decimal"
  | boolean => "boolean"
  | string => "string"
  | dateTime => "date_time"
  | dateTimeOffset => "date_time_offset"
  | timeSpan => "time_span"
  | binary => "binary"
  | guid => "guid"
  | object => "object"

/-- The spelling of a host type in messages. -/
def label : HostType → String
  | byte => "Byte"
  | int16 => "Int16"
  | int32 => "Int32"
  | int64 => "Int64"
  | single => "Single"
  | double => "Double"
  | decimal => "Decimal"
  | boolean => "Boolean"
  | string => "String"
  | dateTime => "DateTime"
  | dateTimeOffset => "DateTimeOffset"
  | timeSpan => "TimeSpan"
  | binary => "Binary"
  | guid => "Guid"
  | object => "Object"

/-- The host type with a given spelling in a context dump. -/
def ofKey? (s : String) : Option HostType := all.find? (·.key == s)

theorem mem_all (t : HostType) : t ∈ all := by cases t <;> decide

theorem ofKey?_key (t : HostType) : ofKey? t.key = some t := by cases t <;> rfl

end HostType

end Sprocket
