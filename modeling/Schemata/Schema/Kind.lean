import Schemata.Schema.Node

/-!
# Kinds of leaf value

Every leaf value has a kind, and every kind a fragment of schema: a JSON type and
perhaps a format.  A single character is a text of length one.  Unsigned integers
have no format of their own and share that of the signed ones.
-/

namespace Schemata

/-- The kinds of leaf value. -/
inductive Kind where
  | text | char | boolean
  | integer | int32 | int64 | uint32 | uint64
  | number | float | double | decimal
  | date | dateTime | time | duration
  | binary | uuid | uri | email
  | object | null | any
  deriving DecidableEq, Repr, Inhabited

namespace Kind

/-- All kinds. -/
def all : List Kind :=
  [.text, .char, .boolean, .integer, .int32, .int64, .uint32, .uint64, .number, .float, .double,
   .decimal, .date, .dateTime, .time, .duration, .binary, .uuid, .uri, .email, .object, .null,
   .any]

/-- The word for a kind. -/
def word : Kind → String
  | .text => "text"
  | .char => "char"
  | .boolean => "boolean"
  | .integer => "integer"
  | .int32 => "int32"
  | .int64 => "int64"
  | .uint32 => "uint32"
  | .uint64 => "uint64"
  | .number => "number"
  | .float => "float"
  | .double => "double"
  | .decimal => "decimal"
  | .date => "date"
  | .dateTime => "date-time"
  | .time => "time"
  | .duration => "duration"
  | .binary => "binary"
  | .uuid => "uuid"
  | .uri => "uri"
  | .email => "email"
  | .object => "object"
  | .null => "null"
  | .any => "any"

/-- The kind a word stands for. -/
def ofWord? (s : String) : Option Kind :=
  all.find? fun k => k.word == s

theorem ofWord?_word (k : Kind) : ofWord? k.word = some k := by
  cases k <;> rfl

/-- The JSON type of a kind; a value of any type has none. -/
def jsonType : Kind → Option JsonType
  | .text | .char | .date | .dateTime | .time | .duration | .binary | .uuid | .uri | .email =>
    some .string
  | .boolean => some .boolean
  | .integer | .int32 | .int64 | .uint32 | .uint64 => some .integer
  | .number | .float | .double | .decimal => some .number
  | .object => some .object
  | .null => some .null
  | .any => none

/-- The format of a kind. -/
def format : Kind → Option String
  | .int32 | .uint32 => some "int32"
  | .int64 | .uint64 => some "int64"
  | .float => some "float"
  | .double => some "double"
  | .decimal => some "decimal"
  | .date => some "date"
  | .dateTime => some "date-time"
  | .time => some "time"
  | .duration => some "duration"
  | .binary => some "binary"
  | .uuid => some "uuid"
  | .uri => some "uri"
  | .email => some "email"
  | _ => none

/-- **The fragment of schema for a kind.** -/
def schema (k : Kind) : Node :=
  let length : Option Int := if k = .char then some 1 else none
  .leaf
    { format := k.format.map fun s => (s : Wording), minLength := length, maxLength := length }
    k.jsonType

end Kind

end Schemata
