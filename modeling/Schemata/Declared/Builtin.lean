import Schemata.Schema.Kind

/-!
# Types that need no declaration

The types every program can mention: leaf types and the brands over them, the
collections, the roots that classes are derived from.  `Builtin.facts` says about
each of them all that matters here.  Two types may have one name: an abstract
collection and the concrete one, a collection and its alias.

An *alias* stands for another builtin type but is not the same type.
-/

namespace Schemata

/-- What a collection holds its items in. -/
inductive Container where
  | sequence
  | set
  | mapping
  deriving DecidableEq, Repr, Inhabited

/-- A type that needs no declaration. -/
inductive Builtin where
  -- leaf types
  | text | truth | integer | double | decimal | date | moment | clock | duration
  | bytes | buffer | uuid | anything | nothing | object
  -- brands
  | int32 | int64 | uint32 | uint64 | float32 | float64 | char | url | email
  -- collections
  | list | tuple | set | frozenSet | dict | deque | orderedDict
  | sequence | mutableSequence | iterable | collection | abstractSet | mutableSet
  | mapping | mutableMapping
  -- aliases of collections
  | listAlias | dictAlias | setAlias | tupleAlias
  -- roots
  | model | enumeration | generic | protocol
  -- the mark of a variable of the class
  | classVariable
  -- the mark of what is to be unpacked
  | unpack
  deriving DecidableEq, Repr, Inhabited

namespace Builtin

/-- What matters about a builtin type. -/
structure Facts where
  /-- The word by which programs mention it; empty where they do not. -/
  word : String
  /-- Its own name. -/
  name : String
  /-- The module it comes from; empty for the types that need no import. -/
  home : String
  kind : Option Kind := none
  container : Option Container := none

/-- The facts of the type with a word that is also its name. -/
def named (name home : String) : Facts := ⟨name, name, home, none, none⟩

/-- A leaf type. -/
def leaf (word name home : String) (kind : Kind) : Facts := ⟨word, name, home, some kind, none⟩

/-- A brand. -/
def brand (name : String) (kind : Kind) : Facts := leaf name name "schemacraft.kinds" kind

/-- A collection. -/
def holding (word name home : String) (container : Container) : Facts :=
  ⟨word, name, home, none, some container⟩

/-- An abstract collection. -/
def abstractly (name : String) (container : Container) : Facts :=
  holding name name "collections.abc" container

/-- **The facts of every builtin type.** -/
def facts : Builtin → Facts
  | .text => leaf "str" "str" "" .text
  | .truth => leaf "bool" "bool" "" .boolean
  | .integer => leaf "int" "int" "" .integer
  | .double => leaf "float" "float" "" .double
  | .decimal => leaf "Decimal" "Decimal" "decimal" .decimal
  | .date => leaf "date" "date" "datetime" .date
  | .moment => leaf "datetime" "datetime" "datetime" .dateTime
  | .clock => leaf "time" "time" "datetime" .time
  | .duration => leaf "timedelta" "timedelta" "datetime" .duration
  | .bytes => leaf "bytes" "bytes" "" .binary
  | .buffer => leaf "bytearray" "bytearray" "" .binary
  | .uuid => leaf "UUID" "UUID" "uuid" .uuid
  | .anything => leaf "Any" "Any" "typing" .any
  | .nothing => leaf "" "NoneType" "" .null
  | .object => leaf "object" "object" "" .object
  | .int32 => brand "Int32" .int32
  | .int64 => brand "Int64" .int64
  | .uint32 => brand "UInt32" .uint32
  | .uint64 => brand "UInt64" .uint64
  | .float32 => brand "Float32" .float
  | .float64 => brand "Float64" .double
  | .char => brand "Char" .char
  | .url => brand "Url" .uri
  | .email => brand "Email" .email
  | .list => holding "list" "list" "" .sequence
  | .tuple => holding "tuple" "tuple" "" .sequence
  | .set => holding "set" "set" "" .set
  | .frozenSet => holding "frozenset" "frozenset" "" .set
  | .dict => holding "dict" "dict" "" .mapping
  | .deque => named "deque" "collections"
  | .orderedDict => named "OrderedDict" "collections"
  | .sequence => abstractly "Sequence" .sequence
  | .mutableSequence => abstractly "MutableSequence" .sequence
  | .iterable => abstractly "Iterable" .sequence
  | .collection => abstractly "Collection" .sequence
  | .abstractSet => holding "AbstractSet" "Set" "collections.abc" .set
  | .mutableSet => abstractly "MutableSet" .set
  | .mapping => abstractly "Mapping" .mapping
  | .mutableMapping => abstractly "MutableMapping" .mapping
  | .listAlias => named "List" "typing"
  | .dictAlias => named "Dict" "typing"
  | .setAlias => named "Set" "typing"
  | .tupleAlias => named "Tuple" "typing"
  | .model => named "BaseModel" "pydantic.main"
  | .enumeration => named "Enum" "enum"
  | .generic => named "Generic" "typing"
  | .protocol => named "Protocol" "typing"
  | .classVariable => named "ClassVar" "typing"
  | .unpack => ⟨"", "Unpack", "typing", none, none⟩

/-- All builtin types. -/
def all : List Builtin :=
  [.text, .truth, .integer, .double, .decimal, .date, .moment, .clock, .duration, .bytes,
   .buffer, .uuid, .anything, .nothing, .object, .int32, .int64, .uint32, .uint64, .float32,
   .float64, .char, .url, .email, .list, .tuple, .set, .frozenSet, .dict, .deque, .orderedDict,
   .sequence, .mutableSequence, .iterable, .collection, .abstractSet, .mutableSet, .mapping,
   .mutableMapping, .listAlias, .dictAlias, .setAlias, .tupleAlias, .model, .enumeration,
   .generic, .protocol, .classVariable, .unpack]

/-- The builtin type a word mentions. -/
def ofWord? (s : String) : Option Builtin :=
  all.find? fun b => b.facts.word == s

/-- The type an alias stands for. -/
def aliased? : Builtin → Option Builtin
  | .listAlias => some .list
  | .dictAlias => some .dict
  | .setAlias => some .set
  | .tupleAlias => some .tuple
  | _ => none

/-- The type itself, or the one it is an alias of. -/
def origin (b : Builtin) : Builtin := b.aliased?.getD b

/-- Whether this is a brand: a new name for a leaf type, not a class. -/
def isBrand (b : Builtin) : Bool := b.facts.home == "schemacraft.kinds"

/-- Whether this is a class. -/
def isClass (b : Builtin) : Bool :=
  b.aliased?.isNone && !b.isBrand && b != .classVariable && b != .unpack

/-- The name with the module in front. -/
def qualifiedName (b : Builtin) : String :=
  let f := b.facts
  if f.home.isEmpty then f.name else f.home ++ "." ++ f.name

/-- The roots of class hierarchies: a base among them says nothing about a class. -/
def isRoot : Builtin → Bool
  | .object | .model | .enumeration | .generic | .protocol => true
  | _ => false

/-- The builtin base of a builtin class that is not a root. -/
def base? : Builtin → Option Builtin
  | .orderedDict => some .dict
  | .truth => some .integer
  | .moment => some .date
  | _ => none

/-- The abstract collections above an abstract collection, nearest first. -/
def above : Builtin → List Builtin
  | .collection => [.iterable]
  | .sequence | .abstractSet | .mapping => [.collection, .iterable]
  | .mutableSequence => [.sequence, .collection, .iterable]
  | .mutableSet => [.abstractSet, .collection, .iterable]
  | .mutableMapping => [.mapping, .collection, .iterable]
  | _ => []

/-- The builtin classes from a class upwards. -/
def ancestry (b : Builtin) : List Builtin :=
  match b with
  | .object => [.object]
  | .protocol => [.protocol, .generic, .object]
  | b => b :: (b.base?.toList ++ b.above ++ [.object])

end Builtin

end Schemata
