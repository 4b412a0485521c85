import Schemata.Value.Literal

/-!
# Schema nodes

A schema is a tree of nodes.  Three kinds of node carry constraints of their own
and are called *concrete*: a leaf value, an object and an array.  The other three
only point somewhere or combine: a reference to a schema stored under a name, a
composition (`allOf`) and a union (`anyOf`); a title and a description may ride
along with them, nothing else.

What the concrete kinds share is `Keywords`.  A keyword that is not set is `none`,
`false` or an empty list; a default or an example of null counts as not set.
-/

namespace Schemata

/-- The types of JSON. -/
inductive JsonType where
  | string | number | integer | boolean | object | array | null
  deriving DecidableEq, Repr, Inhabited

namespace JsonType

/-- The word a schema uses for a type. -/
def word : JsonType → String
  | .string => "string"
  | .number => "number"
  | .integer => "integer"
  | .boolean => "boolean"
  | .object => "object"
  | .array => "array"
  | .null => "null"

/-- All types. -/
def all : List JsonType :=
  [.string, .number, .integer, .boolean, .object, .array, .null]

/-- The type a word stands for. -/
def ofWord? (s : String) : Option JsonType :=
  all.find? fun t => t.word == s

theorem ofWord?_word (t : JsonType) : ofWord? t.word = some t := by
  cases t <;> rfl

end JsonType

/-- A number in a constraint: whole, or a finite or infinite double. -/
inductive Number where
  | int (n : Int)
  | float (x : Binary64)
  deriving DecidableEq, Repr, Inhabited

/-- A number as a value. -/
def Number.toValue : Number → Value
  | .int n => .int n
  | .float x => .float x

/-- A number in a constraint, or what stands for it. -/
abbrev Bound := Carried Number

/-- The keywords that every concrete node may carry. -/
structure Keywords where
  title : Option Wording := none
  description : Option Wording := none
  format : Option Wording := none
  /-- The value may also be null. -/
  nullable : Bool := false
  minimum : Option Bound := none
  maximum : Option Bound := none
  /-- The minimum itself is excluded. -/
  exclusiveMinimum : Bool := false
  /-- The maximum itself is excluded. -/
  exclusiveMaximum : Bool := false
  multipleOf : Option Bound := none
  minLength : Option Int := none
  maxLength : Option Int := none
  pattern : Option Wording := none
  minItems : Option Int := none
  maxItems : Option Int := none
  uniqueItems : Bool := false
  minProperties : Option Int := none
  maxProperties : Option Int := none
  required : List Wording := []
  unevaluatedProperties : Option Bool := none
  readOnly : Bool := false
  writeOnly : Bool := false
  deprecated : Bool := false
  default : Option Value := none
  sample : Option Value := none
  samples : List Value := []
  choices : List Value := []
  /-- Vendor data, under keys of its own. -/
  extensions : List (Wording × Value) := []
  deriving Repr, Inhabited

/-- A schema node. -/
inductive Node where
  /-- A leaf value; without a type it accepts anything. -/
  | leaf (keywords : Keywords) (type : Option JsonType)
  /-- An object: its properties, the schema of further ones, or whether there may
  be any. -/
  | object (keywords : Keywords) (properties : List (String × Node)) (additional : Option Node)
      (additionalAllowed : Option Bool)
  /-- An array of items. -/
  | array (keywords : Keywords) (items : Node)
  /-- The schema stored under a name. -/
  | ref (name : String) (title description : Option Wording)
  /-- All of some schemas at once. -/
  | composition (allOf : List Node) (title description : Option Wording)
  /-- Any of some schemas. -/
  | union (anyOf : List Node) (title description : Option Wording)
  deriving Repr, Inhabited

namespace Node

/-- The schema that accepts anything. -/
def untyped : Node := .leaf {} none

/-- The schema of null. -/
def nullMarker : Node := .leaf {} (some .null)

/-- A reference that carries nothing else. -/
def refTo (name : String) : Node := .ref name none none

/-- An object without any properties or constraints. -/
def emptyObject : Node := .object {} [] none none

/-- The keywords of a concrete node. -/
def keywords? : Node → Option Keywords
  | .leaf k _ => some k
  | .object k _ _ _ => some k
  | .array k _ => some k
  | _ => none

/-- Whether a node carries constraints of its own. -/
def isConcrete (n : Node) : Bool :=
  n.keywords?.isSome

/-- Change the keywords of a concrete node; any other node is left alone. -/
def mapKeywords (f : Keywords → Keywords) : Node → Node
  | .leaf k t => .leaf (f k) t
  | .object k ps a allowed => .object (f k) ps a allowed
  | .array k items => .array (f k) items
  | n => n

/-- Put a title and a description on a node; `none` leaves what is there. -/
def withTexts (title description : Option Wording) : Node → Node
  | .ref name t d => .ref name (title <|> t) (description <|> d)
  | .composition ns t d => .composition ns (title <|> t) (description <|> d)
  | .union ns t d => .union ns (title <|> t) (description <|> d)
  | n => n.mapKeywords fun k =>
      { k with title := title <|> k.title, description := description <|> k.description }

/-- Give an object a property; any other node is left alone. -/
def withProperty (n : Node) (name : String) (property : Node) : Node :=
  match n with
  | .object k ps a allowed => .object k (setKey name property ps) a allowed
  | n => n

/-- The bare schema of null, whatever else it carries. -/
def isNull : Node → Bool
  | .leaf _ (some .null) => true
  | _ => false

/-- **Also accept null.**  A leaf without a type and the schema of null accept it
already.  Other concrete nodes are flagged, a union gets a null branch unless it
has one, and everything else is wrapped in a union with null, so that what it
points at is left alone. -/
def makeNullable : Node → Node
  | .leaf k none => .leaf k none
  | .leaf k (some .null) => .leaf k (some .null)
  | .leaf k t => .leaf { k with nullable := true } t
  | .object k ps a allowed => .object { k with nullable := true } ps a allowed
  | .array k items => .array { k with nullable := true } items
  | .union ns t d => if ns.any isNull then .union ns t d else .union (ns ++ [nullMarker]) t d
  | n => .union [n, nullMarker] none none

/-- Whether making a node nullable changes it in place rather than wrapping it. -/
def nullableInPlace : Node → Bool
  | .ref .. => false
  | .composition .. => false
  | _ => true

end Node

end Schemata
