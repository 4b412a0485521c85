import Schemata.Declared.Token

/-!
# Descriptors

A descriptor is everything the synthesis of schemas gets to see of a declared type:
its shape, its own properties, its annotations, and how to obtain an instance to
read defaults from.  Descriptors are read off declarations or made by hand.

What a type *is* to the synthesis is its key: the declaration it was read from, or
the value its maker named as its source, or else the descriptor itself.  Two
descriptors with one key are the same type, whatever else they say.
-/

namespace Schemata

/-- The shapes of types. -/
inductive Shape where
  | primitive
  | nullable
  | enum
  | array
  | map
  | object
  | unknown
  deriving DecidableEq, Repr, Inhabited

namespace Shape

/-- The word for a shape. -/
def word : Shape → String
  | .primitive => "primitive"
  | .nullable => "nullable"
  | .enum => "enum"
  | .array => "array"
  | .map => "map"
  | .object => "object"
  | .unknown => "unknown"

/-- All shapes. -/
def all : List Shape := [.primitive, .nullable, .enum, .array, .map, .object, .unknown]

/-- The shape a word stands for. -/
def ofWord? (s : String) : Option Shape :=
  all.find? fun x => x.word == s

end Shape

/-- One own property of an object type. -/
structure Property where
  name : String
  type : Token
  annotations : List Record := []
  /-- The property takes all undeclared ones. -/
  catchAll : Bool := false
  required : Bool := false
  /-- Where its value is found on an instance, if not under its name. -/
  accessor : Option String := none
  deriving Repr, Inhabited

/-- Where the value of a property is found on an instance. -/
def Property.accessorName (p : Property) : String :=
  match p.accessor with
  | some a => if a.isEmpty then p.name else a
  | none => p.name

/-- Which descriptor this is. -/
inductive Identity where
  /-- Made by hand; its place among those. -/
  | crafted (index : Nat)
  /-- Read off a type and kept; its place among those. -/
  | kept (index : Nat)
  /-- Read off a type that cannot be kept; different from every other. -/
  | passing
  deriving DecidableEq, Repr, Inhabited

/-- The same descriptor. -/
def Identity.same : Identity → Identity → Bool
  | .passing, _ => false
  | a, b => a == b

/-- Shape and metadata of one declared type. -/
structure Descriptor where
  identity : Identity := .passing
  name : String
  shape : Shape
  kind : Option Kind := none
  /-- What a nullable type wraps, an array holds or a map maps to. -/
  inner : Token := .none
  base : Option Token := none
  /-- The names of the members of an enumeration. -/
  members : List String := []
  properties : List Property := []
  annotations : List Record := []
  /-- What making an instance gives, or why it fails. -/
  factory : Option (Except Fault Value) := none
  source : Option Token := none
  uniqueItems : Bool := false

namespace Descriptor

/-- The names of the properties that take a value of their own. -/
def propertyNames (d : Descriptor) : List String :=
  (d.properties.filter fun p => !p.catchAll).map Property.name

end Descriptor

instance : Inhabited Descriptor := ⟨{ name := "", shape := .unknown }⟩

/-- What makes a type the type it is. -/
structure Key where
  source : Option Token
  holder : Identity
  deriving Inhabited

namespace Key

/-- The same type. -/
def same (a b : Key) : Bool :=
  match a.source, b.source with
  | some s, some t => s.same t || a.holder.same b.holder
  | none, none => a.holder.same b.holder
  | _, _ => false

/-- Whether a key is among others. -/
def isAmong (k : Key) (ks : List Key) : Bool :=
  ks.any k.same

/-- Keys without those that are the same as a given one. -/
def without (k : Key) (ks : List Key) : List Key :=
  ks.filter fun k' => !k.same k'

/-- Fails with the reason when a key cannot be looked up. -/
def check (k : Key) : Except Fault Unit :=
  match k.source with
  | some t => t.checkKey
  | none => .ok ()

end Key

/-- The key of a described type. -/
def Descriptor.key (d : Descriptor) : Key := ⟨d.source, d.identity⟩

end Schemata
