import Schemata.Declared.Enumeration
import Schemata.Declared.TypeExpr
import Schemata.Descriptor.Basic

/-!
# Programs

A program is what the types of an input are declared in: classes, brands, and
descriptors made by hand, each known under a name.  A name declared twice stands for
the later declaration.

Classes are declared in order, so that the bases of a class come before it.  What a
class inherits is therefore settled when it is declared and kept with it: the classes
above it, the fields of a record, and the fields of a model.  The types of fields are not
looked up then, because they may mention declarations that follow.
-/

namespace Schemata

/-- A field as a class declares it. -/
structure Field where
  name : String
  type : TypeExpr
  default : Option Value := none
  /-- What making a default gives, or why it fails. -/
  factory : Option (Except Fault Value) := none
  /-- The description assigned to the field. -/
  description : Option FieldNote := none
  deriving Inhabited

namespace Field

/-- What the field holds when it is not given. -/
def given? (f : Field) : Option (Except Fault Value) :=
  match f.default with
  | some v => some (.ok v)
  | none => f.factory

end Field

/-- What a class does to make an instance. -/
structure Initializer where
  /-- How many arguments it needs. -/
  needs : Nat
  failure : Option String
  sets : List (String × Value)
  deriving Inhabited

/-- What a class is declared as. -/
inductive ClassForm where
  | record
  | model
  | plain
  | enumeration (e : Enumeration)
  deriving Inhabited

/-- A field of a record. -/
structure RecordField where
  name : String
  /-- What it holds when it is not given; a field without is required. -/
  default : Option (Except Fault Value)
  deriving Inhabited

/-- A field of a model. -/
structure ModelField where
  name : String
  /-- Its type without metadata. -/
  type : TypeExpr
  limits : List Metadata
  texts : FieldTexts
  /-- What it holds when it is not given; a field without is required. -/
  default : Option (Except Fault Value)
  deriving Inhabited

/-- A declared class. -/
structure Class where
  name : String
  module : String
  qualname : String
  form : ClassForm := .plain
  /-- The name its schema is published under, if not its own. -/
  publishedName : Option String := none
  annotations : List Record := []
  /-- The classes it is directly derived from. -/
  bases : List Token := []
  /-- The variables it is applied to. -/
  parameters : List Token := []
  /-- Its own fields. -/
  fields : List Field := []
  /-- Its own attributes; `none` for one that cannot be read. -/
  attributes : List (String × Option Value) := []
  init : Option Initializer := none
  /-- The text its instances describe themselves with. -/
  spoken : Option String := none
  /-- The classes above it, nearest first. -/
  ancestry : List Token := []
  /-- The class that fixes how its instances are laid out, if one does. -/
  layout : Option Token := none
  /-- The names that a record and the records above it give a type, each with its field; a
  variable of the class is none, nor is what is only taken. -/
  places : List (String × Option RecordField) := []
  /-- The same names, each with what making a record takes under it and the record does not
  keep. -/
  taken : List (String × Option RecordField) := []
  /-- The fields of a record. -/
  recordFields : Option (List RecordField) := none
  modelFields : List ModelField := []
  deriving Inhabited

/-- The name with the module in front. -/
def Class.qualifiedName (c : Class) : String := c.module ++ "." ++ c.qualname

/-- A declared brand: a new name for a type. -/
structure Brand where
  name : String
  module : String
  qualname : String
  publishedName : Option String := none
  of : Token
  deriving Inhabited

/-- The name with the module in front. -/
def Brand.qualifiedName (b : Brand) : String := b.module ++ "." ++ b.qualname

/-- The declarations of an input. -/
structure Program where
  classes : List Class := []
  brands : List Brand := []
  crafted : List Descriptor := []
  /-- What the declared names stand for. -/
  names : List (String × Token) := []
  deriving Inhabited

namespace Program

/-- What a name stands for; builtin types come first. -/
def lookup (p : Program) (name : String) : Option Token :=
  if name = "none" then some .none
  else match Builtin.ofWord? name with
    | some b => some (.builtin b)
    | none => getKey? name p.names

/-- A declared class. -/
def class? (p : Program) : Token → Option Class
  | .declared i => p.classes[i]?
  | _ => none

end Program

end Schemata
