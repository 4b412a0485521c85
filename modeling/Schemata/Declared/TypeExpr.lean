import Schemata.Declared.Token

/-!
# Type expressions

A type as a declaration writes it, with names that still have to be looked up.  Unions,
optional types and added metadata are written freely here; what becomes of them when the
names are looked up is said where types are evaluated.
-/

namespace Schemata

/-- A type as written. -/
inductive TypeExpr where
  | name (s : String)
  /-- A generic type applied to arguments. -/
  | apply (head : String) (args : List TypeExpr)
  | ellipsis
  | optional (of : TypeExpr)
  | union (members : List TypeExpr)
  /-- A union written with bars. -/
  | pipe (members : List TypeExpr)
  | literal (values : List Value)
  | annotated (of : TypeExpr) (metadata : List Metadata)
  | classVar (of : TypeExpr)
  | initVar (of : TypeExpr)
  /-- What a type holds under a name, written with a dot. -/
  | part (of : TypeExpr) (name : String)
  /-- A type that mentions no names. -/
  | token (t : Token)
  deriving Repr, Inhabited

namespace TypeExpr

/-- Whether a field of this type is a variable of the class instead. -/
def isClassVar : TypeExpr → Bool
  | .classVar _ => true
  | .name s => s == Builtin.classVariable.facts.word
  | _ => false

/-- Whether a record takes a value for a field of this type when it is made, but does not keep
it. -/
def isInitVar : TypeExpr → Bool
  | .initVar _ => true
  | _ => false

/-- Whether a record declares with this type what is no field of it. -/
def isPseudoField (e : TypeExpr) : Bool := e.isClassVar || e.isInitVar

end TypeExpr

end Schemata
