import Schemata.Value.Literal

/-!
# Annotation records

An annotation is a name with positional and named arguments.  Records are plain
data: what a record means is decided where records are folded into constraints,
and a record with a name that means nothing there is carried along without
effect.
-/

namespace Schemata

/-- An annotation on a type or a property. -/
structure Record where
  name : String
  args : List Value := []
  named : List (String × Value) := []
  deriving Repr, Inhabited

namespace Record

/-- A positional argument, null where there is none. -/
def arg (r : Record) (i : Nat) : Value :=
  (r.args[i]?).getD .null

/-- A named argument, or else a positional one. -/
def namedOr (r : Record) (key : String) (i : Nat) : Value :=
  (getKey? key r.named).getD (r.arg i)

/-- A group of named constraints on a property. -/
def property (named : List (String × Value)) : Record := ⟨"Property", [], named⟩

/-- A group of named constraints on a type. -/
def schema (named : List (String × Value)) : Record := ⟨"Schema", [], named⟩

/-- Bounds on a length. -/
def length (least greatest : Value) : Record := ⟨"Length", [least, greatest], []⟩

/-- The values to choose from. -/
def choices (values : List Value) : Record := ⟨"Choices", values, []⟩

/-- The name of the record that makes a property take all undeclared ones. -/
def catchAllName : String := "AdditionalProperties"

/-- A record that makes a property take all undeclared ones. -/
def isCatchAll (r : Record) : Bool :=
  r.name == catchAllName

/-- The ready-made records, by name. -/
def readyMade? (name : String) : Option Record :=
  match name with
  | "RequiredProperty" => some ⟨"RequiredProperty", [], []⟩
  | "AdditionalProperties" => some ⟨catchAllName, [], []⟩
  | "NotEmpty" => some ⟨"NotEmpty", [], []⟩
  | "Deprecated" => some ⟨"Deprecated", [], []⟩
  | "AsArray" => some (property [("array", .bool true)])
  | _ => none

/-- The spelling of a record inside the name of a type made with it. -/
def spelled (r : Record) : String :=
  "AnnotationRecord(name=" ++ Text.quoted r.name ++ ", args=" ++ (Value.tuple r.args).spelled ++
    ", kwargs=" ++ (Value.ofFields r.named).spelled ++ ")"

/-- Records with one name, equal arguments and equal named arguments. -/
def same (r r' : Record) : Bool :=
  r.name == r'.name && (Value.tuple r.args).same (.tuple r'.args) &&
    (Value.ofFields r.named).same (.ofFields r'.named)

/-- Records never serve as keys: their named arguments can change.  Their positional
ones are looked at first. -/
def checkKey (r : Record) : Except Fault Unit := do
  Value.checkKeys r.args
  .error (.unhashable "dict")

end Record

end Schemata
