import Schemata.Declared.Instance
import Schemata.Value.Default

/-!
# Intake

Declarations and values arrive as JSON.  Taking them in builds up a program as it
goes, since what is declared first can be mentioned later, and numbers the objects
it makes, since each is a different one.

What is not of the agreed form is refused as malformed.  JSON nests, and so does
everything taken in; the nesting of the input bounds every reader here
(`Value.height`).
-/

namespace Schemata

namespace Value

/-- The value at a key, if there is one and it is not null. -/
def field? (v : Value) (key : String) : Option Value :=
  match v with
  | .dict es => (entryAt? key es).bind nonNull?
  | _ => none

/-- The value at a key, also if it is null. -/
def present? (v : Value) (key : String) : Option Value :=
  match v with
  | .dict es => entryAt? key es
  | _ => none

/-- The list at a key, empty if there is none. -/
def items (v : Value) (key : String) : List Value :=
  match v.field? key with
  | some (.list xs) => xs
  | _ => []

/-- The text at a key. -/
def words? (v : Value) (key : String) : Option String :=
  (v.field? key).bind text?

/-- Whether the value at a key is true. -/
def flag (v : Value) (key : String) : Bool :=
  match v.field? key with
  | some (.bool b) => b
  | _ => false

end Value

/-- What has been taken in. -/
structure Intake where
  program : Program := {}
  /-- How many objects have been made. -/
  made : Nat := 0
  /-- What names will stand for that are declared later. -/
  upcoming : List (String × Token) := []
  deriving Inhabited

namespace Intake

/-- A reader of one kind of thing. -/
abbrev Reader (α : Type) := EStateM Fault Intake α

/-- The refusal of what is not of the agreed form. -/
def malformed {α : Type} (what : String) : Reader α :=
  throw (.aborted ("malformed " ++ what))

/-- What is there, or else a refusal. -/
def require {α : Type} (what : String) : Option α → Reader α
  | some a => return a
  | none => malformed what

/-- What a name stands for, now or later. -/
def lookup (i : Intake) (name : String) : Option Token :=
  (i.program.lookup name) <|> (getKey? name i.upcoming)

/-- A number for a new object. -/
def serial : Reader Nat := fun i => .ok (i.made + 1) { i with made := i.made + 1 }

/-- The outcome of a pure computation. -/
def lift {α : Type} : Except Fault α → Reader α
  | .ok a => return a
  | .error e => throw e

end Intake

end Schemata
