import Schemata.Value.Basic

/-!
# Texts and numbers that something stands for

A constraint may be given as a plain text or number, or as a value that stands for one: a
member of an enumeration that mixes the type in, or an instance of a class that extends it.
Such a value is compared and tested as the plain one, and published as it is.
-/

namespace Schemata

/-- Something plain, with the value that was given for it where that is more. -/
structure Carried (α : Type) where
  plain : α
  carrier : Option Value := none
  deriving Repr, Inhabited

/-- A text, or what stands for one. -/
abbrev Wording := Carried String

instance : Coe String Wording := ⟨fun s => ⟨s, none⟩⟩

/-- What is carried counts, not what carries it. -/
instance {α : Type} [BEq α] : BEq (Carried α) := ⟨fun a b => a.plain == b.plain⟩

namespace Carried

/-- Something plain that a value was given for; only a member or an object is more than
the plain thing. -/
def given {α : Type} (v : Value) (plain : α) : Carried α :=
  match v with
  | .member .. | .object .. => ⟨plain, some v⟩
  | _ => ⟨plain, none⟩

/-- The value that was given. -/
def toValue {α : Type} (plainly : α → Value) (c : Carried α) : Value :=
  c.carrier.getD (plainly c.plain)

end Carried

namespace Value

/-- A value as a text, where it is one or stands for one. -/
def wording? (v : Value) : Option Wording :=
  v.text?.map (Carried.given v)

/-- The value of a text or of what stands for it. -/
def ofWording (w : Wording) : Value := w.toValue .text

end Value

end Schemata
