import Schemata.Value.Literal
import Schemata.Value.Part

/-!
# Default values

Not every value a field holds is worth publishing as its default.  The ones that a
declaration would hold anyway --- null, false, zeros, empty texts and empty
collections, the earliest date --- are *intrinsic* and say nothing.

`Value.literal` is the published form of the others.  It differs from
`Value.jsonForm` in what it makes of the value itself: a member of an enumeration
is published by its name, and a decimal as a number, whole if it is.

Values are looked up on an instance by name: a mapping by its entries, an object by
its attributes and then by the parts of the builtin value that it extends.  An attribute
that cannot be read is not there.
-/

namespace Schemata.Value

/-- The zero of a kind of plain values. -/
def zero? : Value → Option Value
  | .bool _ => some (.bool false)
  | .int _ => some (.int 0)
  | .float _ => some (.float .zero)
  | .decimal _ => some (.decimal (.ofInt 0))
  | .text _ => some (.text "")
  | .bytes mutable _ => some (.bytes mutable [])
  | .duration _ => some (.duration .zero)
  | .uuid _ => some (.uuid 0)
  | .moment _ => some (.moment .first)
  | .date _ => some (.date .first)
  | .clock _ => some (.clock .midnight)
  | _ => none

/-- Whether a value is an empty collection. -/
def isEmptyCollection (v : Value) : Bool :=
  match v.core with
  | .list xs => xs.isEmpty
  | .tuple xs => xs.isEmpty
  | .set _ xs => xs.isEmpty
  | .dict es => es.isEmpty
  | _ => false

/-- **Whether a value is what its declaration would hold anyway.** -/
def isIntrinsic (v : Value) : Except Fault Bool :=
  match v with
  | .null => .ok true
  | .member _ _ w => w.equal (.int 0)
  | v =>
    match v.zero? with
    | some z => v.equal z
    | none => .ok v.isEmptyCollection

/-- A decimal as a number. -/
def literalDecimal : Decimal → Except Fault Value
  | .nan _ true _ => .error .signalingComparison
  | .nan neg false payload => .ok (.float (Binary64.ofDecimal (.nan neg false payload)))
  | .infinite _ => .error (.infiniteInteger false)
  | d =>
    match d.toInt? with
    | some n => .ok (.int n)
    | none => .ok (.float (Binary64.ofDecimal d))

/-- **The published form of a default value.** -/
def literal (v : Value) : Except Fault Value :=
  match v with
  | .member _ name _ => .ok (.text name)
  | v =>
    match v.core with
    | .decimal d => literalDecimal d
    | _ => v.jsonForm

/-- The value under a text among some entries. -/
def entryAt? (key : String) (es : List (Value × Value)) : Option Value :=
  (es.find? fun e => e.1.text? == some key).map (·.2)

/-- **The value an instance holds under a name.** -/
def held? (v : Value) (name : String) : Option Value :=
  match v.entries? with
  | some es => entryAt? name es
  | none =>
    match v with
    | .object label extended attributes =>
      if label.failing.contains name then none
      else getKey? name attributes <|> extended.bind fun w => w.part? name
    | .member label own w =>
      if name = "name" then some (.text own) else if name = "value" then some w
      else if label.mixed then w.part? name else none
    | v => v.part? name

end Schemata.Value
