import Schemata.Number.Shortest
import Schemata.Temporal.Duration

/-!
# Values

The values that annotations, default values and configuration files carry.  They
are dynamic on purpose: what a declaration may hold is wider than JSON, and the
job of the library is to say which of it reaches a published schema and in what
form.

Three constructors are about declared types rather than plain data.

* `member` is a member of an enumeration, with the value behind it.  Some
  enumerations mix a plain type in; their members take part in comparisons as
  that plain value.  The members of others are sets of bits, and such a member can be
  walked through bit by bit.
* `object` is an instance of a declared class: its fields or attributes, and the
  builtin value it extends where its class derives from a builtin.

A mapping is a list of entries in insertion order.
-/

namespace Schemata

/-- Which enumeration a member belongs to. -/
structure EnumLabel where
  /-- The identity of the enumeration. -/
  ident : String
  /-- Its name. -/
  name : String
  /-- Its members stand for their values in comparisons. -/
  mixed : Bool
  /-- Its members are shown by their values. -/
  shownByValue : Bool
  /-- The single bits with their names, in the order declared, where its members are sets
  of bits. -/
  bits : Option (List (String × Nat)) := none
  deriving DecidableEq, Repr, Inhabited

/-- What an instance of a declared class is made of. -/
inductive ObjectForm where
  /-- A record of fields; two are equal when their fields are. -/
  | fields
  /-- A record of fields that are published under other names. -/
  | model (aliases : List (String × String))
  /-- An ordinary object with attributes; equal only to itself. -/
  | plain
  deriving DecidableEq, Repr, Inhabited

/-- Which object an instance is. -/
structure ObjectLabel where
  /-- The name of its class. -/
  className : String
  /-- The name of its class with the module in front. -/
  qualifiedName : String
  form : ObjectForm
  /-- Tells instances apart. -/
  serial : Nat
  /-- The text the object describes itself with. -/
  spoken : Option String
  /-- The attributes that cannot be read. -/
  failing : List String
  deriving DecidableEq, Repr, Inhabited

/-- A value. -/
inductive Value where
  | null
  | bool (b : Bool)
  | int (n : Int)
  | float (x : Binary64)
  | decimal (d : Decimal)
  | text (s : String)
  | bytes (mutable : Bool) (bs : List UInt8)
  | date (d : Date)
  | moment (m : Moment)
  | clock (t : Clock)
  | duration (d : Duration)
  | uuid (n : Nat)
  | list (xs : List Value)
  | tuple (xs : List Value)
  | set (frozen : Bool) (xs : List Value)
  | dict (entries : List (Value × Value))
  | member (label : EnumLabel) (name : String) (value : Value)
  | object (label : ObjectLabel) (extended : Option Value) (attributes : List (String × Value))
  deriving Repr, Inhabited

namespace Value

/-- A mapping from names. -/
def ofFields (fields : List (String × Value)) : Value :=
  .dict (fields.map fun f => (.text f.1, f.2))

/-- A list of texts. -/
def ofTexts (xs : List String) : Value :=
  .list (xs.map .text)

/-- A value that may be missing; a missing one is null. -/
def ofOption : Option Value → Value
  | some v => v
  | none => .null

/-- A text that may be missing. -/
def ofText? : Option String → Value
  | some s => .text s
  | none => .null

/-- A value other than null. -/
def nonNull? : Value → Option Value
  | .null => none
  | v => some v

/-- The plain value behind a member of a mixed enumeration or behind an instance of
a class that extends a builtin; any other value is its own. -/
def core : Value → Value
  | .member label name v => if label.mixed then v.core else .member label name v
  | .object label (some v) attributes =>
    match label.form with
    | .plain => v.core
    | _ => .object label (some v) attributes
  | v => v

/-- The text behind a value that is one. -/
def text? (v : Value) : Option String :=
  match v.core with
  | .text s => some s
  | _ => none

/-- The name of the kind of value this is, as messages give it. -/
def kindName : Value → String
  | .null => "NoneType"
  | .bool _ => "bool"
  | .int _ => "int"
  | .float _ => "float"
  | .decimal _ => "Decimal"
  | .text _ => "str"
  | .bytes mutable _ => if mutable then "bytearray" else "bytes"
  | .date _ => "date"
  | .moment _ => "datetime"
  | .clock _ => "time"
  | .duration _ => "timedelta"
  | .uuid _ => "UUID"
  | .list _ => "list"
  | .tuple _ => "tuple"
  | .set frozen _ => if frozen then "frozenset" else "set"
  | .dict _ => "dict"
  | .member label _ _ => label.name
  | .object label _ _ => label.className

/-- The name of the kind of value this is, with the module in front where the kind comes
from one. -/
def kindPath (v : Value) : String :=
  match v with
  | .date _ | .moment _ | .clock _ | .duration _ => "datetime." ++ v.kindName
  | .decimal _ => "decimal." ++ v.kindName
  | v => v.kindName

/-- A value of a kind that needs no declaration and comes from no module. -/
def isPlain : Value → Bool
  | .decimal _ | .uuid _ | .member .. | .object .. => false
  | _ => true

/-- The single bits of a number, lowest first. -/
def bitsOf (n : Nat) : List Nat :=
  ((List.range (n.log2 + 1)).filter n.testBit).map (Nat.pow 2)

/-- The members that a set of bits consists of, in the order declared.  Where a bit has
no name, the bits are given lowest first, with null for each that has none. -/
def bitMembers (label : EnumLabel) (named : List (String × Nat)) (n : Nat) : List Value :=
  let present := bitsOf n
  let one (b : String × Nat) : Value := .member label b.1 (.int b.2)
  if present.all fun b => named.any (·.2 == b) then
    (named.filter fun b => present.contains b.2).map one
  else present.map fun b => ((named.find? (·.2 == b)).map one).getD .null

/-- A whole number, also one given as a truth value. -/
def integer? (v : Value) : Option Int :=
  match v.core with
  | .bool b => some (if b then 1 else 0)
  | .int n => some n
  | _ => none

/-- The elements of a value that can be walked through element by element and is
neither text nor bytes nor a mapping. -/
def elements? (v : Value) : Option (List Value) :=
  match v with
  | .member label _ w =>
    match label.bits with
    | some named => some (bitMembers label named ((w.integer?).getD 0).toNat)
    | none => elementsOf v.core
  | v => elementsOf v.core
where
  /-- The elements of a plain value or a record. -/
  elementsOf : Value → Option (List Value)
  | .list xs => some xs
  | .tuple xs => some xs
  | .set _ xs => some xs
  | .bytes true bs => some (bs.map fun b => .int b.toNat)
  | .object label _ attributes =>
    match label.form with
    | .model _ => some (attributes.map fun a => .tuple [.text a.1, a.2])
    | _ => none
  | _ => none

/-- The entries of a mapping. -/
def entries? (v : Value) : Option (List (Value × Value)) :=
  match v.core with
  | .dict es => some es
  | _ => none

/-- What counts as true: everything but null, false, zeros, empty sets of bits and empty
collections. -/
def truthy (v : Value) : Bool :=
  match v.core with
  | .null => false
  | .bool b => b
  | .int n => n != 0
  | .float x => !x.isZero
  | .decimal d => !d.isZero
  | .text s => !s.isEmpty
  | .bytes _ bs => !bs.isEmpty
  | .duration d => d.micros != 0
  | .list xs => !xs.isEmpty
  | .tuple xs => !xs.isEmpty
  | .set _ xs => !xs.isEmpty
  | .dict es => !es.isEmpty
  | .member label _ w => label.bits.isNone || w.integer? != some 0
  | _ => true

mutual

/-- How deep a value nests. -/
def height : Value → Nat
  | .list xs => heights xs + 1
  | .tuple xs => heights xs + 1
  | .set _ xs => heights xs + 1
  | .dict es => entryHeights es + 1
  | .member _ _ v => v.height + 1
  | .object _ (some v) _ => v.height + 1
  | _ => 1
termination_by structural v => v

/-- How deep some values nest. -/
def heights : List Value → Nat
  | [] => 0
  | x :: xs => max x.height (heights xs)
termination_by structural xs => xs

/-- How deep some entries nest. -/
def entryHeights : List (Value × Value) → Nat
  | [] => 0
  | (_, v) :: es => max v.height (entryHeights es)
termination_by structural es => es

end

/-- The canonical text of a universally unique identifier. -/
def uuidText (n : Nat) : String :=
  let digits := Nat.toDigits 16 n
  let digits := List.replicate (32 - digits.length) '0' ++ digits
  String.ofList (digits.take 8) ++ "-" ++ String.ofList ((digits.drop 8).take 4) ++ "-" ++
    String.ofList ((digits.drop 12).take 4) ++ "-" ++ String.ofList ((digits.drop 16).take 4) ++
    "-" ++ String.ofList (digits.drop 20)

end Value

end Schemata
