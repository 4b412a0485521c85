import Schemata.Value.Basic
import Schemata.Fault.Basic

/-!
# Equality of values

Two values are equal by what they denote, across kinds: truth values, integers,
doubles and decimals are all numbers and are compared as numbers, two sequences
of one kind element by element, two mappings entry by entry whatever the order.
A member of a mixed enumeration is equal to its plain value, any other member
only to itself.

Equality is not a mere truth value.  A signaling not-a-number that meets another
number refuses the comparison, and so does every comparison that reaches such a
meeting; this is why `Value.equal` may fail.  `Value.same` is the reading in which
a refused comparison is no equality.

Inside a collection a value is equal to itself before anything else is asked: this is
where a member of an enumeration, or an object, counts as equal although what it holds
is not equal to anything (`Value.identical`, `Value.matchesElement`).

`Value.checkKey` says which values can be keys: those that are not, or do not
contain, something that can change.
-/

namespace Schemata

/-- A number reduced to what comparisons look at. -/
inductive Numeral where
  | finite (negative : Bool) (coefficient : Nat) (exponent : Int)
  | infinite (negative : Bool)
  | quiet
  | signaling
  deriving DecidableEq, Repr

namespace Numeral

/-- A decimal reduced to its canonical form; zero has no sign. -/
def ofDecimal : Decimal → Numeral
  | .finite neg c e =>
    let (k, p) := Decimal.canonical c e
    .finite (neg && k != 0) k p
  | .infinite neg => .infinite neg
  | .nan _ true _ => .signaling
  | .nan _ false _ => .quiet

/-- Equal numbers.  Not-a-number equals nothing; a signaling one fails. -/
def equal : Numeral → Numeral → Except Fault Bool
  | .signaling, _ => .error .signalingComparison
  | _, .signaling => .error .signalingComparison
  | .quiet, _ => .ok false
  | _, .quiet => .ok false
  | a, b => .ok (a == b)

end Numeral

/-- Instances of one class of records, with as many fields. -/
def ObjectLabel.alike (a b : ObjectLabel) (fields fields' : Nat) : Bool :=
  a.form != .plain && a.form == b.form && a.qualifiedName == b.qualifiedName && fields == fields'

namespace Value

/-- The number a value is. -/
def numeral? (v : Value) : Option Numeral :=
  match v.core with
  | .bool b => some (.ofDecimal (.ofInt (if b then 1 else 0)))
  | .int n => some (.ofDecimal (.ofInt n))
  | .float x => some (.ofDecimal x.toDecimal)
  | .decimal d => some (.ofDecimal d)
  | _ => none

/-- Equality of values that contain no other values. -/
def scalarEqual (a b : Value) : Except Fault Bool :=
  match a.numeral?, b.numeral? with
  | some x, some y => x.equal y
  | some _, none => .ok false
  | none, some _ => .ok false
  | none, none =>
    match a, b with
    | .null, .null => .ok true
    | .text s, .text t => .ok (s == t)
    | .bytes _ s, .bytes _ t => .ok (s == t)
    | .date s, .date t => .ok (s == t)
    | .moment s, .moment t => .ok (s.same t)
    | .clock s, .clock t => .ok (s.same t)
    | .duration s, .duration t => .ok (s == t)
    | .uuid s, .uuid t => .ok (s == t)
    | _, _ => .ok false

/-- Whether a test succeeds for some element, in order; a failing test before that
fails the search. -/
def anyOf (test : Value → Except Fault Bool) : List Value → Except Fault Bool
  | [] => .ok false
  | x :: xs => do if ← test x then return true else anyOf test xs

/-- The entry whose key passes a test must also pass a test of its value. -/
def entryOf (key : Value → Except Fault Bool) (value : Value → Except Fault Bool) :
    List (Value × Value) → Except Fault Bool
  | [] => .ok false
  | (k, v) :: es => do if ← key k then value v else entryOf key value es

/-- One and the same member or object. -/
def identical : Value → Value → Bool
  | .member l m _, .member l' m' _ => l.ident == l'.ident && m == m'
  | .object l _ _, .object l' _ _ => l.serial == l'.serial
  | _, _ => false

/-- The test that succeeds at once for the very same value. -/
def orIdentical (x : Value) (test : Value → Except Fault Bool) (y : Value) : Except Fault Bool :=
  if identical x y then .ok true else test y

mutual

/-- **Equality of values.** -/
def equal : Value → Value → Except Fault Bool
  | .list xs, b =>
    match b.core with
    | .list ys => if xs.length = ys.length then equalLists xs ys else .ok false
    | _ => .ok false
  | .tuple xs, b =>
    match b.core with
    | .tuple ys => do return (← equalLists xs ys) && xs.length == ys.length
    | _ => .ok false
  | .set _ xs, b =>
    match b.core with
    | .set _ ys => if xs.length = ys.length then allWithin xs ys else .ok false
    | _ => .ok false
  | .dict es, b =>
    match b.core with
    | .dict fs => if es.length = fs.length then entriesWithin es fs else .ok false
    | _ => .ok false
  | .member label name v, b =>
    if label.mixed then equal v b
    else match b.core with
      | .member label' name' _ => .ok (label.ident == label'.ident && name == name')
      | _ => .ok false
  | .object label (some v) attributes, b =>
    if label.form == .plain then equal v b
    else match b.core with
      | .object label' _ attributes' =>
        if label.alike label' attributes.length attributes'.length then
          equalFields attributes attributes'
        else .ok false
      | _ => .ok false
  | .object label none attributes, b =>
    match b.core with
    | .object label' _ attributes' =>
      if label.form == .plain then .ok (label.serial == label'.serial)
      else if label.alike label' attributes.length attributes'.length then
        equalFields attributes attributes'
      else .ok false
    | _ => .ok false
  | a, b => scalarEqual a b.core
termination_by structural a => a

/-- Equality of the elements that two sequences have in the same places. -/
def equalLists : List Value → List Value → Except Fault Bool
  | x :: xs, y :: ys => do
    if ← orIdentical x (equal x) y then equalLists xs ys else return false
  | _, _ => .ok true
termination_by structural xs => xs

/-- Every element is equal to one of the others. -/
def allWithin : List Value → List Value → Except Fault Bool
  | [], _ => .ok true
  | x :: xs, ys => do
    if ← anyOf (orIdentical x (equal x)) ys then allWithin xs ys else return false
termination_by structural xs => xs

/-- Every entry has an equal one among the others. -/
def entriesWithin : List (Value × Value) → List (Value × Value) → Except Fault Bool
  | [], _ => .ok true
  | (k, v) :: es, fs => do
    if ← entryOf (orIdentical k (equal k)) (orIdentical v (equal v)) fs then
      entriesWithin es fs
    else return false
termination_by structural es => es

/-- Equality of records with the same fields. -/
def equalFields : List (String × Value) → List (String × Value) → Except Fault Bool
  | (n, x) :: xs, (m, y) :: ys => do
    if n == m then
      if ← orIdentical x (equal x) y then equalFields xs ys else return false
    else return false
  | _, _ => .ok true
termination_by structural xs => xs

end

/-- Two values are equal, and comparing them does not fail. -/
def same (a b : Value) : Bool :=
  match equal a b with
  | .ok r => r
  | .error _ => false

/-- Whether a value matches another as an element of a collection. -/
def matchesElement (v w : Value) : Except Fault Bool :=
  orIdentical v (equal v) w

/-- Whether a value is among others. -/
def isAmong (v : Value) (xs : List Value) : Except Fault Bool :=
  anyOf (matchesElement v) xs

/-- A value that can change. -/
def isMutable : Value → Bool
  | .list _ => true
  | .dict _ => true
  | .set frozen _ => !frozen
  | .bytes mutable _ => mutable
  | _ => false

/-- A value of a kind that can never be a key, whatever the value holds. -/
def isChangeable : Value → Bool
  | .member label _ v => label.mixed && v.isMutable
  | .object label extended _ => label.form != .plain || extended.any isMutable
  | v => v.isMutable

mutual

/-- Fails with the reason when a value cannot be a key. -/
def checkKey : Value → Except Fault Unit
  | .list _ => .error (.unhashable "list")
  | .dict _ => .error (.unhashable "dict")
  | .set frozen _ => if frozen then .ok () else .error (.unhashable "set")
  | .bytes mutable _ => if mutable then .error (.unhashable "bytearray") else .ok ()
  | .tuple xs => checkKeys xs
  | .decimal (.nan _ true _) => .error .signalingKey
  | .object label none _ =>
    if label.form == .plain then .ok () else .error (.unhashable label.className)
  | .object label (some v) _ =>
    if label.form == .plain then
      if v.isMutable then .error (.unhashable label.className) else checkKey v
    else .error (.unhashable label.className)
  | .member label _ v =>
    if label.mixed then
      if v.isMutable then .error (.unhashable label.name) else checkKey v
    else .ok ()
  | _ => .ok ()
termination_by structural v => v

/-- Fails at the first value that cannot be a key. -/
def checkKeys : List Value → Except Fault Unit
  | [] => .ok ()
  | x :: xs => do checkKey x; checkKeys xs
termination_by structural xs => xs

end

end Value

end Schemata
