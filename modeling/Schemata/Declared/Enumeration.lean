import Schemata.Declared.Conversion

/-!
# Enumerations

How the members of an enumeration come about from names and values.

An enumeration may *mix in* a builtin type.  Then what is written beside a name are the
arguments of that type, a tuple standing for several, and the value of the member is what
the type makes of them.

A name for a value that an earlier name has is another name of that member.  Values that
can be keys are looked up as keys; the others are compared one by one, which may fail.

In an enumeration of *bits* every value is a whole number.  The members that are listed are
those of a single bit; the others are sets of bits, or none at all.
-/

namespace Schemata

/-- The members of an enumeration. -/
structure Enumeration where
  label : EnumLabel
  /-- Every name with the member it stands for. -/
  members : List (String × Value)
  /-- The names of the members that are listed. -/
  listed : List String
  deriving Inhabited

/-- What an enumeration is declared as. -/
structure EnumerationHead where
  ident : String
  name : String
  /-- The builtin type that is mixed in. -/
  mixin : Option Builtin := none
  /-- Its members are sets of bits. -/
  ofBits : Bool := false
  /-- Its members are shown by their values. -/
  shownByValue : Bool := false
  deriving Repr, Inhabited

/-- A named value of an enumeration, with the name that its member is known by. -/
structure NamedValue where
  name : String
  canonical : String
  value : Value
  deriving Repr, Inhabited

namespace NamedValue

/-- Whether the name is the one its member is known by. -/
def isCanonical (e : NamedValue) : Bool := e.name == e.canonical

/-- The single bit that the value is, as a number. -/
def singleBit? (e : NamedValue) : Option Nat :=
  match e.value.integer? with
  | some n => if 0 < n ∧ Nat.pow 2 n.toNat.log2 = n.toNat then some n.toNat else none
  | none => none

end NamedValue

namespace EnumerationHead

/-! ## Names -/

/-- Characters with one mark, or two, at both ends and something else between. -/
def isMarked (marks : Nat) (cs : List Char) : Bool :=
  let mark := List.replicate marks '_'
  decide (2 * marks < cs.length) && mark.isPrefixOf cs && mark.isPrefixOf cs.reverse &&
    cs[marks]? != some '_' && cs.reverse[marks]? != some '_'

/-- A name that belongs to the class itself: its own name and two marks in front. -/
def isPrivate (h : EnumerationHead) (name : String) : Bool :=
  let start := ("_" ++ h.name ++ "__").toList
  let cs := name.toList
  decide (start.length < cs.length) && start.isPrefixOf cs && cs[start.length]? != some '_' &&
    !((['_', '_'] : List Char).isPrefixOf cs.reverse)

/-- Whether a name is the name of a member; some names are refused. -/
def isMemberName (h : EnumerationHead) (name : String) : Except Fault Bool :=
  if h.isPrivate name then .ok false
  else if isMarked 1 name.toList then
    outOfRange ("_sunder_ names, such as " ++ Text.quoted name ++
      ", are reserved for future Enum use")
  else .ok (!isMarked 2 name.toList)

/-- The names that no member may have. -/
def checkMemberNames (names : List String) : Except Fault Unit :=
  match names.filter fun n => n == "mro" || n.isEmpty with
  | [] => .ok ()
  | bad => outOfRange ("invalid enum member name(s) " ++ ",".intercalate (bad.map Text.quoted))

/-! ## Values -/

/-- The arguments that a written value stands for. -/
def argumentsOf (b : Builtin) (v : Value) : List Value :=
  match v.core with
  | .tuple xs => if b = .tuple then [.tuple xs] else xs
  | _ => if b = .tuple then [.tuple [v]] else [v]

/-- The value of the member for what is written. -/
def convert (h : EnumerationHead) (v : Value) : Except Fault Value :=
  match h.mixin with
  | none => .ok v
  | some .uuid => wrongKind "UUID objects are immutable"
  | some b =>
    match b.make h.name (argumentsOf b v) with
    | .ok made => .ok (made.getD v)
    | .error f =>
      if b.isFilledLater then wrongKind "_value_ not set in __new__, unable to create it"
      else .error f

/-- A set of bits is a whole number. -/
def checkBits (h : EnumerationHead) (v : Value) : Except Fault Unit :=
  if h.ofBits && v.integer?.isNone then
    wrongKind ("unsupported operand type(s) for |=: 'int' and '" ++ v.kindPath ++ "'")
  else .ok ()

/-- The earlier name for a value. -/
def earlier? (v : Value) (done : List NamedValue) : Except Fault (Option NamedValue) :=
  match v.checkKey with
  | .ok () =>
    .ok (done.find? fun e =>
      (e.value.checkKey matches .ok ()) && (v.identical e.value || v.same e.value))
  | .error _ => do
    for e in done do
      if ← e.value.matchesElement v then return some e
    return none

/-- Give each name its value and its member, in order.  Another name of a member has the
value of that member, whatever equal value is written. -/
def nameValues (h : EnumerationHead) :
    List NamedValue → List (String × Value) → Except Fault (List NamedValue)
  | done, [] => .ok done
  | done, (name, written) :: r => do
    let v ← h.convert written
    h.checkBits v
    let named : NamedValue := match ← earlier? v done with
      | some e => ⟨name, e.canonical, e.value⟩
      | none => ⟨name, name, v⟩
    h.nameValues (done ++ [named]) r

/-- The mixed type is one that can be extended. -/
def checkMixin (h : EnumerationHead) : Except Fault Unit :=
  match h.mixin with
  | some .truth => wrongKind "type 'bool' is not an acceptable base type"
  | some .object =>
    wrongKind ("Cannot create a consistent method resolution\norder (MRO) for bases object, " ++
      "Enum")
  | _ => .ok ()

/-- **The enumeration with these names and values.** -/
def enumeration (h : EnumerationHead) (written : List (String × Value)) :
    Except Fault Enumeration := do
  let written ← written.filterM fun e => h.isMemberName e.1
  checkMemberNames (written.map (·.1))
  h.checkMixin
  let named ← h.nameValues [] written
  let bits := named.filterMap fun e =>
    if e.isCanonical then e.singleBit?.map fun n => (e.name, n) else none
  let label : EnumLabel :=
    { ident := h.ident, name := h.name, mixed := h.mixin.isSome, shownByValue := h.shownByValue
      bits := if h.ofBits then some bits else none }
  let listed := if h.ofBits then bits.map (·.1)
    else (named.filter NamedValue.isCanonical).map NamedValue.name
  return {
    label := label
    members := named.map fun e => (e.name, .member label e.canonical e.value)
    listed := listed }

end EnumerationHead

end Schemata
