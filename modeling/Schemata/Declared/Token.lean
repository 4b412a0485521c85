import Schemata.Declared.Builtin
import Schemata.Annotation.Record

/-!
# Type tokens

A token is whatever stands where a type is expected: a builtin or declared type, a
generic type applied to arguments, a union, a choice of literal values, a type with
metadata attached, a descriptor made by hand, or a mere value.

Tokens are compared by what they mean.  A union is a set of members and a literal
type a set of values, so that neither depends on the order in which it was written,
nor a union on its notation; the values of a literal type are told apart by their
kind as well, since `1` and `True` are equal.  `Token.same` is this equality, and
`Token.checkKey` says which tokens can serve as keys: those whose parts can.

A type that is written out in a text, to be looked up later, is a token of its own.
-/

namespace Schemata

/-- What a description of a field says besides its constraints.  A value that is
null is not said. -/
structure FieldTexts where
  title : Value := .null
  description : Value := .null
  samples : Value := .null
  deprecated : Value := .null
  /-- Another name the field goes by outside. -/
  otherName : Value := .null
  /-- The name the field is published under. -/
  publishedName : Value := .null
  /-- What the field holds when it is not given. -/
  default : Option Value := none
  deriving Repr, Inhabited

/-- A bound or a length. -/
inductive Limit where
  | atLeast (v : Value)
  | moreThan (v : Value)
  | atMost (v : Value)
  | lessThan (v : Value)
  | multipleOf (v : Value)
  | minLength (v : Value)
  | maxLength (v : Value)
  | lengths (least greatest : Value)
  /-- Up to four bounds at once; a bound of null is none. -/
  | interval (moreThan atLeast lessThan atMost : Value)
  deriving Repr, Inhabited

/-- A description of a field. -/
structure FieldNote where
  /-- Tells descriptions apart. -/
  serial : Nat
  /-- What is said, as it was given. -/
  given : List (String × Value)
  /-- The bounds and lengths it gives. -/
  limits : List Limit
  texts : FieldTexts
  deriving Repr, Inhabited

/-- Metadata attached to a type. -/
inductive Metadata where
  | record (r : Record)
  | limit (l : Limit)
  /-- A description of a field: constraints and texts. -/
  | field (d : FieldNote)
  /-- Anything else, which says nothing about the type. -/
  | note (text : String)
  deriving Repr, Inhabited

/-- What a generic type is made from. -/
inductive Head where
  | builtin (b : Builtin)
  | declared (index : Nat)
  deriving DecidableEq, Repr, Inhabited

/-- Whatever stands where a type is expected. -/
inductive Token where
  /-- The value null. -/
  | none
  | builtin (b : Builtin)
  /-- A declared class, by its place among the declarations. -/
  | declared (index : Nat)
  /-- A declared brand, by its place among the declarations. -/
  | brand (index : Nat)
  /-- A descriptor made by hand, by its place among those. -/
  | crafted (index : Nat)
  | generic (head : Head) (args : List Token)
  /-- The dots after the item type of a tuple of any length. -/
  | ellipsis
  /-- A union; `piped` tells the two notations apart. -/
  | union (piped : Bool) (members : List Token)
  | literal (values : List Value)
  | annotated (of : Token) (metadata : List Metadata)
  /-- A variable of the class, not a field. -/
  | classVar (of : Token)
  /-- What making a record takes besides its fields. -/
  | initVar (of : Token)
  | typeVar (name : String)
  /-- A type written out in a text, to be looked up later. -/
  | forward (text : String)
  /-- A mere value. -/
  | value (v : Value)
  deriving Repr, Inhabited

namespace Value

/-- Two values are equal and of one kind. -/
def sameKind (a b : Value) : Bool :=
  match a, b with
  | .member l _ _, .member l' _ _ => l.ident == l'.ident && a.same b
  | a, b => a.kindName == b.kindName && a.same b

/-- Values without those that are equal to an earlier one and of its kind. -/
def distinctKinds (vs : List Value) : List Value :=
  vs.foldl (fun acc v => if acc.any v.sameKind then acc else acc ++ [v]) []

end Value

namespace Limit

/-- The name of a bound or a length, and its named parts. -/
def parts : Limit → String × List (String × Value)
  | .atLeast v => ("Ge", [("ge", v)])
  | .moreThan v => ("Gt", [("gt", v)])
  | .atMost v => ("Le", [("le", v)])
  | .lessThan v => ("Lt", [("lt", v)])
  | .multipleOf v => ("MultipleOf", [("multiple_of", v)])
  | .minLength v => ("MinLen", [("min_length", v)])
  | .maxLength v => ("MaxLen", [("max_length", v)])
  | .lengths v w => ("Len", [("min_length", v), ("max_length", w)])
  | .interval a b c d => ("Interval", [("gt", a), ("ge", b), ("lt", c), ("le", d)])

/-- The values of the parts. -/
def values (l : Limit) : List Value := l.parts.2.map (·.2)

/-- The same bound or length. -/
def same (a b : Limit) : Bool :=
  a.parts.1 == b.parts.1 && (Value.tuple a.values).same (.tuple b.values)

end Limit

namespace Metadata

/-- The same metadata.  The description of a field is the same only as itself. -/
def same : Metadata → Metadata → Bool
  | .record r, .record r' => r.same r'
  | .limit l, .limit l' => l.same l'
  | .field d, .field d' => d.serial == d'.serial
  | .note s, .note t => s == t
  | _, _ => false

/-- The same metadata, one after the other. -/
def sameAll : List Metadata → List Metadata → Bool
  | [], [] => true
  | m :: ms, n :: ns => m.same n && sameAll ms ns
  | _, _ => false

/-- Fails when metadata cannot be part of a key. -/
def checkKey : Metadata → Except Fault Unit
  | .record r => r.checkKey
  | .limit l => Value.checkKeys l.values
  | .field _ | .note _ => .ok ()

/-- Fails at the first metadata that cannot be part of a key. -/
def checkKeys (ms : List Metadata) : Except Fault Unit :=
  ms.forM checkKey

end Metadata

namespace Token

mutual

/-- **The same type.** -/
def same : Token → Token → Bool
  | .none, t => (match t with | .none => true | _ => false)
  | .builtin b, t => (match t with | .builtin b' => b == b' | _ => false)
  | .declared i, t => (match t with | .declared j => i == j | _ => false)
  | .brand i, t => (match t with | .brand j => i == j | _ => false)
  | .crafted i, t => (match t with | .crafted j => i == j | _ => false)
  | .generic h as, t =>
    match t with
    | .generic h' bs => h == h' && as.length == bs.length && sameAll as bs
    | _ => false
  | .ellipsis, t => (match t with | .ellipsis => true | _ => false)
  | .union _ as, t =>
    match t with
    | .union _ bs => as.length == bs.length && allAmong as bs
    | _ => false
  | .literal vs, t =>
    match t with
    | .literal ws => vs.length == ws.length && vs.all fun v => ws.any v.sameKind
    | _ => false
  | .annotated a ms, t =>
    match t with
    | .annotated b ns => same a b && Metadata.sameAll ms ns
    | _ => false
  | .classVar a, t => (match t with | .classVar b => same a b | _ => false)
  | .initVar a, t => (match t with | .initVar b => same a b | _ => false)
  | .typeVar n, t => (match t with | .typeVar m => n == m | _ => false)
  | .forward s, t => (match t with | .forward s' => s == s' | _ => false)
  | .value v, t => (match t with | .value w => v.same w | _ => false)
termination_by structural t => t

/-- The same types, one after the other. -/
def sameAll : List Token → List Token → Bool
  | a :: as, b :: bs => same a b && sameAll as bs
  | _, _ => true
termination_by structural as => as

/-- Every type is the same as one of the others. -/
def allAmong : List Token → List Token → Bool
  | [], _ => true
  | a :: as, bs => bs.any (same a) && allAmong as bs
termination_by structural as => as

end

mutual

/-- Fails with the reason when a token cannot be a key. -/
def checkKey : Token → Except Fault Unit
  | .generic _ args => checkKeys args
  | .union _ members => checkKeys members
  | .literal vs => Value.checkKeys vs
  | .annotated t ms => do checkKey t; Metadata.checkKeys ms
  | .classVar t => checkKey t
  | .value v => v.checkKey
  | _ => .ok ()
termination_by structural t => t

/-- Fails at the first token that cannot be a key. -/
def checkKeys : List Token → Except Fault Unit
  | [] => .ok ()
  | t :: ts => do checkKey t; checkKeys ts
termination_by structural ts => ts

end

/-- Whether something can be kept under a token: it can be a key, and it is the same as
itself. -/
def isKey (t : Token) : Bool :=
  t.checkKey.isOk && t.same t

/-! ## Building tokens -/

/-- The type of null, where a type is needed rather than the value. -/
def asType : Token → Token
  | .none => .builtin .nothing
  | t => t

/-- The type of null. -/
def isNothing : Token → Bool
  | .builtin .nothing => true
  | _ => false

/-- The members a token contributes to a union. -/
def members : Token → List Token
  | .union _ ts => ts
  | t => [t.asType]

/-- Tokens without those that are the same as an earlier one. -/
def distinct (ts : List Token) : List Token :=
  ts.foldl (fun acc t => if acc.any t.same then acc else acc ++ [t]) []

/-- The type without its metadata. -/
def bare : Token → Token
  | .annotated t _ => t.bare
  | t => t

/-- The metadata of a type. -/
def metadata : Token → List Metadata
  | .annotated t ms => t.metadata ++ ms
  | _ => []

end Token

end Schemata
