import Schemata.Declared.Fitting
import Schemata.Declared.Signature

/-!
# Instances

What making an instance of a declared class gives.  A record and a model hold their
fields, given or by default; a model is told its fields by the names they go by
outside, and makes what it is given fit their types.  An ordinary class runs its
initializer, and where it extends a builtin type also holds what that type makes of the
arguments.

Making an instance can fail: a field without a default is not given, a default
cannot be made, the initializer fails or needs another number of arguments, or the
class cannot be instantiated at all.

For reading defaults off a class that keeps fields no instance is needed:
`Program.defaults` is what its fields hold when nothing is given.
-/

namespace Schemata

namespace Builtin

/-- What a class derived from an abstract collection still has to define. -/
def demands : Builtin → List String
  | .iterable => ["__iter__"]
  | .collection => ["__contains__", "__iter__", "__len__"]
  | .sequence => ["__getitem__", "__len__"]
  | .mutableSequence => ["__delitem__", "__setitem__", "insert"]
  | .mutableSet => ["add", "discard"]
  | .mapping => ["__getitem__"]
  | .mutableMapping => ["__delitem__", "__setitem__"]
  | _ => []

/-- What an abstract collection defines of what others demand. -/
def supplies : Builtin → List String
  | .sequence => ["__contains__", "__iter__"]
  | .mapping => ["__contains__"]
  | _ => []

end Builtin

namespace ModelField

/-- The name a field of a model goes by outside. -/
def outside (f : ModelField) : String :=
  match f.texts.otherName.text? with
  | some s => if s.isEmpty then f.name else s
  | none => f.name

/-- The name a field of a model is published under. -/
def published (f : ModelField) : String :=
  let text? (v : Value) : Option String := v.text?.filter fun s => !s.isEmpty
  ((text? f.texts.publishedName) <|> (text? f.texts.otherName)).getD f.name

end ModelField

namespace Program

/-- What fields hold when nothing is given; a field without a default is left out. -/
def heldByDefault : List (String × Option (Except Fault Value)) →
    Except Fault (List (Value × Value))
  | [] => .ok []
  | (_, none) :: fs => heldByDefault fs
  | (name, some d) :: fs => do return (.text name, ← d) :: (← heldByDefault fs)

/-- What fields hold when some values are given under the names they go by outside. -/
def held (cls : String) (given : List (String × Value)) :
    List (String × String × Option (Except Fault Value)) → Except Fault (List (String × Value))
  | [] => .ok []
  | (name, outside, d) :: fs => do
    let v ← match getKey? outside given, d with
      | some v, _ => pure v
      | none, some d => d
      | none, none => .error (.aborted ("missing " ++ cls ++ "." ++ name))
    return (name, v) :: (← held cls given fs)

/-- What making a record takes: its fields and what it does not keep, by name only. -/
def recordSignature (p : Program) (lineage : List Token) (c : Class) : Signature :=
  let isRecord (c : Class) : Bool := match c.form with | .record => true | _ => false
  let maker := ((p.classesAmong lineage).find? isRecord).map Class.qualname
  let takes := c.places.filterMap fun e => e.2 <|> (getKey? e.1 c.taken).bind id
  { function := maker.getD "" ++ ".__init__"
    placed := []
    named := takes.map fun f => ⟨f.name, f.default.isNone⟩
    onObject := true }

/-- The label of an instance of a class. -/
def labelOf (p : Program) (lineage : List Token) (c : Class) (form : ObjectForm) (serial : Nat) :
    ObjectLabel :=
  let classes := p.classesAmong lineage
  let attributes := classes.flatMap Class.attributes
  { className := c.name
    qualifiedName := c.qualifiedName
    form := form
    serial := serial
    spoken := classes.findSome? Class.spoken
    failing := (attributes.map (·.1)).filter fun n => (getKey? n attributes) matches some none }

/-- The readable attributes of an instance: its own, and then those of its classes. -/
def readable (own : List (String × Value)) (ofClasses : List (String × Option Value)) :
    List (String × Value) :=
  let more := ofClasses.filterMap fun a =>
    match getKey? a.1 ofClasses, getKey? a.1 own with
    | some (some v), none => some (a.1, v)
    | _, _ => none
  setKeys (own ++ more) []

/-- What a class demands and does not define: of all classes in its lineage, the nearest one
that knows a name decides. -/
def undefinedNames (p : Program) (lineage : List Token) : List String :=
  let known (t : Token) : List (String × Bool) := match t with
    | .builtin b => b.demands.map (·, true) ++ b.supplies.map (·, false)
    | t => ((p.class? t).toList.flatMap Class.attributes).map fun a => (a.1, false)
  let said := lineage.flatMap known
  let names := (said.map (·.1)).eraseDups.filter fun n => getKey? n said == some true
  names.mergeSort fun a b => decide (a < b) || a == b

/-- Instances can be made of an ordinary class.  A type whose value they hold makes them
without asking what they define. -/
def checkInstantiable (p : Program) (lineage : List Token) (c : Class) (held : Option Builtin) :
    Except Fault Unit :=
  let missing := if held.isNone || held = some .uuid then p.undefinedNames lineage else []
  if !missing.isEmpty then
    wrongKind ("Can't instantiate abstract class " ++ c.name ++ " with abstract method" ++
      (if missing.length = 1 then " " else "s ") ++ commaList missing)
  else if c.bases.any (Token.same (.builtin .protocol)) then
    wrongKind "Protocols cannot be instantiated"
  else .ok ()

/-- The text of a queue that is made of arguments: its elements, and how many it may hold at
most. -/
def queueText (owner : String) (args : List Value) : Except Fault String := do
  Builtin.atMost "deque()" 2 "argument" args
  let most ← match args[1]? with
    | none | some .null => pure none
    | some v =>
      match v.integer? with
      | none => wrongKind "an integer is required"
      | some n => if n < 0 then outOfRange "maxlen must be non-negative" else pure (some n.toNat)
  let elements ← (args.head?.map Value.walk).getD (.ok [])
  let kept := match most with
    | none => elements
    | some n => elements.drop (elements.length - n)
  return owner ++ "(" ++ (Value.list kept).spelled ++
    (match most with | none => "" | some n => ", maxlen=" ++ toString n) ++ ")"

/-- An instance of an ordinary class. -/
def plainInstance (p : Program) (own : Token) (c : Class) (args : List Value) (serial : Nat) :
    Except Fault Value := do
  let lineage := p.lineage own
  let label := p.labelOf lineage c .plain serial
  let ofClasses := (p.classesAmong lineage).flatMap Class.attributes
  let base := p.heldType own
  match (p.classesAmong lineage).findSome? Class.init with
  | some init =>
    if args.length ≠ init.needs then throw (.aborted "wrong number of arguments")
    if let some message := init.failure then throw (.unfit .failure message)
    if let some s := init.sets.find? fun s => label.failing.contains s.1 then
      throw (.unfit .absence ("property '" ++ s.1 ++ "' of '" ++ c.name ++
        "' object has no setter"))
    let extended ← match base with
      | some b => b.make c.name []
      | none => pure none
    return .object label extended (readable init.sets ofClasses)
  | none =>
    p.checkInstantiable lineage c base
    match base with
    | none =>
      if args.isEmpty then return .object label none (readable [] ofClasses)
      else wrongKind (c.name ++ "() takes no arguments")
    | some .deque =>
      let shown ← queueText c.name args
      return .object { label with spoken := label.spoken <|> some shown } none
        (readable [] ofClasses)
    | some b => return .object label (← b.make c.name args) (readable [] ofClasses)

/-! ## Instances that keep fields -/

/-- Values given to the fields of a class under the names they go by outside, made to fit the
types of the fields as far as they can be. -/
def fitted (p : Program) (fit : Token → Value → Option Value) (own : Token) (c : Class)
    (names : List (String × String)) (given : List (String × Value)) : List (String × Value) :=
  let types := (p.hints own c).toOption.getD []
  given.map fun (outside, v) =>
    match (getKey? outside names).bind fun name => getKey? name types with
    | some t => (outside, (fit t v).getD v)
    | none => (outside, v)

/-- An instance of a model. -/
def modelInstance (p : Program) (fit : Token → Value → Option Value) (own : Token) (c : Class)
    (given : List (String × Value)) (serial : Nat) : Except Fault Value := do
  let fs := c.modelFields
  let given := p.fitted fit own c (fs.map fun f => (f.outside, f.name)) given
  let fields ← held c.name given (fs.map fun f => (f.name, f.outside, f.default))
  let aliases := fs.map fun f => (f.name, f.published)
  return .object (p.labelOf (p.lineage own) c (.model aliases) serial) none fields

/-- An instance of a record with given fields. -/
def recordInstance (p : Program) (own : Token) (c : Class) (fs : List RecordField)
    (given : List (String × Value)) (serial : Nat) : Except Fault Value := do
  let named (f : RecordField) : String × String × Option (Except Fault Value) :=
    (f.name, f.name, f.default)
  let _ ← held c.name given ((c.taken.filterMap (·.2)).map named)
  let fields ← held c.name given (fs.map named)
  return .object (p.labelOf (p.lineage own) c .fields serial) none fields

/-- What a value becomes to fit a declared class or a brand, if it can be made to: a mapping
an instance of a class that keeps fields, a value the member of an enumeration that has it.
Below the given depth everything stays as it is. -/
def fitDeclared (p : Program) (serial : Nat) : Nat → Token → Value → Option Value
  | 0, _, v => some v
  | n + 1, t, v =>
    let fit := Token.fit (p.fitDeclared serial n)
    match t, p.class? t, v with
    | .brand i, _, v =>
      match p.brands[i]? with
      | some b => fit b.of v
      | none => some v
    | _, some c, .object label extended attributes =>
      match c.form with
      | .enumeration _ => none
      | _ => some (.object label extended attributes)
    | _, some c, v =>
      let given := ((v.entries?).getD []).filterMap fun e => e.1.text?.map fun s => (s, e.2)
      match c.form, c.recordFields, v.entries? with
      | .enumeration e, _, _ => (e.members.map (·.2)).find? fun m => m.same v || isValueOf v m
      | .model, _, some _ => (p.modelInstance fit t c given serial).toOption
      | _, some fs, some _ =>
        let given := p.fitted fit t c (fs.map fun f => (f.name, f.name)) given
        (p.recordInstance t c fs given serial).toOption
      | _, _, _ => none
    | _, none, v => some v
where
  /-- A member has a value. -/
  isValueOf (v m : Value) : Bool :=
    match m with
    | .member _ _ w => v.same w
    | _ => false

/-- A model takes its fields by name only. -/
def checkModelArguments (args : List Value) : Except Fault Unit :=
  if args.isEmpty then .ok ()
  else
    wrongKind ("BaseModel.__init__() takes 1 positional argument but " ++
      toString (args.length + 1) ++ " were given")

/-- **An instance of a declared class.** -/
def instantiate (p : Program) (own : Token) (args : List Value) (given : List (String × Value))
    (serial : Nat) : Except Fault Value := do
  match p.class? own with
  | none => throw (.aborted "no such class")
  | some c =>
    let lineage := p.lineage own
    match c.form, c.recordFields with
    | .model, _ =>
      checkModelArguments args
      let depth := (given.map fun g => g.2.height).foldl max 0 + p.brands.length + 1
      p.modelInstance (Token.fit (p.fitDeclared serial depth)) own c given serial
    | .enumeration _, _ => throw (.aborted "cannot be instantiated")
    | _, some fs =>
      p.recordInstance own c fs (← (p.recordSignature lineage c).bind args given) serial
    | _, none => p.plainInstance own c args serial

/-- **What the defaults of a class are read from**: its fields as they are when nothing
is given, or an instance. -/
def defaults (p : Program) (own : Token) (c : Class) : Except Fault Value := do
  match c.form, c.recordFields with
  | .model, _ => return .dict (← heldByDefault (c.modelFields.map fun f => (f.name, f.default)))
  | _, some fs => return .dict (← heldByDefault (fs.map fun f => (f.name, f.default)))
  | _, none => p.instantiate own [] [] 0

end Program

end Schemata
