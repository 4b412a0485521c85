import Schemata.Declared.Program

/-!
# Inheritance

What a class takes over from the classes above it, settled when it is declared.

**The order.**  The classes above a class are looked through in one order that keeps the
order of every lineage and of the bases (`Program.linearize`).  There may be none: a base
given twice, or bases in an order that a lineage contradicts.  A class holds at most one
builtin value, so that two bases which extend builtin types have to extend the same one, or
one of them a type derived from the other (`Program.commonLayout`).

**The fields.**  Two kinds of class keep fields.  A *record* takes the fields of the records
above it first; a field declared again keeps its place.  A field without a default falls back
on an attribute of that name in a class above.  A *model* does the same for places, but a
field declared again is a new field, and a description assigned to a field is merged with the
ones attached to its type.  In both, a variable of the class takes the place of the field that
goes by its name; in a record, so does what making the record takes and the record does not keep.
-/

namespace Schemata

namespace Builtin

/-- Whether the values of a type differ in size, so that every class derived from it lays out
its instances in its own way. -/
def variesInSize : Builtin → Bool
  | .integer | .bytes | .tuple => true
  | _ => false

/-- Whether an instance of a class derived from this one holds a value of it. -/
def isHeld : Builtin → Bool
  | .text | .integer | .double | .decimal | .date | .moment | .clock | .duration | .bytes
  | .buffer | .uuid | .list | .tuple | .set | .frozenSet | .dict | .deque | .orderedDict
  | .model => true
  | _ => false

end Builtin

namespace Program

/-! ## Lineages -/

/-- A class and the classes above it, nearest first. -/
def lineage (p : Program) : Token → List Token
  | .builtin b => b.ancestry.map .builtin
  | .declared i =>
    match p.classes[i]? with
    | some c => .declared i :: c.ancestry
    | none => [.declared i]
  | _ => []

/-- The name of a class by itself. -/
def classNameOf (p : Program) (t : Token) : String :=
  match t with
  | .builtin b => b.facts.name
  | t => ((p.class? t).map Class.name).getD ""

/-- The names of some classes, as messages list them. -/
def classNames (p : Program) (ts : List Token) : String :=
  commaList (ts.map p.classNameOf)

/-- Whether one of the classes in a lineage is a given builtin one. -/
def descends (p : Program) (t : Token) (b : Builtin) : Bool :=
  (p.lineage t).any (Token.same (.builtin b))

/-- Whether a base is an alias, or a class with parameters applied to arguments. -/
def isApplied (p : Program) : Token → Bool
  | .builtin b => b.aliased?.isSome
  | .generic (.builtin b) _ => b.aliased?.isSome || b = .generic || b = .protocol
  | .generic (.declared i) _ => p.descends (.declared i) .generic
  | _ => false

/-- The collection that a base stands for as an alias. -/
def aliasedCollection? : Token → Option Builtin
  | .builtin b => b.aliased?
  | .generic (.builtin b) _ => b.aliased?
  | _ => none

/-- The classes that bases stand for, among all bases.  The root that lists variables is left
out where another base stands for it; an alias stands for its collection and, where no later
base does, for that root. -/
def classesOfBases (p : Program) (all : List Token) : List Token → List Token
  | [] => []
  | t :: rest =>
    let root : Token := .builtin .generic
    let own := match aliasedCollection? t, t with
      | some b, _ =>
        let collection : Token := .builtin b
        (if all.any collection.same then [] else [collection]) ++
          if rest.any fun t => p.isApplied t || p.descends t .generic then [] else [root]
      | none, .generic (.builtin .generic) _ =>
        if all.any (Token.same (.builtin .protocol)) ||
            rest.any fun r => p.isApplied r && !r.same t then []
        else [root]
      | none, .generic (.builtin b) _ => [.builtin b]
      | none, .generic (.declared i) _ => [.declared i]
      | none, t => [t]
    own ++ p.classesOfBases all rest

/-- Whether a class comes after the first in one of some lineages. -/
def isBelow (t : Token) (ls : List (List Token)) : Bool :=
  ls.any fun l => l.tail.any t.same

/-- Lineages without a class that heads some of them. -/
def withoutHead (t : Token) (ls : List (List Token)) : List (List Token) :=
  ls.map fun l =>
    match l with
    | h :: r => if t.same h then r else h :: r
    | [] => []

/-- Merge lineages into one that keeps the order of each: again and again take the first
class that heads a lineage and is in the tail of none.  Where every head is in some tail,
the heads are what cannot be ordered. -/
def mergeLineages : Nat → List (List Token) → Except (List Token) (List Token)
  | 0, _ => .ok []
  | fuel + 1, ls =>
    let heads := ls.filterMap List.head?
    if heads.isEmpty then .ok []
    else match heads.find? fun t => !isBelow t ls with
      | none => .error (Token.distinct heads)
      | some next => (mergeLineages fuel (withoutHead next ls)).map (next :: ·)

/-- **The classes above a class** with the given bases, nearest first. -/
def linearize (p : Program) (bases : List Token) : Except Fault (List Token) := do
  if let some t := (bases.zipIdx.find? fun e => (bases.take e.2).any e.1.same).map (·.1) then
    wrongKind ("duplicate base class " ++ p.classNameOf t)
  let ls := bases.map p.lineage ++ [bases]
  match mergeLineages ls.flatten.length ls with
  | .ok ts => return ts
  | .error heads =>
    wrongKind ("Cannot create a consistent method resolution\norder (MRO) for bases " ++
      p.classNames heads)

/-- The builtin type whose value an instance of a class holds. -/
def heldType (p : Program) (t : Token) : Option Builtin :=
  (p.lineage t).findSome? fun t =>
    match t with
    | .builtin b => if b.isHeld then some b else none
    | _ => none

/-- The class that fixes how instances of a class are laid out. -/
def layoutOf? (p : Program) (t : Token) : Option Token :=
  match t with
  | .builtin b => (b.ancestry.find? Builtin.isHeld).map .builtin
  | t => (p.class? t).bind Class.layout

/-- The one layout that serves all bases: of two, one has to be derived from the other. -/
def commonLayout (p : Program) (bases : List Token) : Except Fault (Option Token) :=
  bases.foldlM (fun found t => do
    if t.same (.builtin .truth) then wrongKind "type 'bool' is not an acceptable base type"
    match found, p.layoutOf? t with
    | none, b => return b
    | a, none => return a
    | some a, some b =>
      if (p.lineage a).any b.same then return some a
      else if (p.lineage b).any a.same then return some b
      else wrongKind "multiple bases have instance lay-out conflict") none

/-- The layout of a class, given the one that serves its bases. -/
def ownLayout (own : Token) (common : Option Token) : Option Token :=
  match common with
  | some (.builtin b) => some (if b.variesInSize then own else .builtin b)
  | t => t

/-! ## Fields of records -/

/-- The first attribute of a name in some classes: `none` inside if it cannot be read. -/
def attribute? (p : Program) (classes : List Token) (name : String) : Option (Option Value) :=
  classes.findSome? fun t => (p.class? t).bind fun c => getKey? name c.attributes

/-- The declared classes among some tokens. -/
def classesAmong (p : Program) (ts : List Token) : List Class :=
  ts.filterMap p.class?

/-- A default is shared by all records, so that it cannot be of a kind that can change. -/
def checkDefault (name : String) (v : Value) : Except Fault Unit :=
  if v.isChangeable then
    outOfRange ("mutable default " ++ v.kindText ++ " for field " ++ name ++
      " is not allowed: use default_factory")
  else .ok ()

/-- A field that a record declares, with the given classes above. -/
def recordFieldOf (p : Program) (ancestry : List Token) (f : Field) : Except Fault RecordField := do
  match f.default, f.factory with
  | none, some d => return ⟨f.name, some d⟩
  | given, _ =>
    match given <|> (p.attribute? ancestry f.name).bind id with
    | none => return ⟨f.name, none⟩
    | some v =>
      checkDefault f.name v
      return ⟨f.name, some (.ok v)⟩

/-- What is declared to be no field has no default that is made. -/
def checkPseudoField (f : Field) : Except Fault Unit :=
  match f.default, f.factory with
  | none, some _ => wrongKind ("field " ++ f.name ++ " cannot have a default factory")
  | _, _ => .ok ()

/-- The places of a record with the given classes above it: theirs, from the furthest on, and
then its own.  What is no field stands in the place of a field of its name. -/
def placesOf (p : Program) (c : Class) (ancestry : List Token) :
    Except Fault (List (String × Option RecordField)) := do
  let above := (p.classesAmong ancestry.reverse).flatMap Class.places
  let own ← c.fields.mapM fun f =>
    if f.type.isPseudoField then (checkPseudoField f).map fun _ => (f.name, none)
    else (p.recordFieldOf ancestry f).map fun g => (f.name, some g)
  return setKeys (above ++ own) []

/-- What making a record takes besides its fields, with the given classes above it: what making
those takes, and what it declares itself. -/
def takenOf (p : Program) (c : Class) (ancestry : List Token) :
    List (String × Option RecordField) :=
  let above := (p.classesAmong ancestry.reverse).flatMap Class.taken
  let own := c.fields.map fun f =>
    let default := f.default <|> (p.attribute? ancestry f.name).bind id
    (f.name, if f.type.isInitVar then some ⟨f.name, default.map .ok⟩ else none)
  setKeys (above ++ own) []

/-! ## Fields of models -/

/-- The type of a field without its metadata, and the metadata. -/
def peel : TypeExpr → TypeExpr × List Metadata
  | .annotated t ms =>
    let (t, ns) := peel t
    (t, ns ++ ms)
  | t => (t, [])

/-- Later texts over earlier ones. -/
def overlay (lower upper : FieldTexts) : FieldTexts :=
  let pick (f : FieldTexts → Value) : Value := ((f upper).nonNull?).getD (f lower)
  { title := pick FieldTexts.title
    description := pick FieldTexts.description
    samples := pick FieldTexts.samples
    deprecated := pick FieldTexts.deprecated
    otherName := pick FieldTexts.otherName
    publishedName := pick FieldTexts.publishedName
    default := upper.default <|> lower.default }

/-- A field of a model: everything said about it, in order, as one description. -/
def modelFieldOf (f : Field) : ModelField :=
  let (type, ms) := peel f.type
  let said := ms ++ (f.description.map Metadata.field).toList
  let limits := said.flatMap fun m => match m with
    | .field d => d.limits.map .limit
    | m => [m]
  let texts := said.foldl (fun acc m => match m with
    | .field d => overlay acc d.texts
    | _ => acc) {}
  ⟨f.name, type, limits, texts, f.given? <|> texts.default.map .ok⟩

/-- Whether a class keeps this as a field of a model. -/
def isModelField (f : Field) : Bool :=
  !f.type.isClassVar && !f.name.startsWith "_"

/-- The place of a name that a class declares: a field of a model, if it is one. -/
def modelPlace (make : Field → ModelField) (f : Field) : String × Option ModelField :=
  (f.name, if isModelField f then some (make f) else none)

/-- What the classes above a model and the model itself declare, from the furthest on.  A field
that is not declared by the model is the one of the nearest model above that has it. -/
def modelPlaces (p : Program) (c : Class) (ancestry : List Token) :
    List (String × Option ModelField) :=
  let above := p.classesAmong ancestry.reverse
  let inherited := setKeys (above.flatMap fun c => c.modelFields.map fun f => (f.name, f)) []
  let declared := above.flatMap fun c => c.fields.map <| modelPlace fun f =>
    (getKey? f.name inherited).getD (modelFieldOf f)
  declared ++ c.fields.map (modelPlace modelFieldOf)

/-- The fields of a model with the given classes above it.  A name that is declared again keeps its
place, and there is no field where a variable of the class stands. -/
def modelFieldsOf (p : Program) (c : Class) (ancestry : List Token) : List ModelField :=
  (setKeys (p.modelPlaces c ancestry) []).filterMap (·.2)

/-- A field of a model that something is assigned to is meant to be one, so that its name has
to be a name of a field. -/
def checkFieldNames (c : Class) : Except Fault Unit :=
  match c.form, c.fields.find? fun f =>
      f.name.startsWith "_" && (f.description.isSome || f.factory.isSome) with
  | .model, some f =>
    let rest := String.ofList (f.name.toList.dropWhile (· == '_'))
    .error (.unfit .name ("Fields must not use names with leading underscores; e.g., use " ++
      Text.quoted (if rest.isEmpty then "my_field" else rest) ++ " instead of " ++
      Text.quoted f.name ++ "."))
  | _, _ => .ok ()

/-! ## Settling -/

/-- Whether a builtin class is among some classes. -/
def isAmong (b : Builtin) (ancestry : List Token) : Bool :=
  ancestry.any (Token.same (.builtin b))

/-- What a class is, given the classes above it: below the root of all models it is a model, and
below the root of all enumerations an enumeration whose members are its attributes. -/
def formOf (p : Program) (c : Class) (ancestry : List Token) : Except Fault ClassForm :=
  match c.form with
  | .enumeration e => .ok (.enumeration e)
  | form =>
    if isAmong .model ancestry then .ok .model
    else if isAmong .enumeration ancestry then
      let head : EnumerationHead := { ident := toString p.classes.length, name := c.name }
      (head.enumeration (c.attributes.filterMap fun a => a.2.map (a.1, ·))).map .enumeration
    else .ok form

/-- Whether a class is made a record, given what it is declared as and what it is: an enumeration
can be, but what is below the root of all models keeps the fields of a model. -/
def isMadeRecord : ClassForm → ClassForm → Bool
  | .record, .model => false
  | .record, _ => true
  | _, _ => false

/-- The nearest record among some classes. -/
def nearestRecord? (p : Program) (ts : List Token) : Option Class :=
  (p.classesAmong ts).find? fun c => c.recordFields.isSome

/-- The places of a class that may be made a record; one that is not has the places of the nearest
record above it. -/
def settledPlaces (p : Program) (c : Class) (form : ClassForm) (ancestry : List Token) :
    Except Fault (List (String × Option RecordField)) :=
  if isMadeRecord c.form form then p.placesOf c ancestry
  else .ok (((p.nearestRecord? ancestry).map Class.places).getD [])

/-- What making an instance of a class takes besides fields, if it is like making a record. -/
def settledTaken (p : Program) (c : Class) (form : ClassForm) (ancestry : List Token) :
    List (String × Option RecordField) :=
  if isMadeRecord c.form form then p.takenOf c ancestry
  else ((p.nearestRecord? ancestry).map Class.taken).getD []

/-- **A class with what it inherits.** -/
def settle (p : Program) (c : Class) : Except Fault Class := do
  checkFieldNames c
  let common ← p.commonLayout c.bases
  let ancestry ← p.linearize c.bases
  let form ← p.formOf c ancestry
  let places ← p.settledPlaces c form ancestry
  return { c with
    form := form
    ancestry := ancestry
    layout := ownLayout (.declared p.classes.length) common
    places := places
    taken := p.settledTaken c form ancestry
    recordFields :=
      if isMadeRecord c.form form then some (places.filterMap (·.2))
      else (p.nearestRecord? ancestry).bind Class.recordFields
    modelFields := match form with
      | .model => p.modelFieldsOf c ancestry
      | _ => [] }

end Program

end Schemata
