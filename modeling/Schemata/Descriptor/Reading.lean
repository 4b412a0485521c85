import Schemata.Declared.Evaluation
import Schemata.Declared.Instance

/-!
# Reading types

`Program.read` says what a type is: it turns a token into a descriptor.  Leaf types
are recognised first, by a table that a host may extend; then unions with null,
unions, literal types, collections, brands, enumerations and classes, in this
order.  What is none of these has a spelling and no structure.

A class is read with its own properties only; what it inherits is found through its
base, the first of the classes it is derived from that is not a mere root.  The
metadata of a property becomes annotation records, bounds and lengths included.

Reading fails where an annotation mentions a name that stands for nothing, and where
a token that cannot be a key would have to be looked up.
-/

namespace Schemata

/-- Leaf types that a host adds to the builtin ones, the latest addition first. -/
abbrev Kinds := List (Token × Kind)

namespace Kinds

/-- The kind of a leaf type. -/
def kindOf? (ks : Kinds) (t : Token) : Option Kind :=
  match t.checkKey with
  | .error _ => none
  | .ok () =>
    match ks.find? fun e => e.1.same t with
    | some e => some e.2
    | none =>
      match t with
      | .builtin b => b.facts.kind
      | _ => none

/-- Add leaf types in turn; one that cannot be looked up is refused. -/
def extend (ks : Kinds) : List (Token × Kind) → Except Fault Kinds
  | [] => .ok ks
  | (t, k) :: r => do
    t.checkKey
    extend ((t, k) :: ks) r

end Kinds

namespace Metadata

/-- A bound that is given. -/
def boundRecord (v : Value) (record : Value → Record) : List Record :=
  match v with
  | .null => []
  | v => [record v]

/-- An inclusive lower bound. -/
def leastRecord (v : Value) : Record := .property [("minimum", v)]

/-- An exclusive lower bound. -/
def aboveRecord (v : Value) : Record :=
  .property [("minimum", v), ("exclusive_minimum", .bool true)]

/-- An inclusive upper bound. -/
def greatestRecord (v : Value) : Record := .property [("maximum", v)]

/-- An exclusive upper bound. -/
def belowRecord (v : Value) : Record :=
  .property [("maximum", v), ("exclusive_maximum", .bool true)]

/-- The texts of a field as one record, if it has any. -/
def textRecords (t : FieldTexts) : List Record :=
  let entry (name : String) (v : Value) : List (String × Value) :=
    if v.truthy then [(name, v)] else []
  let samples := if t.samples.truthy then
      [("examples", Value.list (t.samples.elements?.getD []))]
    else []
  let named := entry "title" t.title ++ entry "description" t.description ++ samples ++
    (if t.deprecated.truthy then [("deprecated", Value.bool true)] else [])
  if named.isEmpty then [] else [.property named]

/-- The records that a bound or a length amounts to. -/
def limitRecords : Limit → List Record
  | .atLeast v => [leastRecord v]
  | .moreThan v => [aboveRecord v]
  | .atMost v => [greatestRecord v]
  | .lessThan v => [belowRecord v]
  | .multipleOf v => [.property [("multiple_of", v)]]
  | .minLength v => [.length v .null]
  | .maxLength v => [.length .null v]
  | .lengths v w => [.length v w]
  | .interval above least below greatest =>
    boundRecord above aboveRecord ++ boundRecord least leastRecord ++
      boundRecord below belowRecord ++ boundRecord greatest greatestRecord

/-- **The records that metadata amounts to.** -/
def records : Metadata → List Record
  | .record r => [r]
  | .limit l => limitRecords l
  | .field d => d.limits.flatMap limitRecords ++ textRecords d.texts
  | .note _ => []

/-- The records that some metadata amounts to, in order. -/
def recordsOfAll (ms : List Metadata) : List Record :=
  ms.flatMap records

end Metadata

namespace Program

/-- The type inside a union with null: `none` if this is no such union. -/
def optional? (p : Program) : Token → Except Fault (Option Token)
  | .union _ ms =>
    let rest := ms.filter fun t => !t.isNothing
    if rest.length = ms.length then .ok none
    else match rest with
      | [t] => .ok (some t)
      | rest => do return some (← p.unionOf rest)
  | _ => .ok none

/-- The kind of a value that a literal type of one kind of leaf can list. -/
def literalKind? : Value → Option Kind
  | .bool _ => some .boolean
  | .int _ => some .integer
  | .float _ => some .double
  | .text _ => some .text
  | _ => none

/-- A literal type: a leaf if its values are of one kind. -/
def readLiteral (vs : List Value) : Descriptor :=
  let kind := match vs.map literalKind? with
    | k :: ks => if ks.all (· == k) then k else none
    | [] => none
  { name := "Literal"
    shape := if kind.isSome then .primitive else .unknown
    kind := kind
    annotations := [.choices vs] }

/-- The item type of a collection: of a tuple, only if all its items have one. -/
def itemType (origin : Builtin) (args : List Token) : Except Fault Token :=
  if origin = .tuple && !args.isEmpty then
    let items := args.filter fun t => !(t matches .ellipsis)
    do
      Token.checkKeys items
      match Token.distinct items with
      | [t] => return t
      | _ => return .builtin .anything
  else
    match args with
    | t :: _ => .ok t
    | [] => .ok (.builtin .anything)

/-- A collection of items. -/
def readItems (p : Program) (t : Token) (origin : Builtin) (args : List Token) :
    Except Fault Descriptor := do
  let item ← itemType origin args
  return {
    name := p.nameOf item ++ "[]"
    shape := .array
    inner := item
    source := some t
    uniqueItems := origin.facts.container == some .set }

/-- A mapping given its arguments. -/
def readMapping (p : Program) (args : List Token) : Descriptor :=
  let value := match args with
    | [_, v] => v
    | _ => .builtin .anything
  { name := "Map[" ++ p.nameOf value ++ "]", shape := .map, inner := value }

/-- A type without structure. -/
def readUnknown (p : Program) (t : Token) : Descriptor :=
  { name := p.plainText t, shape := .unknown }

/-- A property with the records of its metadata. -/
def readProperty (name accessor : String) (hint : Token) (required : Bool)
    (before : List Record) : Property :=
  let records := before ++ Metadata.recordsOfAll hint.metadata
  let catchAll := records.any Record.isCatchAll
  { name := name
    type := hint.bare
    annotations := records
    catchAll := catchAll
    required := required && !catchAll
    accessor := some accessor }

/-- The properties of a record. -/
def recordProperties (p : Program) (own : Token) (c : Class) (fs : List RecordField) :
    Except Fault (List Property) := do
  let hints ← p.hints own c
  let names := c.fields.map Field.name
  return (fs.filter fun f => names.contains f.name).map fun f =>
    readProperty f.name f.name ((getKey? f.name hints).getD (.builtin .anything))
      f.default.isNone []

/-- The properties of a model. -/
def modelProperties (p : Program) (own : Token) (c : Class) : Except Fault (List Property) :=
  let names := c.fields.map Field.name
  (c.modelFields.filter fun f => names.contains f.name).mapM fun f => do
    let t ← p.fieldType c own f.type
    let before := Metadata.recordsOfAll f.limits ++ Metadata.textRecords f.texts
    return readProperty f.published f.name t f.default.isNone before

/-- Whether a type makes a field a variable of the class. -/
def isClassVar (t : Token) : Bool :=
  match t.bare with
  | .classVar _ | .builtin .classVariable => true
  | _ => false

/-- The properties of an ordinary class. -/
def plainProperties (p : Program) (own : Token) (c : Class) : Except Fault (List Property) := do
  if c.fields.isEmpty then return []
  let hints ← p.hints own c
  let names := (setKeys (c.fields.map fun f => (f.name, ())) []).map (·.1)
  return names.filterMap fun name =>
    let hint := (getKey? name hints).getD (.builtin .anything)
    if name.startsWith "_" || isClassVar hint then none
    else some (readProperty name name hint false [])

/-- The first base of a class that is not a root. -/
def baseOf (c : Class) : Option Token :=
  c.bases.find? fun t =>
    match t with
    | .builtin b => !b.isRoot
    | _ => true

/-- A declared class. -/
def readClass (p : Program) (own : Token) (c : Class) : Except Fault Descriptor := do
  let d : Descriptor :=
    { name := p.nameOf own
      shape := .object
      base := baseOf c
      annotations := c.annotations
      source := some own }
  match c.form, c.recordFields with
  | .enumeration e, _ =>
    return { d with shape := .enum, base := none, members := e.listed }
  | .model, _ =>
    return { d with
      properties := ← p.modelProperties own c
      factory := some (p.defaults own c) }
  | _, some fs =>
    return { d with
      properties := ← p.recordProperties own c fs
      factory := some (p.defaults own c) }
  | _, none =>
    return { d with
      properties := ← p.plainProperties own c
      factory := some (p.defaults own c) }

/-- A builtin class that is neither a leaf nor a collection. -/
def readRoot (b : Builtin) : Descriptor :=
  { name := b.facts.name
    shape := if b = .enumeration then .enum else .object
    base := b.base?.map .builtin
    source := some (.builtin b)
    factory := if b = .enumeration then none else some (.ok (.dict [])) }

/-- A type that is neither a leaf nor a union. -/
def readStructure (p : Program) (t : Token) : Except Fault Descriptor :=
  match t with
  | .literal vs => .ok (readLiteral vs)
  | .generic (.builtin b) args =>
    match b.origin.facts.container with
    | some .mapping => .ok (p.readMapping args)
    | some _ => p.readItems t b.origin args
    | none => do t.checkKey; return p.readUnknown t
  | .builtin b =>
    match b.aliased?, b.facts.container with
    | some o, _ =>
      if o.facts.container == some .mapping then .ok (p.readMapping [])
      else p.readItems t o []
    | none, some .mapping => .ok { name := "Map", shape := .map, inner := .builtin .anything }
    | none, some _ => p.readItems t b []
    | none, none => .ok (if b.isClass then readRoot b else p.readUnknown t)
  | .brand i =>
    match (p.brands[i]?).map Brand.of with
    | some .none => .ok (p.readUnknown t)
    | some base => .ok { name := p.nameOf t, shape := .object, base := some base, source := some t }
    | none => .ok (p.readUnknown t)
  | .declared i =>
    match p.classes[i]? with
    | some c => p.readClass t c
    | none => .ok (p.readUnknown t)
  | t => do t.checkKey; return p.readUnknown t

/-- **What a type is.**  Metadata on the type itself is not looked at. -/
def read (p : Program) (ks : Kinds) (t : Token) : Except Fault Descriptor :=
  let t := t.bare
  match ks.kindOf? t with
  | some k =>
    .ok { name := (p.bareName? t).getD k.word, shape := .primitive, kind := some k
          source := some t }
  | none => do
    match ← p.optional? t with
    | some inner =>
      return { name := p.nameOf inner ++ "?", shape := .nullable, inner := inner }
    | none =>
      match t with
      | .union .. => return p.readUnknown t
      | t => p.readStructure t

/-- The name of a type with the module in front; a type that is no class by its name. -/
def qualifiedName (p : Program) (d : Descriptor) : String :=
  ((d.source.bind p.qualifiedName?)).getD d.name

/-- How the owner of a name is told: a class by its qualified name, a source that is
none by its spelling, and a descriptor without a source by its name. -/
def ownerText (p : Program) (key : Key) : String :=
  match key.source, key.holder with
  | some t, _ => (p.qualifiedName? t).getD (p.spell t)
  | none, .crafted i => ((p.crafted[i]?).map Descriptor.name).getD ""
  | none, _ => ""

end Program

end Schemata
