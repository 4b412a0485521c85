import Schemata.Synthesis.Session

/-!
# Synthesis

How the schema of a type comes about.  A type is *built*, or it is *referred to*:
whatever holds a type --- a property, an array, a map, a union with null, a derived
type its base --- refers to it.  Referring to a type that is published by name gives
a reference, and builds the type if nobody has; referring to any other type builds
it in place.

**Cycles.**  A type that is being visited is not built again.  Referring to it gives
a reference, since its schema will be stored when its visit ends; only where no name
will ever be stored --- a type published as an array --- does an empty object take
its place.  Derived types are visited only after their base has been built, and
types published as an array only while their own properties are.

**Depth.**  The session counts the types that are built inside one another, and
`deepening` refuses to go deeper than the environment allows.  Everything between two
builds is written as a function of what building does (`builder`), so that `build` is a
recursion on the levels that are left; there are enough of them for the count to refuse
first.

**Inheritance.**  A type with a base is

* a leaf, if its bases end at a leaf: that leaf, with the annotations of all of them;
* its base under another name, if it has no properties of its own;
* an array of its base and itself combined, if it is annotated as an array;
* and otherwise a composition of its base and its own object.
-/

namespace Schemata

/-- What building a type gives. -/
structure Built where
  node : Node
  /-- The node is stored under the name of the type. -/
  stored : Bool
  deriving Inhabited

/-- What becomes of a type with a base. -/
inductive Inherited where
  /-- All of its schema. -/
  | whole (node : Node)
  /-- The schema of its base, which its own object is to be combined with. -/
  | base (node : Node)

namespace Environment

open Build

variable (env : Environment) (builder : Descriptor → Build Built)

/-- Lay annotations on a node. -/
def annotate (records : List Record) (n : Node) : Build Node := do
  return (← lift (Constraints.merge records)).apply n

/-! ## Types being visited -/

/-- Whether a type is being visited whose schema will be stored when the visit ends. -/
def isAwaited (d : Descriptor) : Build Bool := do
  if ← isVisited d.key then return !(← env.publishesArray d) else return false

/-- Whether a type is being visited for which no schema will ever be stored. -/
def isArrayVisited (d : Descriptor) : Build Bool := do
  if ← isVisited d.key then env.publishesArray d else return false

/-! ## Referring to types -/

/-- **What holds a type holds this.** -/
def refer (d : Descriptor) : Build Node := do
  if ← env.isInline d then return (← builder d).node
  if (← stored? d.name).isSome then
    env.claim d.name d
    return .refTo d.name
  if ← env.isAwaited d then return .refTo d.name
  let built ← builder d
  return if built.stored then .refTo d.name else built.node

/-- What holds a type given by a token. -/
def referTo (t : Token) : Build Node := do
  env.refer builder (← env.describe t)

/-! ## Properties -/

/-- The node of a property, given what holds its type: its annotations are laid on it,
and its default, unless they give one. -/
def dress (d : Descriptor) (q : Property) (c : Constraints) (held : Node) : Build Node := do
  let node := if c.nullable && !held.isConcrete then held.makeNullable else held
  let node := c.apply node
  match node.keywords? with
  | some k =>
    if env.captureDefaults && k.default.isNone then
      match ← capture d q with
      | some v => return node.mapKeywords fun k => { k with default := some v }
      | none => return node
    else return node
  | none => return node

/-- The node of a property, with its annotations and its default. -/
def propertyNode (d : Descriptor) (q : Property) (c : Constraints) : Build Node := do
  env.dress d q c (← env.referTo builder q.type)

/-- The parts of an object under construction. -/
structure ObjectParts where
  keywords : Keywords
  properties : List (String × Node)
  additional : Option Node
  additionalAllowed : Option Bool

/-- The parts of an object node. -/
def ObjectParts.ofNode : Node → ObjectParts
  | .object k ps a allowed => ⟨k, ps, a, allowed⟩
  | _ => ⟨{}, [], none, none⟩

/-- The object made of parts. -/
def ObjectParts.toNode (o : ObjectParts) : Node :=
  .object o.keywords o.properties o.additional o.additionalAllowed

/-- Require names, each once. -/
def ObjectParts.requiring (o : ObjectParts) (names : List Wording) : ObjectParts :=
  let required := Constraints.appendNames o.keywords.required names
  { o with keywords := { o.keywords with required := required } }

/-- What a property that takes all undeclared ones allows: `none` for anything at all,
else the schema they must have.  A map stands for its values. -/
def catchAllValue : Node → Option Node
  | .object _ [] (some value) _ => some value
  | .object k [] none allowed =>
    if allowed = some true then none else some (.object k [] none allowed)
  | n => some n

/-- Let an object take undeclared properties, given what holds the type of the property
that takes them. -/
def ObjectParts.accepting (o : ObjectParts) (c : Constraints) (held : Node) : ObjectParts :=
  match catchAllValue held with
  | none => { o with additionalAllowed := some true }
  | some value => { o with additional := some (c.apply value) }

/-- Give an object a property of its own. -/
def ObjectParts.adding (o : ObjectParts) (q : Property) (c : Constraints) (node : Node) :
    ObjectParts :=
  let o := { o with properties := setKey q.name node o.properties }
  if q.required || c.requiredProperty then o.requiring [q.name] else o

/-- Add a property to an object. -/
def addProperty (d : Descriptor) (o : ObjectParts) (q : Property) : Build ObjectParts := do
  let c ← lift (Constraints.merge q.annotations)
  if q.catchAll then return o.accepting c (← env.referTo builder q.type)
  else return o.adding q c (← env.propertyNode builder d q c)

/-- Add properties in turn. -/
def addProperties (d : Descriptor) : ObjectParts → List Property → Build ObjectParts
  | o, [] => return o
  | o, q :: qs => do addProperties d (← env.addProperty builder d o q) qs

/-- The required names of an object must be names of its own properties or of those of
its bases. -/
def checkRequired (d : Descriptor) (o : ObjectParts) : Build Unit := do
  let bases ← env.baseChain d
  let inherited := (bases.filter fun b => b.shape = .object).flatMap Descriptor.propertyNames
  let known := o.properties.map (·.1) ++ inherited
  let missing := o.keywords.required.filter fun n => !known.contains n.plain
  if missing.isEmpty then return ()
  else throw (.unknownRequired d.name missing)

/-- **Fill an object with the own properties of a type.** -/
def populate (d : Descriptor) (o : ObjectParts) : Build ObjectParts := do
  let o ← env.addProperties builder d o d.properties
  env.checkRequired d o
  return o

/-! ## Inheritance -/

/-- An array takes over the bounds on the number of items that were meant for it. -/
def arrayOf (k : Keywords) (type : Option JsonType) : Node :=
  let item := .leaf { k with minItems := none, maxItems := none, uniqueItems := false } type
  .array { minItems := k.minItems, maxItems := k.maxItems, uniqueItems := k.uniqueItems } item

/-- A type whose bases end at a leaf: the leaf with the annotations of all of them,
furthest first. -/
def namedLeaf (d : Descriptor) (kind : Kind) : Build Node := do
  let bases ← env.baseChain d
  let records := bases.reverse.flatMap Descriptor.annotations ++ d.annotations
  let c ← lift (Constraints.merge records)
  match c.apply kind.schema with
  | .leaf k type => return if c.array then arrayOf k type else .leaf k type
  | n => return n

/-- A type published as an array of its base and itself combined.  It cannot also say
what only an object can say, since no object of its own is published. -/
def composedArray (d : Descriptor) (c : Constraints) (base : Node) : Build Node := do
  let catchAll := (d.properties.filter Property.catchAll).map Property.name
  if c.constrainsObjects || !catchAll.isEmpty then throw (.inheritanceConflict d.name catchAll)
  else
    let own ← whileVisiting d.key <|
      env.populate builder d ((ObjectParts.ofNode .emptyObject).requiring c.required)
    let items := .composition [base, own.toNode] none none
    return { c with required := [] }.apply (.array {} items)

/-- **What becomes of a type with a base.** -/
def inherit (d : Descriptor) (base : Token) : Build Inherited := do
  match ← env.primitiveKind d with
  | some kind => return .whole (← env.namedLeaf d kind)
  | none =>
    let c ← lift (Constraints.merge d.annotations)
    let node ← env.referTo builder base
    if d.properties.isEmpty then
      return .whole (c.apply (if c.array then .array {} node else node))
    else if c.array then return .whole (← env.composedArray builder d c node)
    else return .base node

/-! ## Building types -/

/-- The type that a map maps to. -/
def mapInner (d : Descriptor) : Token :=
  if d.inner matches .none then .builtin .anything else d.inner

/-- A map to a type: values of any kind need no schema. -/
def mapTo (value : Descriptor) : Build Node := do
  if value.shape = .primitive ∧ value.kind = some .any then
    return .object {} [] none (some true)
  else
    return .object {} [] (some (← env.refer builder value)) none

/-- A map. -/
def mapNode (d : Descriptor) : Build Node := do
  annotate d.annotations (← env.mapTo builder (← env.describe (mapInner d)))

/-- The own object of a type, combined with its base if it has one; the title and the
description belong to the whole. -/
def ObjectParts.over (o : ObjectParts) : Option Node → Node
  | none => o.toNode
  | some base =>
    let own := { o with keywords := { o.keywords with title := none, description := none } }
    .composition [base, own.toNode] o.keywords.title o.keywords.description

/-- The object of a type that is stored under its name. -/
def ownObject (d : Descriptor) (base : Option Node) : Build Node := do
  let c ← lift (Constraints.merge d.annotations)
  let o ← env.populate builder d (.ofNode (c.apply .emptyObject))
  return o.over base

/-- What is stored for a type. -/
def ownNode (d : Descriptor) (base : Option Node) : Build Node :=
  if d.shape = .enum then
    annotate d.annotations (.leaf { choices := d.members.map .text } (some .string))
  else env.ownObject builder d base

/-- Build a type that is stored under its name, and store it.  A type that is being
visited has an empty object stand in for it. -/
def storeNode (d : Descriptor) (base : Option Node) : Build Built := do
  if ← isVisited d.key then return ⟨.emptyObject, false⟩
  visit d.key
  env.claim d.name d
  match ← stored? d.name with
  | some n => return ⟨n, true⟩
  | none =>
    let node ← env.ownNode builder d base
    return ⟨← Registry.putting d.name node, true⟩

/-- Build a type that may be stored under its name. -/
def namedNode (d : Descriptor) : Build Built := do
  match d.base with
  | none => env.storeNode builder d none
  | some base =>
    if ← env.isArrayVisited d then return ⟨.emptyObject, false⟩
    match ← env.inherit builder d base with
    | .whole node => return ⟨node, false⟩
    | .base node => env.storeNode builder d (some node)

/-- Build a type, given how types inside it are built. -/
def buildShape (d : Descriptor) : Build Built := do
  match d.shape with
  | .nullable => return ⟨(← env.referTo builder d.inner).makeNullable, false⟩
  | .primitive => return ⟨← annotate d.annotations (d.kind.getD .any).schema, false⟩
  | .unknown => return ⟨← annotate d.annotations .untyped, false⟩
  | .array =>
    let items ← env.referTo builder d.inner
    return ⟨← annotate d.annotations (.array { uniqueItems := d.uniqueItems } items), false⟩
  | .map => return ⟨← env.mapNode builder d, false⟩
  | .enum | .object => env.namedNode builder d

/-- **Count a type that is built inside others.**  The count is raised while the type is
built and lowered again however that ends; a type beyond the limit is refused. -/
def deepening {α : Type} (d : Descriptor) (body : Build α) : Build α := fun w =>
  let w := w.atDepth (w.session.depth + 1)
  match if env.maxDepth < w.session.depth then .error (.tooDeep d.name env.maxDepth) w
    else body w with
  | .ok a w => .ok a (w.atDepth (w.session.depth - 1))
  | .error e w => .error e (w.atDepth (w.session.depth - 1))

/-- **Build a type** with no more than a number of levels below one another. -/
def build : Nat → Descriptor → Build Built
  | 0, d => throw (.tooDeep d.name env.maxDepth)
  | n + 1, d => env.deepening d (env.buildShape (build n) d)

/-- More levels than the depth can count before it refuses the next one. -/
def levels : Nat := env.maxDepth + 1

/-- Build a type as deep as the environment allows. -/
def buildRoot (d : Descriptor) : Build Node := do
  return (← env.build env.levels d).node

/-- Refer to a type from outside. -/
def referRoot (d : Descriptor) : Build Node :=
  env.refer (env.build env.levels) d

end Environment

end Schemata
