import Schemata.Manifest.Types
import Schemata.Declared.Declaring

/-!
# Declarations in JSON

The declarations of an input become a program in three steps.  Descriptors made by
hand are there from the start, since they may mention each other and anything else;
classes and brands are declared in order; and then the descriptors are filled in.
-/

namespace Schemata.Intake

/-! ## Fields -/

/-- Read what makes instances: it gives a value, gives an object with attributes, or
fails. -/
def factory (v : Value) : Reader (Except Fault Value) := do
  if let some w := v.present? "value" then return .ok (← value w)
  if let some message := v.words? "raises" then return .error (.unfit .failure message)
  let attributes ← pairsAt v "attrs"
  let label : ObjectLabel :=
    { className := "SimpleNamespace", qualifiedName := "types.SimpleNamespace", form := .plain
      serial := ← serial, spoken := none, failing := [] }
  return .ok (.object label none attributes)

/-- Read what makes instances, if something does. -/
def factoryAt (v : Value) : Reader (Option (Except Fault Value)) :=
  match v.field? "factory" with
  | some f => do return some (← factory f)
  | none => return none

/-- Read a field of a class. -/
def field (v : Value) : Reader Field := do
  let name ← require "field" (v.words? "name")
  let type ← typeExpr ((v.field? "type").getD (.text "Any"))
  let ms ← (v.items "meta").mapM metadata
  let default ← match v.present? "default" with
    | some w => do pure (some (← value w))
    | none => pure none
  let description ← match v.field? "field" with
    | some _ => do pure (some (← fieldNote (← pairsAt v "field")))
    | none => pure none
  return {
    name := name
    type := if ms.isEmpty then type else .annotated type ms
    default := default
    factory := ← factoryAt v
    description := description }

/-! ## Classes -/

/-- What decorators say about a declaration. -/
structure Decoration where
  annotations : List Record := []
  publishedName : Option String := none
  deriving Inhabited

/-- Read one decorator: its records, its named arguments as one more, and a name. -/
def decorator (v : Value) : Reader Decoration := do
  let rs ← records (v.items "records")
  let named ← pairsAt v "kwargs"
  let name ← match v.field? "name" with
    | some w => do pure (some (← value w))
    | none => pure none
  return {
    annotations := if named.isEmpty then rs else rs ++ [.schema named]
    publishedName := name.map fun n => (n.text?).getD "" }

/-- Read the decorators of a declaration.  The outermost comes first, and its name
stands; a name that is no text, or empty, is none. -/
def decoration (v : Value) : Reader Decoration := do
  let ds ← (v.items "decorators").mapM decorator
  return {
    annotations := ds.flatMap Decoration.annotations
    publishedName := (ds.findSome? Decoration.publishedName).filter fun s => !s.isEmpty }

/-- The names of a declaration. -/
structure DeclaredNames where
  id : String
  name : String
  module : String
  qualname : String

/-- Read the names of a declaration. -/
def declaredNames (v : Value) : Reader DeclaredNames := do
  let id ← require "declaration" (v.words? "id")
  let name := (v.words? "name").getD id
  return ⟨id, name, (v.words? "module").getD "m", (v.words? "qualname").getD name⟩

/-- Read the types that a class is derived from. -/
def basesOf (v : Value) : Reader (List Token) :=
  (v.items "bases").mapM token

/-- The attributes that fields with a default give their class. -/
def attributesOf (fs : List Field) : List (String × Option Value) :=
  fs.filterMap fun f => f.default.map fun v => (f.name, some v)

/-- Read an initializer. -/
def initializer (v : Value) : Reader Initializer := do
  let needs := match v.field? "args" with
    | some (.int n) => n.toNat
    | _ => 0
  return ⟨needs, v.words? "raises", ← pairsAt v "set"⟩

/-- Read an enumeration, and what it is derived from. -/
def enumeration (v : Value) (names : DeclaredNames) (index : Nat) :
    Reader (Enumeration × List Token) := do
  let base := (v.words? "base").getD "Enum"
  let whole := base == "IntEnum" || base == "IntFlag"
  let mixin := if whole then some .integer else (v.words? "mixin").bind Builtin.ofWord?
  let head : EnumerationHead :=
    { ident := toString index, name := names.name, mixin := mixin
      ofBits := base == "Flag" || base == "IntFlag", shownByValue := whole }
  let e ← lift (head.enumeration (← pairsAt v "members"))
  return (e, (mixin.toList ++ [Builtin.enumeration]).map Token.builtin)

/-- Read a class, given the types that it is derived from. -/
def classOf (v : Value) (decl : String) (names : DeclaredNames) (written : List Token) :
    Reader Class := do
  let decoration ← decoration v
  let fs ← (v.items "fields").mapM field
  let c : Class :=
    { name := names.name, module := names.module, qualname := names.qualname
      publishedName := decoration.publishedName, annotations := decoration.annotations
      fields := fs, attributes := attributesOf fs }
  if decl = "enum" then
    let (e, roots) ← enumeration v names (← get).program.classes.length
    return { c with form := .enumeration e, bases := roots }
  let root := if decl = "model" then Builtin.model else Builtin.object
  let bases := (← get).program.classesOfBases written written
  let c := { c with bases := if bases.isEmpty then [.builtin root] else bases }
  match decl with
  | "dataclass" => return { c with form := .record }
  | "model" =>
    return { c with
      form := .model
      attributes := attributesOf (fs.filter fun f => f.type.isClassVar) }
  | _ =>
    let failing := (v.items "raising").filterMap Value.text?
    let init ← match v.field? "init" with
      | some w => do pure (some (← initializer w))
      | none => pure none
    let kept := c.attributes.filter fun a => !failing.contains a.1
    return { c with
      attributes := kept ++ failing.map fun n => (n, none)
      init := init
      spoken := v.words? "str" }

/-- Read a brand. -/
def brand (v : Value) (names : DeclaredNames) : Reader Brand := do
  let decoration ← decoration v
  let of ← token ((v.field? "type").getD (.text "none"))
  return { name := names.name, module := names.module, qualname := names.qualname
           publishedName := decoration.publishedName, of := of }

/-! ## Descriptors -/

/-- Read a property of a descriptor made by hand. -/
def property (v : Value) : Reader Property := do
  return {
    name := ← require "property" (v.words? "name")
    type := ← token ((v.field? "type").getD (.text "none"))
    annotations := ← records (v.items "annotations")
    catchAll := v.flag "catch_all"
    required := v.flag "required"
    accessor := v.words? "attribute" }

/-- The start of a descriptor made by hand: what others can mention. -/
def descriptorStart (v : Value) : Descriptor :=
  { name := (v.words? "name").getD ((v.words? "id").getD "")
    shape := ((v.words? "shape").bind Shape.ofWord?).getD .object }

/-- Read a type that may be missing. -/
def tokenAt (v : Value) (key : String) : Reader Token :=
  match v.field? key with
  | some t => token t
  | none => return .none

/-- Read the whole of a descriptor made by hand. -/
def descriptor (v : Value) : Reader Descriptor := do
  let kind ← match v.words? "kind" with
    | some w => do pure (some (← kindOf w))
    | none => pure none
  let source ← match v.field? "source" with
    | some w => do pure (some (Token.value (← value w)))
    | none => pure none
  let base ← tokenAt v "base"
  return { descriptorStart v with
    kind := kind
    inner := ← tokenAt v "inner"
    base := if base matches .none then none else some base
    members := (v.items "enum_members").filterMap Value.text?
    properties := ← (v.items "properties").mapM property
    annotations := ← records (v.items "annotations")
    factory := ← factoryAt v
    source := source
    uniqueItems := v.flag "unique_items" }

/-! ## Programs -/

/-- Whether a declaration is a descriptor made by hand. -/
def isCrafted (v : Value) : Bool := v.words? "decl" == some "descriptor"

/-- Whether a declaration is a brand. -/
def isBrand (v : Value) : Bool := v.words? "decl" == some "newtype"

/-- Start a descriptor made by hand. -/
def startDescriptor (v : Value) : Reader Unit := do
  let t ← craft (descriptorStart v)
  let id ← require "declaration" (v.words? "id")
  modify fun i => { i with program := { i.program with names := setKey id t i.program.names } }

/-- Fill in a descriptor made by hand, by its place. -/
def fillDescriptor (index : Nat) (v : Value) : Reader Unit := do
  let d ← descriptor v
  modify fun i =>
    { i with program := { i.program with crafted := i.program.crafted.set index d } }

/-- The types of the fields of a model are made when it is declared, as far as they can be. -/
def checkModel (lookup : String → Option Token) (index : Nat) : Reader Unit := do
  let p := (← get).program
  if let some c := p.classes[index]? then
    if c.form matches .model then lift (p.checkFieldTypes lookup (.declared index) c)

/-- Declare a class or a brand. -/
def declare (v : Value) : Reader Unit := do
  let names ← declaredNames v
  if isBrand v then
    let b ← brand v names
    modify fun i => { i with program := i.program.declareBrand names.id b }
  else
    let written ← basesOf v
    let c ← classOf v ((v.words? "decl").getD "plain") names written
    let before := (← get).program
    let after ← lift (before.declareClass names.id c written)
    modify fun i => { i with program := after }
    checkModel before.lookup before.classes.length

/-- What the names of classes and brands will stand for. -/
def upcomingNames (vs : List Value) : List (String × Token) :=
  let named (vs : List Value) (make : Nat → Token) : List (String × Token) :=
    vs.zipIdx.filterMap fun e => (e.1.words? "id").map fun id => (id, make e.2)
  setKeys (named (vs.filter fun v => !isBrand v) .declared ++ named (vs.filter isBrand) .brand) []

/-- **Take in declarations.** -/
def declarations (vs : List Value) : Reader Unit := do
  let crafted := vs.filter isCrafted
  let others := vs.filter fun v => !isCrafted v
  modify fun i => { i with upcoming := upcomingNames others }
  crafted.forM startDescriptor
  others.forM declare
  let p := (← get).program
  (List.range p.classes.length).forM (checkModel p.lookup)
  crafted.zipIdx.forM fun e => fillDescriptor e.2 e.1

end Schemata.Intake
