import Schemata.Compiler.Basic

/-!
# Workshops

Several compilers may share one registry.  Each keeps what it has learned to itself:
a name that another compiler has stored is stored for everyone, but who owns it is
known only where it was claimed.

A workshop holds compilers and the registries they work on.  `Task` is what a manifest
can ask of a compiler in one piece, and `Workshop.perform` has a compiler do it; a task
that fails leaves behind what it did before, as far as the compiler does not take it
back itself.
-/

namespace Schemata

/-- What can be asked of a compiler in one piece. -/
inductive Task where
  | ensure (t : Token)
  | schemaFor (t : Token) (inlined : Bool)
  | infer (t : Token) (inlined : Bool)
  | build (t : Token)
  | components
  | document (given : List (String × Value))
  | exists (name : String)
  | reference (name : String) (copied : Bool) (requester : Option String)
  | put (name : String) (node : Node)
  | describe (t : Token)
  /-- Change the title of a copy, and look whether what is stored changes with it. -/
  | poke (t : Token)
  /-- Look at what the synthesis makes of a type before building it. -/
  | inspect (t : Token)
  /-- Capture the default of a property. -/
  | capture (t : Token) (property : String)
  deriving Inhabited

/-- What is told about a type that another mentions. -/
structure Mention where
  name : String
  shape : Shape
  deriving Inhabited

/-- What is told about a type. -/
structure Summary where
  descriptor : Descriptor
  inner : Option (Except Fault Mention)
  base : Option (Except Fault Mention)
  /-- The properties with what is told about their types. -/
  properties : List (Property × Option (Except Fault Mention))
  deriving Inhabited

/-- What a task gives. -/
inductive Outcome where
  | value (v : Value)
  | captured (v : Option Value)
  | summary (s : Summary)
  deriving Inhabited

namespace Compiler

/-- Tell about a type that another mentions; null is not told about. -/
def mention (c : Compiler) (t : Token) : Request (Option (Except Fault Mention)) := fun s =>
  match t with
  | .none => .ok none s
  | t =>
    match c.describe t s with
    | .ok d s => .ok (some (.ok ⟨d.name, d.shape⟩)) s
    | .error e s => .ok (some (.error e)) s

/-- **Tell about a type.** -/
def summarize (c : Compiler) (t : Token) : Request Summary := do
  let d ← c.describe t
  let inner ← c.mention d.inner
  let base ← c.mention (d.base.getD .none)
  let properties ← d.properties.mapM fun q => do return (q, ← c.mention q.type)
  return ⟨d, inner, base, properties⟩

/-- The title given to a copy that is poked. -/
def pokedTitle : String := "POKED"

/-- Inspect a type. -/
def inspect (c : Compiler) (t : Token) : Request Value := do
  let env := c.environment
  let d ← c.describe t
  let inline ← Session.run (env.isInline d)
  let kind ← Session.run (env.primitiveKind d)
  let chain ← Session.run (env.baseChain d)
  let array ← Session.run (env.publishesArray d)
  return .ofFields
    [("inline", .bool inline), ("kind", .ofText? (kind.map Kind.word)),
     ("base_chain", .ofTexts (chain.map Descriptor.name)), ("array", .bool array)]

/-- What asking for a document takes: a title and a version, by name only. -/
def documentSignature : Signature :=
  { function := "SchemaCompiler.document"
    placed := []
    named := [⟨"title", false⟩, ⟨"version", false⟩]
    onObject := true }

/-- Tell what has been rendered. -/
def telling (c : Compiler) (v : Value) : Request Outcome := do
  return .value (← Session.run (Build.lift (c.shown v)))

/-- Show a node. -/
def showing (c : Compiler) (n : Node) : Request Outcome :=
  c.telling (c.render n)

/-- **Do what is asked.** -/
def perform (c : Compiler) : Task → Request Outcome
  | .ensure t => do c.showing (← c.ensure t)
  | .schemaFor t inlined => do c.showing (← c.schemaFor t inlined)
  | .infer t inlined => do c.showing (← c.infer t inlined)
  | .build t => do c.showing (← c.build t)
  | .components => do c.telling (c.components (← get))
  | .document given => do
    let given ← Session.run (Build.lift (documentSignature.bind [] given))
    let said (key otherwise : String) : Value := (getKey? key given).getD (.text otherwise)
    c.telling (c.document (said "title" "schemacraft") (said "version" "0.0.0") (← get))
  | .exists name => do return .value (.bool ((← get).registry.contains name))
  | .reference name copied requester => do c.showing (← reference name copied requester)
  | .put name node => do c.showing (← Registry.putting name node)
  | .describe t => do return .summary (← c.summarize t)
  | .poke t => do
    let node := (← c.schemaFor t true).withTexts (some pokedTitle) none
    c.telling (.ofFields [("node", c.render node), ("components", c.components (← get))])
  | .inspect t => do return .value (← c.inspect t)
  | .capture t name => do
    let d ← c.describe t
    let q := (d.properties.find? fun q => q.name == name).getD { name := name, type := .none }
    return .captured (← Session.run (Build.capture d q))

end Compiler

/-- A compiler at work. -/
structure Desk where
  compiler : Compiler
  /-- The number of the registry it works on. -/
  shelf : Int
  session : Session := {}
  deriving Inhabited

/-- Compilers and the registries they share. -/
structure Workshop where
  desks : List Desk := []
  shelves : List (Int × Registry Node) := []
  deriving Inhabited

namespace Workshop

/-- The registry with a number. -/
def shelf (w : Workshop) (n : Int) : Registry Node :=
  ((w.shelves.find? fun e => e.1 == n).map (·.2)).getD {}

/-- Put a registry back. -/
def withShelf (w : Workshop) (n : Int) (r : Registry Node) : Workshop :=
  { w with shelves := (n, r) :: w.shelves.filter fun e => e.1 != n }

/-- The names stored where a compiler works. -/
def names (w : Workshop) (desk : Nat) : List String :=
  (w.shelf ((w.desks[desk]?).getD default).shelf).names

/-- **Have a compiler do something**: what came of it, and the warnings given. -/
def perform (w : Workshop) (desk : Nat) (task : Task) :
    Except Fault Outcome × List String × Workshop :=
  let d := (w.desks[desk]?).getD default
  let start := { d.session with registry := w.shelf d.shelf, warnings := [] }
  let finish (s : Session) : Workshop :=
    { w.withShelf d.shelf s.registry with desks := w.desks.set desk { d with session := s } }
  match d.compiler.perform task start with
  | .ok o s => (.ok o, s.warnings, finish s)
  | .error e s => (.error e, s.warnings, finish s)

end Workshop

end Schemata
