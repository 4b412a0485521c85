import Schemata.Registry.Basic
import Schemata.Descriptor.Reading
import Schemata.Value.Default
import Schemata.Annotation.Apply
import Schemata.Annotation.Merge

/-!
# Sessions

The synthesis of schemas works on a *session*: the registry of schemas, and what
has been learned along the way.

* A *claim* ties a name to the type that goes by it.  A second type that goes by
  the same name is refused.  Claims are kept only for names that are stored.
* A *reading* is a descriptor read off a type.  Types are read once; equal types
  share the reading of the first.
* An *instance* is what defaults are read from, or the knowledge that there is none.
  It is made once for a type.
* The *depth* counts the types that are being built inside one another.  It is zero
  between calls.

Inside one call the session is accompanied by the types that are being visited, which
is what ends the walk through a graph with cycles.  A computation that fails keeps
the session as it left it.
-/

namespace Schemata

/-- What does not change during a session. -/
structure Environment where
  program : Program
  kinds : Kinds := []
  /-- How deep types may nest. -/
  maxDepth : Nat
  /-- Publish the defaults of properties. -/
  captureDefaults : Bool
  deriving Inhabited

/-- What a session has stored and learned. -/
structure Session where
  registry : Registry Node := {}
  claims : List (String × Key) := []
  readings : List (Token × Descriptor) := []
  instances : List (Key × Option Value) := []
  warnings : List String := []
  /-- How many types are being built inside one another. -/
  depth : Nat := 0
  deriving Inhabited

instance : HoldsRegistry Session Node where
  registry := Session.registry
  withRegistry s r := { s with registry := r }
  registry_withRegistry _ _ := rfl

/-- A session and the types being visited. -/
structure Walk where
  session : Session
  visited : List Key := []
  deriving Inhabited

instance : HoldsRegistry Walk Node where
  registry w := w.session.registry
  withRegistry w r := { w with session := { w.session with registry := r } }
  registry_withRegistry _ _ := rfl

/-- The walk at another depth. -/
def Walk.atDepth (w : Walk) (depth : Nat) : Walk :=
  { w with session := { w.session with depth := depth } }

/-- A computation of the synthesis. -/
abbrev Build (α : Type) := EStateM Fault Walk α

namespace Build

/-- The outcome of a pure computation. -/
def lift {α : Type} : Except Fault α → Build α
  | .ok a => fun w => .ok a w
  | .error e => fun w => .error e w

/-- Something read off the session. -/
def asks {α : Type} (f : Session → α) : Build α := fun w => .ok (f w.session) w

/-- Change the session. -/
def update (f : Session → Session) : Build Unit := fun w =>
  .ok () { w with session := f w.session }

/-- The schema stored under a name. -/
def stored? (name : String) : Build (Option Node) :=
  asks fun s => s.registry.get? name

/-! ## Visited types -/

/-- Whether a type is being visited. -/
def isVisited (k : Key) : Build Bool := do
  lift k.check
  return k.isAmong (← get).visited

/-- Visit a type. -/
def visit (k : Key) : Build Unit :=
  modify fun w => { w with visited := k :: w.visited }

/-- Run a computation while a type is visited, and not afterwards. -/
def whileVisiting {α : Type} (k : Key) (body : Build α) : Build α := fun w =>
  match body { w with visited := k :: w.visited } with
  | .ok a w => .ok a { w with visited := k.without w.visited }
  | .error e w => .error e { w with visited := k.without w.visited }

/-! ## Defaults -/

/-- What the defaults of a type are read from, made when first asked for. -/
def instanceOf (d : Descriptor) : Build (Option Value) := do
  lift d.key.check
  match ← asks fun s => s.instances.find? fun e => e.1.same d.key with
  | some e => return e.2
  | none =>
    let made : Option Value := match d.factory with
      | some (.ok v) => some v
      | _ => none
    update fun s => { s with instances := s.instances ++ [(d.key, made)] }
    return made

/-- **The default of a property in its published form**, if it has one worth
publishing.  A default that has no published form is none. -/
def capture (d : Descriptor) (q : Property) : Build (Option Value) := do
  match (← instanceOf d).bind fun v => v.held? q.accessorName with
  | none => return none
  | some v =>
    if ← lift v.isIntrinsic then return none
    else return v.literal.toOption

end Build

namespace Session

/-- Run a computation with nothing visited yet. -/
def run {α : Type} (body : Build α) : EStateM Fault Session α := fun s =>
  match body ⟨s, []⟩ with
  | .ok a w => .ok a w.session
  | .error e w => .error e w.session

/-- Forget the claims on names that are not stored. -/
def prune (s : Session) : Session :=
  { s with claims := s.claims.filter fun c => s.registry.contains c.1 }

/-- Run a computation and forget, however it ends, the claims on names that are not
stored. -/
def pruning {α : Type} (body : EStateM Fault Session α) : EStateM Fault Session α := fun s =>
  match body s with
  | .ok a s => .ok a s.prune
  | .error e s => .error e s.prune

end Session

namespace Environment

open Build

variable (env : Environment)

/-! ## Reading types -/

/-- Read a type that has not been read, and keep the reading. -/
def readNew (t : Token) : Build Descriptor := fun w =>
  match env.program.read env.kinds t with
  | .error e => .error e w
  | .ok d =>
    let d := { d with identity := .kept w.session.readings.length }
    .ok d { w with session := { w.session with readings := w.session.readings ++ [(t, d)] } }

/-- **The descriptor of a type.**  A descriptor made by hand is its own; any other type
is read, unless an equal one has been.  A type that a reading cannot be kept for is read
every time. -/
def describe (t : Token) : Build Descriptor :=
  match t with
  | .crafted i =>
    return { (env.program.crafted[i]?).getD default with identity := .crafted i }
  | t =>
    let t := t.asType
    if t.isKey then do
      match ← asks fun s => s.readings.find? fun e => e.1.same t with
      | some e => return e.2
      | none => env.readNew t
    else return { ← lift (env.program.read env.kinds t) with identity := .passing }

/-! ## Claims -/

/-- **Claim a name for a type.**  A name claimed by another type is refused. -/
def claim (name : String) (d : Descriptor) : Build Unit := do
  match ← asks fun s => getKey? name s.claims with
  | none => update fun s => { s with claims := s.claims ++ [(name, d.key)] }
  | some owner =>
    if owner.same d.key then return ()
    else throw (.duplicateName name (env.program.ownerText owner) (env.program.qualifiedName d))

/-! ## Bases -/

/-- A bound on the length of a walk through bases: every type of the program can be
passed once between any two others. -/
def baseFuel : Nat :=
  let n := env.program.crafted.length + env.program.classes.length +
    env.program.brands.length + 2
  n * n

/-- The bases of a type that have not been seen. -/
def basesFrom : Nat → List Identity → Descriptor → Build (List Descriptor)
  | 0, _, _ => return []
  | fuel + 1, seen, d =>
    match d.base with
    | none => return []
    | some t => do
      let b ← env.describe t
      if seen.any b.identity.same then return []
      else if b.shape ≠ .object then return [b]
      else return b :: (← basesFrom fuel (b.identity :: seen) b)

/-- **The bases of a type**, nearest first, up to the first that is not an object or
has been seen. -/
def baseChain (d : Descriptor) : Build (List Descriptor) :=
  env.basesFrom env.baseFuel [d.identity] d

/-- The kind of leaf that the bases of a type end at. -/
def primitiveKind (d : Descriptor) : Build (Option Kind) := do
  if d.base.isNone then return none
  match (← env.baseChain d).getLast? with
  | some b => return if b.shape = .primitive then b.kind else none
  | none => return none

/-- Whether a type is published in place, as an array of compositions. -/
def publishesArray (d : Descriptor) : Build Bool := do
  if d.base.isNone || d.properties.isEmpty then return false
  if (← env.primitiveKind d).isSome then return false
  return (← lift (Constraints.merge d.annotations)).array

end Environment

/-- Whether types of this shape are always published in place. -/
def Shape.isInline : Shape → Bool
  | .primitive | .nullable | .array | .map | .unknown => true
  | .enum | .object => false

/-- Whether a type is always published in place, never by name. -/
def Environment.isInline (env : Environment) (d : Descriptor) : Build Bool := do
  if d.shape.isInline then return true
  return (← env.primitiveKind d).isSome

end Schemata
