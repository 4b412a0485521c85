import Schemata.Synthesis.Schema
import Schemata.Schema.Render

/-!
# The compiler

What a host asks of the synthesis.

`Compiler.ensure` publishes a type and everything it reaches, and returns how to
point at it.  It is all or nothing: a call that fails leaves the registry and the
claims on names as they were.

`Compiler.infer` gives a schema for a parameter or a leaf without publishing
anything.  It refers to what is stored already; a type that would have to be
published degrades to a plain text, with a warning.  It follows wrappers without
counting depth, so that a wrapper that contains itself is followed until the nesting
limit cuts it off.

That limit is the host's own, on calls inside one another, and only what counts no depth
can come to it here.  A synthesis stops at the depth that the settings allow, and the host
is taken to nest calls that deep: settings that allow more than the host does, hundreds of
types inside one another, are outside this model.
-/

namespace Schemata

/-- An environment with what rendering needs. -/
structure Compiler where
  environment : Environment
  /-- Where references to stored schemas point, if that has a text. -/
  refPrefix : Except Fault String
  /-- The release of the document format. -/
  release : String
  deriving Inhabited

namespace Compiler

/-- A request to a compiler, worked on in a session. -/
abbrev Request (α : Type) := EStateM Fault Session α

/-- The descriptor of a type. -/
def describe (c : Compiler) (t : Token) : Request Descriptor :=
  Session.run (c.environment.describe t)

/-- A reference to a stored schema, or a copy of it. -/
def reference (name : String) (copied : Bool) (requester : Option String) : Request Node := do
  match (← get).registry.get? name with
  | none => throw (.missingSchema name requester)
  | some node => return if copied then node else .refTo name

/-- **Publish a type** and everything it reaches; how to point at it. -/
def ensure (c : Compiler) (t : Token) : Request Node := do
  let d ← c.describe t
  Session.pruning (Registry.transaction (Session.run (c.environment.referRoot d)))

/-- The schema of a type, published; if wanted, a copy of what is stored instead of a
reference to it. -/
def schemaFor (c : Compiler) (t : Token) (inlined : Bool) : Request Node := do
  match inlined, ← c.ensure t with
  | true, .ref name _ _ => reference name true none
  | _, node => return node

/-- Build a type outside any group of writes. -/
def build (c : Compiler) (t : Token) : Request Node := do
  let d ← c.describe t
  Session.run (c.environment.buildRoot d)

/-- Note a warning. -/
def warn (message : String) : Request Unit :=
  modify fun s => { s with warnings := s.warnings ++ [message] }

/-- The warning about a type nobody has published. -/
def degradedWarning (name : String) : String :=
  "No schema registered for " ++ name ++ "; falling back to a string schema"

/-- How many wrappers inside one another are followed, before the host refuses to nest calls
any deeper. -/
def nestingLimit : Nat := 960

/-- The schema of a leaf or parameter that wraps nothing. -/
def inferBare (c : Compiler) (inlined : Bool) (d : Descriptor) : Request Node := do
  if ← Session.run (c.environment.isInline d) then
    Session.run (c.environment.buildRoot d)
  else if (← get).registry.contains d.name then
    reference d.name inlined none
  else if d.shape = .enum then
    return .leaf { choices := d.members.map .text } (some .string)
  else
    warn (degradedWarning d.name)
    return .leaf {} (some .string)

/-- The schema of a leaf or parameter, at most a number of wrappers deep. -/
def inferWithin (c : Compiler) (inlined : Bool) : Nat → Token → Request Node
  | 0, _ => throw .endlessNesting
  | n + 1, t => do
    let d ← c.describe t
    match d.shape with
    | .nullable => return (← c.inferWithin inlined n d.inner).makeNullable
    | .array =>
      return .array { uniqueItems := d.uniqueItems } (← c.inferWithin inlined n d.inner)
    | .map =>
      let value ← c.describe d.inner
      if value.shape = .primitive ∧ value.kind = some .any then
        return .object {} [] none (some true)
      else
        return .object {} [] (some (← c.inferWithin inlined n d.inner)) none
    | _ => c.inferBare inlined d

/-- **The schema of a leaf or parameter**, without publishing anything. -/
def infer (c : Compiler) (t : Token) (inlined : Bool) : Request Node :=
  c.inferWithin inlined nestingLimit t

/-- What references to stored schemas start with; nothing where that has no text. -/
def prefixText (c : Compiler) : String := c.refPrefix.toOption.getD ""

/-- What has been rendered, which fails where references have nothing to start with. -/
def shown (c : Compiler) (v : Value) : Except Fault Value := c.refPrefix.map fun _ => v

/-- A node as a value. -/
def render (c : Compiler) (n : Node) : Value := n.render c.prefixText

/-- Every stored schema under its name. -/
def components (c : Compiler) (s : Session) : Value :=
  .ofFields [("schemas", .ofFields (s.registry.entries.map fun e => (e.1, c.render e.2)))]

/-- A whole document with the stored schemas. -/
def document (c : Compiler) (title version : Value) (s : Session) : Value :=
  .ofFields
    [("openapi", .text c.release),
     ("info", .ofFields [("title", title), ("version", version)]),
     ("components", c.components s)]

end Compiler

end Schemata
