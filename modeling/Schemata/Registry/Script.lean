import Schemata.Registry.Basic
import Schemata.Schema.Render

/-!
# Programs over a registry

A script is a list of steps on one registry of schemas: single writes and reads,
ensured names whose builders run steps of their own, and groups of steps that are
kept or dropped together.  `Step.run` gives the answer to every step together with
the names stored after it.

A stored schema has an identity.  A schema handed out by the registry is the very
one it stores, so that a change to it is seen by everyone; only a copy is
independent.  Schemas therefore live in cells, the registry stores the numbers of
cells, and an answer names a cell by a mark: the cells are marked in the order in
which answers first show them.
-/

namespace Schemata

/-- A step of a script. -/
inductive Step where
  /-- Store a schema unless the name is taken. -/
  | put (name : String) (node : Node)
  | get (name : String)
  | exists (name : String)
  /-- Refer to a stored schema, or copy it. -/
  | reference (name : String) (copied : Bool) (requester : Option String)
  /-- Render everything that is stored. -/
  | render (refPrefix : String)
  | names
  /-- Change the title of the schema with a mark. -/
  | retitle (mark : Nat) (title : String)
  /-- Ensure a name; the builder runs some steps and then fails or makes a schema. -/
  | ensure (name : String) (node : Node) (inner : List Step) (failure : Option String)
  /-- Run some steps as a group, which is dropped if there is a failure. -/
  | group (inner : List Step) (failure : Option String)
  deriving Inhabited

mutual

/-- What a step answers. -/
inductive Answer where
  | nothing
  | presence (stored : Bool)
  | schemas (rendered : List (String × Value))
  /-- A schema and its mark. -/
  | node (mark : Nat) (node : Node)
  /-- The replies to inner steps, and what came of the whole. -/
  | nested (replies : List Reply) (outcome : Except Fault Answer)
  | committed

/-- The answer to a step, with the names stored after it. -/
inductive Reply where
  | mk (answer : Except Fault Answer) (names : List String)

end

/-- A registry of cells. -/
structure Bench where
  registry : Registry Nat := {}
  /-- The schemas in the cells. -/
  cells : List Node := []
  /-- The cells that answers have shown, in order. -/
  shown : List Nat := []

instance : HoldsRegistry Bench Nat where
  registry := Bench.registry
  withRegistry b r := { b with registry := r }
  registry_withRegistry _ _ := rfl

namespace Bench

/-- The schema in a cell. -/
def node (b : Bench) (cell : Nat) : Node :=
  (b.cells[cell]?).getD .untyped

/-- A new cell. -/
def allocate (node : Node) (b : Bench) : Nat × Bench :=
  (b.cells.length, { b with cells := b.cells ++ [node] })

/-- The mark of a cell, a new one if no answer has shown it yet. -/
def mark (cell : Nat) (b : Bench) : Nat × Bench :=
  match b.shown.findIdx? (· == cell) with
  | some i => (i, b)
  | none => (b.shown.length, { b with shown := b.shown ++ [cell] })

/-- Show a cell in an answer. -/
def showing (cell : Nat) (b : Bench) : Except Fault Answer × Bench :=
  let (i, b) := b.mark cell
  (.ok (.node i (b.node cell)), b)

/-- Everything stored, rendered. -/
def render (refPrefix : String) (b : Bench) : List (String × Value) :=
  b.registry.entries.map fun e => (e.1, (b.node e.2).render refPrefix)

/-- Change the title of the schema in a cell. -/
def retitle (cell : Nat) (title : String) (b : Bench) : Bench :=
  { b with cells := b.cells.set cell ((b.node cell).withTexts (some title) none) }

/-- Store a new cell unless the name is taken; the stored cell, either way. -/
def put (name : String) (node : Node) (b : Bench) : Nat × Bench :=
  let (cell, b) := b.allocate node
  let (stored, r) := b.registry.put name cell
  (stored, { b with registry := r })

end Bench

namespace Step

/-- The computation of a builder or a group: run inner steps, note their replies, and
then fail or go on. -/
def noting {α : Type} (inner : Bench → List Reply × Bench) (failure : Option String)
    (rest : Bench → α × Bench) : EStateM Fault (Bench × List Reply) α := fun s =>
  let (replies, b) := inner s.1
  match failure with
  | some message => .error (.aborted message) (b, replies)
  | none =>
    let (a, b) := rest b
    .ok a (b, replies)

/-- The answer to a step that stores nothing. -/
def quiet (b : Bench) : Step → Except Fault Answer × Bench
  | .get name =>
    match b.registry.get? name with
    | some cell => b.showing cell
    | none => (.ok .nothing, b)
  | .exists name => (.ok (.presence (b.registry.contains name)), b)
  | .reference name copied requester =>
    match b.registry.get? name with
    | none => (.error (.missingSchema name requester), b)
    | some cell =>
      let (cell, b) := b.allocate (if copied then b.node cell else .refTo name)
      b.showing cell
  | .render refPrefix => (.ok (.schemas (b.render refPrefix)), b)
  | .retitle i title =>
    match b.shown[i]? with
    | some cell => (b.retitle cell title).showing cell
    | none => (.ok .nothing, b)
  | _ => (.ok .nothing, b)

mutual

/-- **The answer to a step.** -/
def run : Step → Bench → Except Fault Answer × Bench
  | .put name node, b =>
    let (cell, b) := b.put name node
    b.showing cell
  | .ensure name node inner failure, b =>
    match Registry.ensuring name (noting (runAll inner) failure (Bench.allocate node)) (b, []) with
    | .ok cell (b, replies) =>
      let (shown, b) := b.showing cell
      (.ok (.nested replies shown), b)
    | .error e (b, replies) => (.ok (.nested replies (.error e)), b)
  | .group inner failure, b =>
    match Registry.transaction (noting (runAll inner) failure fun b => ((), b)) (b, []) with
    | .ok () (b, replies) => (.ok (.nested replies (.ok .committed)), b)
    | .error e (b, replies) => (.ok (.nested replies (.error e)), b)
  | s, b => quiet b s
termination_by structural s => s

/-- The replies to some steps in turn. -/
def runAll : List Step → Bench → List Reply × Bench
  | [], b => ([], b)
  | s :: ss, b =>
    let (answer, b) := run s b
    let (replies, b') := runAll ss b
    (.mk answer b.registry.names :: replies, b')
termination_by structural ss => ss

end

end Step

end Schemata
