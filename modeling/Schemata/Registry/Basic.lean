import Schemata.Value.Literal

/-!
# The registry

A registry stores entries under names, in the order in which the names were first
written, and writes every name at most once.

Writes can be grouped: `open_` starts a group, `commit` keeps what was written in
it --- for an enclosing group to answer for, if there is one --- and `rollback`
drops it.  The names written since the innermost group was opened are its
journal.

A computation that works on a registry usually works on more than that.
`HoldsRegistry` says that a registry is part of a state; `Registry.transaction` and
`Registry.ensuring` are the two ways such computations are run.  Both leave the
rest of the state as the computation leaves it, also where it fails.
-/

namespace Schemata

/-- Entries under names, with the journals of the groups that are open, innermost
first. -/
structure Registry (α : Type) where
  entries : List (String × α) := []
  journals : List (List String) := []
  deriving Repr, Inhabited

namespace Registry

variable {α : Type}

/-- The entry under a name. -/
def get? (r : Registry α) (name : String) : Option α :=
  getKey? name r.entries

/-- Whether a name is taken. -/
def contains (r : Registry α) (name : String) : Bool :=
  (r.get? name).isSome

/-- The names in the order written. -/
def names (r : Registry α) : List String :=
  r.entries.map (·.1)

/-- How many names are taken. -/
def size (r : Registry α) : Nat :=
  r.entries.length

/-- Write a free name, and note it in the innermost journal. -/
def store (r : Registry α) (name : String) (a : α) : Registry α where
  entries := r.entries ++ [(name, a)]
  journals := match r.journals with
    | [] => []
    | j :: js => (j ++ [name]) :: js

/-- Store an entry unless the name is taken; the stored entry, either way. -/
def put (r : Registry α) (name : String) (a : α) : α × Registry α :=
  match r.get? name with
  | some stored => (stored, r)
  | none => (a, r.store name a)

/-- Drop names. -/
def dropNames (r : Registry α) (names : List String) : Registry α :=
  { r with entries := r.entries.filter fun e => !names.contains e.1 }

/-- Start a group. -/
def open_ (r : Registry α) : Registry α :=
  { r with journals := [] :: r.journals }

/-- Keep the innermost group; what it wrote now belongs to the enclosing one. -/
def commit (r : Registry α) : Registry α :=
  match r.journals with
  | [] => r
  | [_] => { r with journals := [] }
  | written :: j :: js => { r with journals := (j ++ written) :: js }

/-- Drop the innermost group and everything written in it. -/
def rollback (r : Registry α) : Registry α :=
  match r.journals with
  | [] => r
  | written :: js => { r.dropNames written with journals := js }

end Registry

/-! ## Computations beside a registry -/

/-- A state that a registry of `α` is part of. -/
class HoldsRegistry (σ : Type) (α : outParam Type) where
  registry : σ → Registry α
  withRegistry : σ → Registry α → σ
  registry_withRegistry (s : σ) (r : Registry α) : registry (withRegistry s r) = r

/-- A registry is a state of its own. -/
instance {α : Type} : HoldsRegistry (Registry α) α where
  registry := id
  withRegistry _ r := r
  registry_withRegistry _ _ := rfl

/-- A state with something beside it. -/
instance {σ τ α : Type} [HoldsRegistry σ α] : HoldsRegistry (σ × τ) α where
  registry s := HoldsRegistry.registry s.1
  withRegistry s r := (HoldsRegistry.withRegistry s.1 r, s.2)
  registry_withRegistry s r := HoldsRegistry.registry_withRegistry s.1 r

namespace Registry

open HoldsRegistry

variable {σ ε α β : Type} [HoldsRegistry σ α]

/-- Change the registry of a state. -/
def within (f : Registry α → Registry α) (s : σ) : σ :=
  withRegistry s (f (registry s))

/-- Store an entry in the registry of the state unless the name is taken; the stored
entry, either way. -/
def putting (name : String) (a : α) : EStateM ε σ α := fun s =>
  let (stored, r) := (registry s).put name a
  .ok stored (withRegistry s r)

/-- **Ensure a name.**  The stored entry if there is one; otherwise what the builder
makes, stored unless the builder stored the name itself.  What a failing builder
wrote stays written. -/
def ensuring (name : String) (builder : EStateM ε σ α) : EStateM ε σ α := fun s =>
  match (registry s).get? name with
  | some stored => .ok stored s
  | none =>
    match builder s with
    | .error e s => .error e s
    | .ok a s => putting name a s

/-- **Run a computation inside a group of its own**, kept if the computation succeeds
and dropped if it fails. -/
def transaction (body : EStateM ε σ β) : EStateM ε σ β := fun s =>
  match body (within open_ s) with
  | .ok b s => .ok b (within commit s)
  | .error e s => .error e (within rollback s)

end Registry

end Schemata
