import Schemata.Proofs.Synthesis.Instances

/-!
# Schemas without their defaults

A default describes and does not demand, and the synthesis looks at it nowhere but where the next
one would be put.  So what is done to schemas on the way --- constraints are laid on them, they are
made nullable, they become properties --- is done to the same effect when all defaults have been
taken off them first (`Node.undefaulted`).  This is said here for each of the things that are done;
constraints may bring a default along, and the constraints that are laid on afterwards are then
those without it (`Constraints.undefaulted`).
-/

namespace Schemata

open Environment (ObjectParts catchAllValue)

/-- Keywords without the default. -/
def Keywords.undefaulted (k : Keywords) : Keywords :=
  { k with default := none }

/-- Constraints without the default. -/
def Constraints.undefaulted (c : Constraints) : Constraints :=
  { c with default := none }

namespace Node

mutual

/-- **A node without defaults**, at any depth. -/
def undefaulted : Node → Node
  | .leaf k t => .leaf k.undefaulted t
  | .object k ps additional allowed =>
    .object k.undefaulted (undefaultedFields ps) (undefaulted? additional) allowed
  | .array k items => .array k.undefaulted (undefaulted items)
  | .ref name t d => .ref name t d
  | .composition ns t d => .composition (undefaultedAll ns) t d
  | .union ns t d => .union (undefaultedAll ns) t d

/-- Properties without defaults. -/
def undefaultedFields : List (String × Node) → List (String × Node)
  | [] => []
  | (name, n) :: ps => (name, undefaulted n) :: undefaultedFields ps

/-- The schema of further properties without defaults. -/
def undefaulted? : Option Node → Option Node
  | none => none
  | some n => some (undefaulted n)

/-- Some nodes without defaults. -/
def undefaultedAll : List Node → List Node
  | [] => []
  | n :: ns => undefaulted n :: undefaultedAll ns

end

@[simp] theorem undefaultedFields_eq_map (ps : List (String × Node)) :
    undefaultedFields ps = ps.map fun e => (e.1, e.2.undefaulted) := by
  induction ps with
  | nil => rfl
  | cons e ps ih => rw [undefaultedFields, ih, List.map_cons]

@[simp] theorem undefaultedAll_eq_map (ns : List Node) :
    undefaultedAll ns = ns.map undefaulted := by
  induction ns with
  | nil => rfl
  | cons n ns ih => rw [undefaultedAll, ih, List.map_cons]

@[simp] theorem isConcrete_undefaulted (n : Node) : n.undefaulted.isConcrete = n.isConcrete := by
  cases n <;> rfl

@[simp] theorem isNull_undefaulted (n : Node) : n.undefaulted.isNull = n.isNull := by
  cases n with
  | leaf k t =>
    cases t with
    | none => rfl
    | some j => cases j <;> rfl
  | _ => rfl

/-- Constraints are laid on. -/
@[simp] theorem undefaulted_apply (c : Constraints) (n : Node) :
    (c.apply n).undefaulted = c.undefaulted.apply n.undefaulted := by
  cases n with
  | object k ps additional allowed =>
    have hadditional :
        undefaulted? (if c.additionalAllowed = some false then none else additional) =
          if c.additionalAllowed = some false then none else undefaulted? additional := by
      split <;> rfl
    show object _ _ (undefaulted? _) _ = object _ _ _ _
    rw [hadditional]
    rfl
  | _ => rfl

/-- A node is made nullable. -/
@[simp] theorem undefaulted_makeNullable (n : Node) :
    n.makeNullable.undefaulted = n.undefaulted.makeNullable := by
  cases n with
  | leaf k t =>
    cases t with
    | none => rfl
    | some j => cases j <;> rfl
  | union ns t d =>
    have hany : (undefaultedAll ns).any isNull = ns.any isNull := by
      rw [undefaultedAll_eq_map, List.any_map]
      exact congrArg ns.any (funext isNull_undefaulted)
    have hmarked : undefaultedAll (ns ++ [nullMarker]) = undefaultedAll ns ++ [nullMarker] := by
      rw [undefaultedAll_eq_map, List.map_append, ← undefaultedAll_eq_map]
      rfl
    show undefaulted (if ns.any isNull then union ns t d else union (ns ++ [nullMarker]) t d) =
      if (undefaultedAll ns).any isNull then union (undefaultedAll ns) t d
      else union (undefaultedAll ns ++ [nullMarker]) t d
    rw [hany]
    split
    · rfl
    · rw [undefaulted, hmarked]
  | _ => rfl

@[simp] theorem undefaulted_laidOn (c : Constraints) (n : Node) :
    (c.laidOn n).undefaulted = c.undefaulted.laidOn n.undefaulted := by
  unfold Constraints.laidOn
  simp [apply_ite undefaulted]
  rfl

/-- A default is put on a node. -/
@[simp] theorem undefaulted_withDefault (n : Node) (v : Option Value) :
    (n.withDefault v).undefaulted = n.undefaulted := by
  cases v with
  | none => rfl
  | some v => cases n <;> rfl

/-- What takes the undeclared properties of an object. -/
theorem catchAllValue_undefaulted (n : Node) :
    catchAllValue n.undefaulted = (catchAllValue n).map undefaulted := by
  cases n with
  | object k ps additional allowed =>
    cases ps with
    | nil =>
      cases additional with
      | some value => rfl
      | none =>
        show (if allowed = some true then none else some _) =
          Option.map undefaulted (if allowed = some true then none else some _)
        split <;> rfl
    | cons p ps => rfl
  | _ => rfl

end Node

/-! ## Objects under construction -/

/-- The parts of an object without defaults. -/
def Environment.ObjectParts.undefaulted (o : ObjectParts) : ObjectParts where
  keywords := o.keywords.undefaulted
  properties := Node.undefaultedFields o.properties
  additional := Node.undefaulted? o.additional
  additionalAllowed := o.additionalAllowed

/-- What becomes of a type with a base, without defaults. -/
def Inherited.undefaulted : Inherited → Inherited
  | .whole n => .whole n.undefaulted
  | .base n => .base n.undefaulted

/-- What building a type gives, without defaults. -/
def Built.undefaulted (b : Built) : Built :=
  { b with node := b.node.undefaulted }

namespace Environment.ObjectParts

variable {o : ObjectParts}

@[simp] theorem undefaulted_toNode (o : ObjectParts) :
    o.toNode.undefaulted = o.undefaulted.toNode :=
  rfl

@[simp] theorem undefaulted_requiring (o : ObjectParts) (names : List Wording) :
    (o.requiring names).undefaulted = o.undefaulted.requiring names :=
  rfl

@[simp] theorem names_undefaulted (o : ObjectParts) :
    o.undefaulted.properties.map (·.1) = o.properties.map (·.1) := by
  show (Node.undefaultedFields o.properties).map (·.1) = _
  rw [Node.undefaultedFields_eq_map, List.map_map]
  rfl

/-- A property is added. -/
@[simp] theorem undefaulted_adding (o : ObjectParts) (q : Property) (c : Constraints) (n : Node) :
    (o.adding q c n).undefaulted = o.undefaulted.adding q c n.undefaulted := by
  have hset (ps : List (String × Node)) : Node.undefaultedFields (setKey q.name n ps) =
      setKey q.name n.undefaulted (Node.undefaultedFields ps) := by
    induction ps with
    | nil => rfl
    | cons e ps ih =>
      show Node.undefaultedFields (if e.1 == q.name then _ else _) =
        if e.1 == q.name then _ else _
      rw [apply_ite Node.undefaultedFields, Node.undefaultedFields, Node.undefaultedFields, ih]
  unfold adding
  dsimp only
  rw [apply_ite undefaulted, undefaulted_requiring]
  unfold undefaulted
  dsimp only
  rw [hset]

/-- Undeclared properties are taken. -/
@[simp] theorem undefaulted_accepting (o : ObjectParts) (c : Constraints) (held : Node) :
    (o.accepting c held).undefaulted = o.undefaulted.accepting c.undefaulted held.undefaulted := by
  unfold accepting
  rw [Node.catchAllValue_undefaulted]
  cases catchAllValue held with
  | none => rfl
  | some value =>
    show ObjectParts.mk _ _ (some (c.apply value).undefaulted) _ = _
    rw [Node.undefaulted_apply]
    rfl

@[simp] theorem undefaulted_over (o : ObjectParts) (base : Option Node) :
    (o.over base).undefaulted = o.undefaulted.over (base.map Node.undefaulted) := by
  cases base <;> rfl

end Environment.ObjectParts

end Schemata
