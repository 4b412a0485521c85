import Schemata.Proofs.Schema.Mentions

/-!
# The reference that a node holds

Where a type that is published by name is expected, a reference to its name stands; but it seldom
stands there alone.  Arrays, maps and types that accept null wrap what holds their inner type, and
an alias or a property lays annotations on it.  `Node.Holds` says that a node is a reference inside
such wrappings, and none of what is done to a node on the way takes the reference out.

Annotations may close a map, though: it then says whether there may be entries, and not what is in
them, so that there is no place left for a reference.  An empty object does not say even that, and
holds nothing.
-/

namespace Schemata

namespace Node

/-- **A node holds a reference to a name**, on its own or inside what wraps it. -/
inductive Holds (name : String) : Node → Prop
  | ref {t d : Option Wording} : Holds name (.ref name t d)
  | nullable {n : Node} {t d : Option Wording} (h : Holds name n) :
      Holds name (.union [n, nullMarker] t d)
  | items {k : Keywords} {n : Node} (h : Holds name n) : Holds name (.array k n)
  | values {k : Keywords} {n : Node} {allowed : Option Bool} (h : Holds name n) :
      Holds name (.object k [] (some n) allowed)
  | closed {k : Keywords} {allowed : Bool} : Holds name (.object k [] none (some allowed))

variable {name : String} {n : Node}

theorem Holds.makeNullable (h : n.Holds name) : n.makeNullable.Holds name := by
  cases h with
  | ref => exact .nullable .ref
  | @nullable m t d h =>
    have hnull : [m, nullMarker].any isNull = true :=
      List.any_eq_true.mpr ⟨_, List.mem_cons_of_mem _ List.mem_cons_self, rfl⟩
    unfold Node.makeNullable
    dsimp only
    rw [if_pos hnull]
    exact .nullable h
  | items h => exact .items h
  | values h => exact .values h
  | closed => exact .closed

/-- Constraints leave the reference where it is, or close what it is in. -/
theorem Holds.apply (h : n.Holds name) (c : Constraints) : (c.apply n).Holds name := by
  cases h with
  | ref => exact .ref
  | nullable h => exact .nullable h
  | items h => exact .items h
  | values h =>
    unfold Constraints.apply
    dsimp only
    split
    next hclosed =>
      rw [hclosed]
      exact .closed
    next => exact .values h
  | closed =>
    unfold Constraints.apply
    cases hallowed : c.additionalAllowed <;> simp only [ite_self] <;> exact .closed

theorem Holds.mapKeywords (h : n.Holds name) (f : Keywords → Keywords) :
    (n.mapKeywords f).Holds name := by
  cases h with
  | ref => exact .ref
  | nullable h => exact .nullable h
  | items h => exact .items h
  | values h => exact .values h
  | closed => exact .closed

end Node

/-- A property holds what holds its type. -/
theorem Node.Holds.dress {env : Environment} {d : Descriptor} {q : Property} {c : Constraints}
    {held node : Node} {w w' : Walk} {name : String} (h : held.Holds name)
    (hdress : env.dress d q c held w = .ok node w') : node.Holds name := by
  obtain ⟨m, f, hm, rfl⟩ := exists_of_dress hdress
  have hm : m.Holds name := by
    rcases hm with rfl | rfl
    · exact h
    · exact h.makeNullable
  exact (hm.apply c).mapKeywords f

/-- A map stands for its values where undeclared properties are taken. -/
theorem Node.Holds.catchAllValue {n v : Node} {name : String} (h : n.Holds name)
    (hv : Environment.catchAllValue n = some v) : v.Holds name := by
  cases h with
  | ref =>
    cases hv
    exact .ref
  | nullable h =>
    cases hv
    exact .nullable h
  | items h =>
    cases hv
    exact .items h
  | values h =>
    cases hv
    exact h
  | @closed k allowed =>
    cases allowed with
    | true => cases hv
    | false =>
      cases hv
      exact .closed

end Schemata
