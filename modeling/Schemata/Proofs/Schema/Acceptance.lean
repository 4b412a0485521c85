import Schemata.Proofs.Synthesis.Instances

/-!
# Values that a schema accepts

A schema says of values which of them it accepts.  `Node.Accepts` says what it means to be accepted
as far as the *structure* of a value goes: its type, the values that are listed, the items of a
list, the entries of a mapping, the schemas behind references, and how schemas are combined.  Bounds
on numbers, lengths and counts, patterns and formats are left out, and so are items that have to
differ.

It is a relation with a rule for each way to be accepted, and not a function of the node: a
reference leads to another schema of the registry, and references may lead around in circles.  What
is found under a name is given by `find`.

Null is accepted by a node that is flagged as nullable, but not if the node lists other values: such
a list speaks of all values.

Neither the annotations of a property nor its default take away from what is accepted
(`Accepts.laidOn`, `Accepts.withDefault`), as long as the annotations name no type, list no values,
require no names and do not close a mapping (`Constraints.Undemanding`).
-/

namespace Schemata

/-- Whether a value is of a type, told by the form in which it is published. -/
def JsonType.takes : JsonType → Value → Bool
  | .string, .text _ => true
  | .integer, .int _ => true
  | .number, .int _ => true
  | .number, .float x => x.isFinite
  | .boolean, .bool _ => true
  | .object, .dict _ => true
  | .array, .list _ => true
  | .null, .null => true
  | _, _ => false

/-- A value is listed, unless nothing is. -/
def Keywords.Lists (k : Keywords) (v : Value) : Prop :=
  k.choices = [] ∨ v ∈ k.choices

/-- **A node accepts a value**, where schemas are found by their names. -/
inductive Node.Accepts (find : String → Option Node) : Node → Value → Prop
  | null {n : Node} {k : Keywords} (hk : n.keywords? = some k) (hnullable : k.nullable = true)
      (hlists : k.Lists .null) : Accepts find n .null
  | leaf {k : Keywords} {type : Option JsonType} {v : Value}
      (htype : ∀ t, type = some t → t.takes v = true) (hlists : k.Lists v) :
      Accepts find (.leaf k type) v
  | array {k : Keywords} {items : Node} {xs : List Value} (hlists : k.Lists (.list xs))
      (hitems : ∀ x ∈ xs, Accepts find items x) : Accepts find (.array k items) (.list xs)
  | object {k : Keywords} {ps : List (String × Node)} {additional : Option Node}
      {allowed : Option Bool} {es : List (String × Value)} {v : Value} (hv : v = .ofFields es)
      (hlists : k.Lists v) (hrequired : ∀ r ∈ k.required, r.plain ∈ es.map (·.1))
      (hown : ∀ e ∈ es, ∀ n, getKey? e.1 ps = some n → Accepts find n e.2)
      (hmore : ∀ e ∈ es, getKey? e.1 ps = none → ∀ n, additional = some n → Accepts find n e.2)
      (hallowed : additional = none → allowed = some false →
        ∀ e ∈ es, (getKey? e.1 ps).isSome = true) :
      Accepts find (.object k ps additional allowed) v
  | ref {name : String} {t d : Option Wording} {n : Node} {v : Value} (hfind : find name = some n)
      (h : Accepts find n v) : Accepts find (.ref name t d) v
  | composition {ns : List Node} {t d : Option Wording} {v : Value}
      (h : ∀ n ∈ ns, Accepts find n v) : Accepts find (.composition ns t d) v
  | union {ns : List Node} {t d : Option Wording} {n : Node} {v : Value} (hn : n ∈ ns)
      (h : Accepts find n v) : Accepts find (.union ns t d) v

/-- Constraints that say nothing of the structure of a value, and give no default. -/
structure Constraints.Undemanding (c : Constraints) : Prop where
  type : c.type = none
  choices : c.choices = []
  required : c.required = []
  additionalAllowed : c.additionalAllowed ≠ some false
  default : c.default = none

theorem Constraints.undemanding_empty : Constraints.Undemanding {} :=
  ⟨rfl, rfl, rfl, nofun, rfl⟩

namespace Node.Accepts

variable {find : String → Option Node} {n : Node} {v : Value} {c : Constraints}

/-! ## What is accepted -/

theorem of_leaf {k : Keywords} {t : JsonType} (h : (Node.leaf k (some t)).Accepts find v)
    (hv : v ≠ .null) : t.takes v = true ∧ k.Lists v := by
  cases h with
  | null => exact absurd rfl hv
  | leaf htype hlists => exact ⟨htype t rfl, hlists⟩

theorem of_array {k : Keywords} {items : Node} {xs : List Value}
    (h : (Node.array k items).Accepts find (.list xs)) : ∀ x ∈ xs, items.Accepts find x := by
  cases h with
  | array _ hitems => exact hitems

theorem of_refTo {name : String} (h : (Node.refTo name).Accepts find v) :
    ∃ n, find name = some n ∧ n.Accepts find v := by
  cases h with
  | null hk => cases hk
  | ref hfind h => exact ⟨_, hfind, h⟩

/-! ## Null -/

theorem nullMarker : Node.nullMarker.Accepts find .null :=
  .leaf (by rintro t ⟨⟩; rfl) (.inl rfl)

/-- A node that also accepts null accepts what it accepted before. -/
theorem makeNullable (h : n.Accepts find v) : n.makeNullable.Accepts find v := by
  cases h with
  | @null _ k hk hnullable hlists =>
    cases n with
    | leaf k' t =>
      cases hk
      cases t with
      | none => exact .null rfl hnullable hlists
      | some j => cases j <;> first | exact .null rfl rfl hlists | exact .null rfl hnullable hlists
    | object | array =>
      cases hk
      exact .null rfl rfl hlists
    | ref | composition | union => cases hk
  | @leaf k t _ htype hlists =>
    cases t with
    | none => exact .leaf htype hlists
    | some j => cases j <;> exact .leaf htype hlists
  | array hlists hitems => exact .array hlists hitems
  | object hv hlists hrequired hown hmore hallowed =>
    exact .object hv hlists hrequired hown hmore hallowed
  | ref hfind h => exact .union List.mem_cons_self (.ref hfind h)
  | composition h => exact .union List.mem_cons_self (.composition h)
  | @union ns t d m _ hm h =>
    unfold Node.makeNullable
    dsimp only
    split
    · exact .union hm h
    · exact .union (List.mem_append_left _ hm) h

/-! ## Keywords -/

/-- Keywords that speak of structure in the same way accept the same. -/
theorem mapKeywords (h : n.Accepts find v) {f : Keywords → Keywords}
    (hf : ∀ k, (f k).nullable = k.nullable ∧ (f k).choices = k.choices ∧
      (f k).required = k.required) : (n.mapKeywords f).Accepts find v := by
  have hlists {k : Keywords} {v : Value} (h : k.Lists v) : (f k).Lists v := by
    rw [Keywords.Lists, (hf k).2.1]
    exact h
  cases h with
  | @null _ k hk hnullable hlisted =>
    have hraised : (f k).nullable = true := (hf k).1.trans hnullable
    cases n with
    | leaf | object | array =>
      cases hk
      exact .null rfl hraised (hlists hlisted)
    | ref | composition | union => cases hk
  | leaf htype hlisted => exact .leaf htype (hlists hlisted)
  | array hlisted hitems => exact .array (hlists hlisted) hitems
  | @object k _ _ _ _ _ hv hlisted hrequired hown hmore hallowed =>
    exact .object hv (hlists hlisted) ((hf k).2.2.symm ▸ hrequired) hown hmore hallowed
  | ref hfind h => exact .ref hfind h
  | composition h => exact .composition h
  | union hn h => exact .union hn h

/-- A default takes nothing away. -/
theorem withDefault (h : n.Accepts find v) (w : Option Value) :
    (n.withDefault w).Accepts find v := by
  cases w with
  | none => exact h
  | some w => exact h.mapKeywords fun _ => ⟨rfl, rfl, rfl⟩

/-! ## Constraints -/

/-- Constraints that say nothing of structure take nothing away. -/
theorem apply (h : n.Accepts find v) (hc : c.Undemanding) : (c.apply n).Accepts find v := by
  have hchoices (k : Keywords) : Constraints.upperList c.choices k.choices = k.choices := by
    rw [hc.choices]
    rfl
  have hlists {k : Keywords} {v : Value} (h : k.Lists v) :
      Constraints.upperList c.choices k.choices = [] ∨
        v ∈ Constraints.upperList c.choices k.choices := by
    rw [hchoices k]
    exact h
  have hnullable {k : Keywords} (h : k.nullable = true) (b : Bool) :
      (k.nullable || b) = true := by
    rw [h]
    rfl
  cases h with
  | @null _ k hk hraised hlisted =>
    cases n with
    | leaf | object | array =>
      cases hk
      exact .null rfl (hnullable hraised _) (hlists hlisted)
    | ref | composition | union => cases hk
  | @leaf k t _ htype hlisted =>
    refine .leaf (fun j hj => htype j ?_) (hlists hlisted)
    rwa [hc.type] at hj
  | array hlisted hitems => exact .array (hlists hlisted) hitems
  | @object k ps additional allowed es _ hv hlisted hrequired hown hmore hallowed =>
    unfold Constraints.apply
    dsimp only
    rw [if_neg hc.additionalAllowed]
    have hrequired' : Constraints.appendNames k.required c.required = k.required := by
      rw [hc.required]
      rfl
    refine .object hv (hlists hlisted) (fun r hr => hrequired r (hrequired' ▸ hr)) hown hmore
      fun hnone hclosed => hallowed hnone ?_
    cases hadditional : c.additionalAllowed with
    | none => rwa [hadditional] at hclosed
    | some b =>
      rw [hadditional] at hclosed
      exact absurd (hadditional.trans hclosed) hc.additionalAllowed
  | ref hfind h => exact .ref hfind h
  | composition h => exact .composition h
  | union hn h => exact .union hn h

/-- **A property accepts what holds its type accepts**, if its annotations say nothing of
structure. -/
theorem laidOn (h : n.Accepts find v) (hc : c.Undemanding) : (c.laidOn n).Accepts find v := by
  unfold Constraints.laidOn
  split
  · exact h.makeNullable.apply hc
  · exact h.apply hc

end Node.Accepts

end Schemata
