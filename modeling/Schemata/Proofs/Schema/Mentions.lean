import Schemata.Proofs.Synthesis.Derivation

/-!
# References inside a schema

`Node.Mentions` says that a reference to a name occurs in a node, at any depth.  Writing
constraints, accepting null and capturing a default bring in no references, and an object has
those of its properties and of what it accepts besides.  So the references of a schema are those
of the nodes that it was put together from.
-/

namespace Schemata

open Environment (ObjectParts catchAllValue)

namespace Node

/-- The nodes directly inside a node. -/
def parts : Node → List Node
  | .object _ ps additional _ => ps.map (·.2) ++ additional.toList
  | .array _ items => [items]
  | .composition ns _ _ => ns
  | .union ns _ _ => ns
  | _ => []

/-- A reference to a name occurs in a node. -/
inductive Mentions (name : String) : Node → Prop
  | here {t d : Option Wording} : Mentions name (.ref name t d)
  | inside {n m : Node} (hpart : m ∈ n.parts) (h : Mentions name m) : Mentions name n

variable {name : String} {n m : Node}

@[simp] theorem mentions_ref {name' : String} {t d : Option Wording} :
    (ref name' t d).Mentions name ↔ name = name' := by
  constructor
  · intro h
    cases h with
    | here => rfl
    | inside hpart _ => cases hpart
  · rintro rfl
    exact .here

@[simp] theorem mentions_refTo {name' : String} : (refTo name').Mentions name ↔ name = name' :=
  mentions_ref

@[simp] theorem not_mentions_leaf {k : Keywords} {t : Option JsonType} :
    ¬ (leaf k t).Mentions name := by
  intro h
  cases h with
  | inside hpart _ => cases hpart

theorem not_mentions_bare {k : Keywords} {allowed : Option Bool} :
    ¬ (object k [] none allowed).Mentions name := by
  intro h
  cases h with
  | inside hpart _ => cases hpart

@[simp] theorem not_mentions_emptyObject : ¬ emptyObject.Mentions name :=
  not_mentions_bare

@[simp] theorem mentions_object {k : Keywords} {ps : List (String × Node)}
    {additional : Option Node} {allowed : Option Bool} :
    (object k ps additional allowed).Mentions name ↔
      (∃ e ∈ ps, e.2.Mentions name) ∨ ∃ a, additional = some a ∧ a.Mentions name := by
  constructor
  · intro h
    cases h with
    | inside hpart h =>
      rcases List.mem_append.mp hpart with hpart | hpart
      · obtain ⟨e, he, rfl⟩ := List.mem_map.mp hpart
        exact .inl ⟨e, he, h⟩
      · exact .inr ⟨_, Option.mem_toList.mp hpart, h⟩
  · rintro (⟨e, he, h⟩ | ⟨a, rfl, h⟩)
    · exact .inside (List.mem_append_left _ (List.mem_map_of_mem he)) h
    · exact .inside (List.mem_append_right _ (Option.mem_toList.mpr rfl)) h

@[simp] theorem mentions_array {k : Keywords} : (array k m).Mentions name ↔ m.Mentions name := by
  constructor
  · intro h
    cases h with
    | inside hpart h => rwa [← List.mem_singleton.mp hpart]
  · exact .inside List.mem_cons_self

@[simp] theorem mentions_composition {ns : List Node} {t d : Option Wording} :
    (composition ns t d).Mentions name ↔ ∃ n ∈ ns, n.Mentions name := by
  constructor
  · intro h
    cases h with
    | inside hpart h => exact ⟨_, hpart, h⟩
  · rintro ⟨n, hn, h⟩
    exact .inside hn h

@[simp] theorem mentions_union {ns : List Node} {t d : Option Wording} :
    (union ns t d).Mentions name ↔ ∃ n ∈ ns, n.Mentions name := by
  constructor
  · intro h
    cases h with
    | inside hpart h => exact ⟨_, hpart, h⟩
  · rintro ⟨n, hn, h⟩
    exact .inside hn h

/-- **Constraints bring in no references.** -/
theorem mentions_of_apply {c : Constraints} (h : (c.apply n).Mentions name) :
    n.Mentions name := by
  cases n with
  | leaf k t => exact absurd h not_mentions_leaf
  | object k ps additional allowed =>
    rcases mentions_object.mp h with h | ⟨a, ha, h⟩
    · exact mentions_object.mpr (.inl h)
    · refine mentions_object.mpr (.inr ⟨a, ?_, h⟩)
      split at ha
      · cases ha
      · exact ha
  | array k items => exact mentions_array.mpr (mentions_array.mp h)
  | ref name' t d => exact mentions_ref.mpr (mentions_ref.mp h)
  | composition ns t d => exact mentions_composition.mpr (mentions_composition.mp h)
  | union ns t d => exact mentions_union.mpr (mentions_union.mp h)

theorem exists_ref_of_apply {c : Constraints} {t d : Option Wording}
    (h : c.apply n = ref name t d) : ∃ t' d', n = ref name t' d' := by
  cases n with
  | ref name' t' d' =>
    cases h
    exact ⟨t', d', rfl⟩
  | leaf | object | array | composition | union => cases h

theorem makeNullable_ne_ref {t d : Option Wording} : n.makeNullable ≠ ref name t d := by
  cases n with
  | leaf k t =>
    cases t with
    | none => exact nofun
    | some j => cases j <;> exact nofun
  | union ns t' d' =>
    show (if ns.any isNull then union ns t' d' else union (ns ++ [nullMarker]) t' d') ≠ _
    split <;> exact nofun
  | ref | object | array | composition => exact nofun

theorem mentions_of_mapKeywords {f : Keywords → Keywords} (h : (n.mapKeywords f).Mentions name) :
    n.Mentions name := by
  cases n with
  | leaf k t => exact absurd h not_mentions_leaf
  | object k ps additional allowed => exact mentions_object.mpr (mentions_object.mp h)
  | array k items => exact mentions_array.mpr (mentions_array.mp h)
  | ref | composition | union => exact h

/-- Accepting null brings in no references. -/
theorem mentions_of_makeNullable (h : n.makeNullable.Mentions name) : n.Mentions name := by
  have hpair : ∀ {m : Node}, (union [m, nullMarker] none none).Mentions name →
      m.Mentions name := by
    intro m h
    obtain ⟨x, hx, hmx⟩ := mentions_union.mp h
    rcases List.mem_cons.mp hx with rfl | hx
    · exact hmx
    · rw [List.mem_singleton.mp hx] at hmx
      exact absurd hmx not_mentions_leaf
  cases n with
  | leaf k t =>
    cases t with
    | none => exact absurd h not_mentions_leaf
    | some j => cases j <;> exact absurd h not_mentions_leaf
  | object k ps additional allowed => exact mentions_object.mpr (mentions_object.mp h)
  | array k items => exact mentions_array.mpr (mentions_array.mp h)
  | ref name' t d => exact hpair h
  | composition ns t d => exact hpair h
  | union ns t d =>
    unfold makeNullable at h
    dsimp only at h
    split at h
    · exact h
    · obtain ⟨x, hx, hmx⟩ := mentions_union.mp h
      rcases List.mem_append.mp hx with hx | hx
      · exact mentions_union.mpr ⟨x, hx, hmx⟩
      · rw [List.mem_singleton.mp hx] at hmx
        exact absurd hmx not_mentions_leaf

end Node

/-! ## Objects under construction -/

/-- A value set under a key, or one that was there. -/
theorem mem_setKey {κ α : Type} [BEq κ] [LawfulBEq κ] {k : κ} {v : α} {m : List (κ × α)}
    {e : κ × α} (h : e ∈ setKey k v m) : e ∈ m ∨ e = (k, v) := by
  induction m with
  | nil => exact .inr (List.mem_singleton.mp h)
  | cons e' m ih =>
    unfold setKey at h
    split at h
    next hkey =>
      rcases List.mem_cons.mp h with rfl | h
      · exact .inr (by rw [beq_iff_eq.mp hkey])
      · exact .inl (List.mem_cons_of_mem _ h)
    · rcases List.mem_cons.mp h with rfl | h
      · exact .inl List.mem_cons_self
      · rcases ih h with h | h
        · exact .inl (List.mem_cons_of_mem _ h)
        · exact .inr h

section Objects

variable {name : String} {o : ObjectParts} {c : Constraints} {n : Node}

@[simp] theorem properties_accepting : (o.accepting c n).properties = o.properties := by
  unfold ObjectParts.accepting
  split <;> rfl

/-- What an object accepts besides, once a property takes all undeclared ones. -/
theorem additional_of_accepting {v : Node} (h : (o.accepting c n).additional = some v) :
    o.additional = some v ∨ ∃ u, catchAllValue n = some u ∧ v = c.apply u := by
  unfold ObjectParts.accepting at h
  split at h
  · exact .inl h
  next u hu =>
    cases h
    exact .inr ⟨u, hu, rfl⟩

@[simp] theorem properties_adding {q : Property} :
    (o.adding q c n).properties = setKey q.name n o.properties := by
  unfold ObjectParts.adding
  dsimp only
  split <;> rfl

@[simp] theorem additional_adding {q : Property} :
    (o.adding q c n).additional = o.additional := by
  unfold ObjectParts.adding
  dsimp only
  split <;> rfl

theorem mentions_of_catchAllValue {v : Node} (hv : catchAllValue n = some v)
    (h : v.Mentions name) : n.Mentions name := by
  unfold catchAllValue at hv
  split at hv
  · cases hv
    exact Node.mentions_object.mpr (.inr ⟨v, rfl, h⟩)
  · split at hv
    · cases hv
    · cases hv
      exact h
  · cases hv
    exact h

theorem mentions_of_accepting (h : (o.accepting c n).toNode.Mentions name) :
    o.toNode.Mentions name ∨ n.Mentions name := by
  rcases Node.mentions_object.mp h with ⟨e, he, hmentions⟩ | ⟨a, ha, hmentions⟩
  · rw [properties_accepting] at he
    exact .inl (Node.mentions_object.mpr (.inl ⟨e, he, hmentions⟩))
  · rcases additional_of_accepting ha with ha | ⟨u, hu, rfl⟩
    · exact .inl (Node.mentions_object.mpr (.inr ⟨a, ha, hmentions⟩))
    · exact .inr (mentions_of_catchAllValue hu (Node.mentions_of_apply hmentions))

theorem mentions_of_adding {q : Property} (h : (o.adding q c n).toNode.Mentions name) :
    o.toNode.Mentions name ∨ n.Mentions name := by
  rcases Node.mentions_object.mp h with ⟨e, he, hmentions⟩ | ⟨a, ha, hmentions⟩
  · rw [properties_adding] at he
    rcases mem_setKey he with he | rfl
    · exact .inl (Node.mentions_object.mpr (.inl ⟨e, he, hmentions⟩))
    · exact .inr hmentions
  · rw [additional_adding] at ha
    exact .inl (Node.mentions_object.mpr (.inr ⟨a, ha, hmentions⟩))

theorem mentions_of_over {base : Option Node} (h : (o.over base).Mentions name) :
    o.toNode.Mentions name ∨ ∃ b, base = some b ∧ b.Mentions name := by
  cases base with
  | none => exact .inl h
  | some b =>
    obtain ⟨x, hx, hmentions⟩ := Node.mentions_composition.mp h
    rcases List.mem_cons.mp hx with rfl | hx
    · exact .inr ⟨_, rfl, hmentions⟩
    · rw [List.mem_singleton.mp hx] at hmentions
      exact .inl (Node.mentions_object.mpr (Node.mentions_object.mp hmentions))

theorem not_mentions_start :
    ¬ (ObjectParts.ofNode (c.apply .emptyObject)).toNode.Mentions name := by
  intro h
  have happly : (c.apply .emptyObject).Mentions name := h
  exact Node.not_mentions_emptyObject (Node.mentions_of_apply happly)

end Objects

/-! ## Properties -/

/-- **How a node is dressed for a property**: it may be made to accept null, annotations are laid
on it, and its keywords may change. -/
theorem exists_of_dress {env : Environment} {d : Descriptor} {q : Property} {c : Constraints}
    {held node : Node} {w w' : Walk} (h : env.dress d q c held w = .ok node w') :
    ∃ m f, (m = held ∨ m = held.makeNullable) ∧ node = (c.apply m).mapKeywords f := by
  have hid (n : Node) : n = n.mapKeywords id := by
    cases n <;> rfl
  unfold Environment.dress at h
  refine ⟨if c.nullable && !held.isConcrete then held.makeNullable else held, ?_⟩
  rw [exists_and_left]
  refine ⟨(ite_eq_or_eq _ _ _).symm, ?_⟩
  generalize c.apply _ = laid at h ⊢
  cases hk : laid.keywords? with
  | none =>
    rw [hk] at h
    obtain ⟨rfl, -⟩ := pure_eq_ok.mp h
    exact ⟨id, hid node⟩
  | some k =>
    rw [hk] at h
    dsimp only at h
    split at h
    · obtain ⟨v, w₁, -, hend⟩ := bind_eq_ok.mp h
      cases v with
      | none =>
        obtain ⟨rfl, -⟩ := pure_eq_ok.mp hend
        exact ⟨id, hid node⟩
      | some v =>
        obtain ⟨rfl, -⟩ := pure_eq_ok.mp hend
        exact ⟨_, rfl⟩
    · obtain ⟨rfl, -⟩ := pure_eq_ok.mp h
      exact ⟨id, hid node⟩

/-- A property brings in no references but those of what holds its type. -/
theorem mentions_of_dress {env : Environment} {d : Descriptor} {q : Property} {c : Constraints}
    {held node : Node} {w w' : Walk} {name : String} (h : env.dress d q c held w = .ok node w')
    (hname : node.Mentions name) : held.Mentions name := by
  obtain ⟨m, f, hm, rfl⟩ := exists_of_dress h
  have hlaid := Node.mentions_of_apply (Node.mentions_of_mapKeywords hname)
  rcases hm with rfl | rfl
  · exact hlaid
  · exact Node.mentions_of_makeNullable hlaid

end Schemata
