import Schemata.Proofs.Schema.Mentions

/-!
# Properties inside a schema

A schema shows its own properties, if it is that of an object, and all that its parts show: the
properties of the items of an array, of the branches of a union, of the object that a composition
adds to its base.  A reference shows nothing; what it leads to is another schema of the registry.

What a synthesis does to a node on the way shows no property that was not shown before.  Constraints
and defaults change keywords only, and a node that accepts null is in the worst case inside a union.
There is one place where a property comes from: it is added to the object under construction
(`Shows.of_adding`).
-/

namespace Schemata

open Environment (ObjectParts catchAllValue)

namespace Node

/-- The properties of an object. -/
def own : Node → List (String × Node)
  | .object _ ps _ _ => ps
  | _ => []

/-- **A property is shown in a node**, at any depth. -/
inductive Shows (p : String × Node) : Node → Prop
  | own {n : Node} (hown : p ∈ n.own) : Shows p n
  | inside {n m : Node} (hpart : m ∈ n.parts) (h : Shows p m) : Shows p n

variable {p : String × Node} {n m : Node}

namespace Shows

theorem of_subset (h : n.Shows p) (hown : n.own ⊆ m.own) (hparts : n.parts ⊆ m.parts) :
    m.Shows p := by
  cases h with
  | own h => exact .own (hown h)
  | inside hpart h => exact .inside (hparts hpart) h

theorem not_of_nil (hown : n.own = []) (hparts : n.parts = []) : ¬ n.Shows p := by
  intro h
  cases h with
  | own h =>
    rw [hown] at h
    cases h
  | inside hpart h =>
    rw [hparts] at hpart
    cases hpart

/-- What has no properties of its own shows what its parts show. -/
theorem of_parts (h : n.Shows p) (hown : n.own = []) : ∃ m ∈ n.parts, m.Shows p := by
  cases h with
  | own h =>
    rw [hown] at h
    cases h
  | inside hpart h => exact ⟨_, hpart, h⟩

/-- Constraints show nothing new. -/
theorem of_apply {c : Constraints} (h : (c.apply n).Shows p) : n.Shows p := by
  refine h.of_subset ?_ ?_
  · cases n <;> exact List.Subset.refl _
  · cases n with
    | object k ps additional allowed =>
      refine List.append_subset.mpr ⟨List.subset_append_left _ _, ?_⟩
      show Option.toList (if c.additionalAllowed = some false then none else additional) ⊆ _
      split
      · exact List.nil_subset _
      · exact List.subset_append_right _ _
    | leaf | array | ref | composition | union => exact List.Subset.refl _

/-- Keywords show nothing. -/
theorem of_mapKeywords {f : Keywords → Keywords} (h : (n.mapKeywords f).Shows p) : n.Shows p := by
  refine h.of_subset ?_ ?_ <;> cases n <;> exact List.Subset.refl _

@[simp] theorem not_nullMarker : ¬ nullMarker.Shows p :=
  not_of_nil rfl rfl

/-- Accepting null shows nothing new. -/
theorem of_makeNullable (h : n.makeNullable.Shows p) : n.Shows p := by
  have hpair {m : Node} (h : (union [m, nullMarker] none none).Shows p) : m.Shows p := by
    obtain ⟨_, hpart, hshown⟩ := h.of_parts rfl
    rcases List.mem_cons.mp hpart with rfl | hpart
    · exact hshown
    · rw [List.mem_singleton.mp hpart] at hshown
      exact absurd hshown not_nullMarker
  cases n with
  | leaf k t =>
    refine absurd h (not_of_nil ?_ ?_) <;> cases t with
    | none => rfl
    | some j => cases j <;> rfl
  | object | array => exact h.of_subset (List.Subset.refl _) (List.Subset.refl _)
  | ref | composition => exact hpair h
  | union ns t d =>
    unfold makeNullable at h
    dsimp only at h
    split at h
    · exact h
    · obtain ⟨_, hpart, h⟩ := h.of_parts rfl
      rcases List.mem_append.mp hpart with hpart | hpart
      · exact .inside hpart h
      · rw [List.mem_singleton.mp hpart] at h
        exact absurd h not_nullMarker

/-- Dressing a property shows nothing new. -/
theorem of_dress {env : Environment} {d : Descriptor} {q : Property} {c : Constraints}
    {held node : Node} {w w' : Walk} (h : node.Shows p)
    (hdress : env.dress d q c held w = .ok node w') : held.Shows p := by
  obtain ⟨m, f, hm, rfl⟩ := exists_of_dress hdress
  have hlaid := of_apply (of_mapKeywords h)
  rcases hm with rfl | rfl
  · exact hlaid
  · exact hlaid.of_makeNullable

/-! ## Objects under construction -/

variable {o : ObjectParts} {c : Constraints}

/-- What an object shows: its properties and what they show, and what the schema of further ones
shows. -/
theorem of_toNode (h : o.toNode.Shows p) : p ∈ o.properties ∨ (∃ e ∈ o.properties, e.2.Shows p) ∨
    ∃ a, o.additional = some a ∧ a.Shows p := by
  cases h with
  | own h => exact .inl h
  | inside hpart h =>
    rcases List.mem_append.mp hpart with hpart | hpart
    · obtain ⟨e, he, rfl⟩ := List.mem_map.mp hpart
      exact .inr (.inl ⟨e, he, h⟩)
    · exact .inr (.inr ⟨_, Option.mem_toList.mp hpart, h⟩)

theorem own_toNode (h : p ∈ o.properties) : o.toNode.Shows p :=
  .own h

theorem property_toNode {e : String × Node} (he : e ∈ o.properties) (h : e.2.Shows p) :
    o.toNode.Shows p :=
  .inside (List.mem_append_left _ (List.mem_map_of_mem he)) h

theorem additional_toNode {a : Node} (ha : o.additional = some a) (h : a.Shows p) :
    o.toNode.Shows p :=
  .inside (List.mem_append_right _ (Option.mem_toList.mpr ha)) h

theorem of_catchAllValue {v : Node} (h : v.Shows p) (hv : catchAllValue n = some v) :
    n.Shows p := by
  unfold catchAllValue at hv
  split at hv
  · cases hv
    exact .inside List.mem_cons_self h
  · split at hv
    · cases hv
    · cases hv
      exact h
  · cases hv
    exact h

/-- A property that takes all undeclared ones is not shown itself. -/
theorem of_accepting (h : (o.accepting c n).toNode.Shows p) : o.toNode.Shows p ∨ n.Shows p := by
  rcases of_toNode h with hown | ⟨e, he, h⟩ | ⟨a, ha, h⟩
  · rw [properties_accepting] at hown
    exact .inl (own_toNode hown)
  · rw [properties_accepting] at he
    exact .inl (property_toNode he h)
  · rcases additional_of_accepting ha with ha | ⟨u, hu, rfl⟩
    · exact .inl (additional_toNode ha h)
    · exact .inr (h.of_apply.of_catchAllValue hu)

/-- **A property that is added is shown**, and so is what it shows. -/
theorem of_adding {q : Property} (h : (o.adding q c n).toNode.Shows p) :
    o.toNode.Shows p ∨ p = (q.name, n) ∨ n.Shows p := by
  rcases of_toNode h with hown | ⟨e, he, h⟩ | ⟨a, ha, h⟩
  · rw [properties_adding] at hown
    rcases mem_setKey hown with hown | rfl
    · exact .inl (own_toNode hown)
    · exact .inr (.inl rfl)
  · rw [properties_adding] at he
    rcases mem_setKey he with he | rfl
    · exact .inl (property_toNode he h)
    · exact .inr (.inr h)
  · rw [additional_adding] at ha
    exact .inl (additional_toNode ha h)

theorem of_over {base : Option Node} (h : (o.over base).Shows p) :
    o.toNode.Shows p ∨ ∃ b, base = some b ∧ b.Shows p := by
  cases base with
  | none => exact .inl h
  | some b =>
    obtain ⟨_, hpart, hshown⟩ := h.of_parts rfl
    rcases List.mem_cons.mp hpart with rfl | hpart
    · exact .inr ⟨_, rfl, hshown⟩
    · rw [List.mem_singleton.mp hpart] at hshown
      exact .inl (hshown.of_subset (List.Subset.refl _) (List.Subset.refl _))

/-- An array of what combines a base with an object shows what these show. -/
theorem of_composed {k : Keywords} {t d : Option Wording}
    (h : (c.apply (.array k (.composition [n, m] t d))).Shows p) : n.Shows p ∨ m.Shows p := by
  obtain ⟨_, hpart, h⟩ := h.of_apply.of_parts rfl
  rw [List.mem_singleton.mp hpart] at h
  obtain ⟨_, hpart, hshown⟩ := h.of_parts rfl
  rcases List.mem_cons.mp hpart with rfl | hpart
  · exact .inl hshown
  · exact .inr (List.mem_singleton.mp hpart ▸ hshown)

theorem not_start : ¬ (ObjectParts.ofNode (c.apply .emptyObject)).toNode.Shows p := by
  intro h
  have happly : (c.apply .emptyObject).Shows p := h
  exact not_of_nil rfl rfl happly.of_apply

end Shows

end Node

/-- **The nodes that are put together from others show what these show.** -/
theorem Wraps.shows {env : Environment} {s : Session} {d : Descriptor} {t : Token} {n node : Node}
    {p : String × Node} (h : Wraps env s d t n node) (hp : node.Shows p) : n.Shows p := by
  have hpart {m : Node} (hm : m.Shows p) (hown : m.own = []) (hparts : m.parts = [n]) :
      n.Shows p := by
    obtain ⟨_, hmem, h⟩ := hm.of_parts hown
    rw [hparts] at hmem
    rwa [List.mem_singleton.mp hmem] at h
  cases h with
  | nullable => exact hp.of_makeNullable
  | array | map => exact hpart hp.of_apply rfl rfl
  | renamed =>
    have h := hp.of_apply
    split at h
    · exact hpart h rfl rfl
    · exact h

/-- A type that refers to nothing shows nothing. -/
theorem Plain.not_shows {env : Environment} {s : Session} {d : Descriptor} {n : Node}
    {p : String × Node} (h : Plain env s d n) : ¬ n.Shows p := by
  have hleaf {k : Keywords} {t : Option JsonType} : ¬ (Node.leaf k t).Shows p :=
    Node.Shows.not_of_nil rfl rfl
  cases h with
  | primitive | unknown => exact hleaf
  | named _ _ hnamed =>
    have hrun := hnamed ⟨s, []⟩ (.refl s)
    obtain ⟨bases, _, _, hrun⟩ := bind_eq_ok.mp hrun
    obtain ⟨c, _, _, hrun⟩ := bind_eq_ok.mp hrun
    rw [Kind.schema, Constraints.apply] at hrun
    obtain ⟨rfl, -⟩ := pure_eq_ok.mp hrun
    split
    · intro hp
      obtain ⟨_, hpart, h⟩ := hp.of_parts rfl
      exact hleaf (List.mem_singleton.mp hpart ▸ h)
    · exact hleaf

end Schemata
