import Schemata.Proofs.Registry.Growth
import Schemata.Proofs.Synthesis.Knowledge

/-!
# Growth of a session

Whatever the synthesis of a schema does, and however it ends, the session has only grown: the
registry has new entries at its end, under names that were free; there are new claims behind the
old ones, on names that were not claimed; what has been read is still known, and so are the
instances that defaults have been read from; and the count of types inside one another is what it
was.  `Session.Grows` collects this.  A new entry stands under a name that has been claimed, since a
name is claimed before anything is stored under it.

Nothing is said here about the types being visited.  A computation that fails leaves some of
them behind, but they are forgotten with the call.

The lemmas follow the functions of the synthesis.  `builder` is what types inside others are
built with; the last lemma, `keeps_build`, closes the recursion.
-/

namespace Schemata

/-- A type that wraps another. -/
def Shape.isWrapper : Shape → Bool
  | .nullable | .array | .map => true
  | _ => false

/-- The names that are claimed. -/
def Session.claimed (s : Session) : List String :=
  s.claims.map Prod.fst

/-- A session has grown into another. -/
structure Session.Grows (env : Environment) (s s' : Session) : Prop where
  below : s.Below s'
  wellRead : s.WellRead env → s'.WellRead env
  depth : s'.depth = s.depth
  registry : ∃ new, s.registry.Grown new s'.registry
  claims : ∃ new, s'.claims = s.claims ++ new ∧ ∀ c ∈ new, c.1 ∉ s.claimed
  /-- New entries stand under claimed names. -/
  owned : ∀ name ∈ s'.registry.names, name ∈ s.registry.names ∨ name ∈ s'.claimed
  instances : s.instances <+: s'.instances

namespace Session.Grows

variable {env : Environment} {s s₁ s₂ : Session}

theorem claimed_subset (h : s.Grows env s₁) : s.claimed ⊆ s₁.claimed := by
  obtain ⟨new, hnew, _⟩ := h.claims
  rw [claimed, claimed, hnew, List.map_append]
  exact List.subset_append_left _ _

theorem claims_prefix (h : s.Grows env s₁) : s.claims <+: s₁.claims := by
  obtain ⟨new, hnew, -⟩ := h.claims
  exact ⟨new, hnew.symm⟩

theorem names_subset (h : s.Grows env s₁) : s.registry.names ⊆ s₁.registry.names := by
  obtain ⟨_, hnew⟩ := h.registry
  exact hnew.names_subset

theorem refl (s : Session) : s.Grows env s where
  below := .refl _
  wellRead := id
  depth := rfl
  registry := ⟨[], .refl _⟩
  claims := ⟨[], (List.append_nil _).symm, nofun⟩
  owned _ h := .inl h
  instances := List.prefix_refl _

theorem trans (h₁ : s.Grows env s₁) (h₂ : s₁.Grows env s₂) : s.Grows env s₂ where
  below := h₁.below.trans h₂.below
  wellRead := h₂.wellRead ∘ h₁.wellRead
  depth := h₂.depth.trans h₁.depth
  registry := by
    obtain ⟨new₁, hnew₁⟩ := h₁.registry
    obtain ⟨new₂, hnew₂⟩ := h₂.registry
    exact ⟨_, hnew₁.trans hnew₂⟩
  claims := by
    obtain ⟨new₁, hnew₁, hfree₁⟩ := h₁.claims
    obtain ⟨new₂, hnew₂, hfree₂⟩ := h₂.claims
    refine ⟨new₁ ++ new₂, by rw [hnew₂, hnew₁, List.append_assoc], ?_⟩
    intro c hc
    rcases List.mem_append.mp hc with hc | hc
    · exact hfree₁ c hc
    · exact fun hm => hfree₂ c hc (h₁.claimed_subset hm)
  owned := by
    intro name hname
    rcases h₂.owned name hname with h | h
    · rcases h₁.owned name h with h | h
      · exact .inl h
      · exact .inr (h₂.claimed_subset h)
    · exact .inr h
  instances := List.IsPrefix.trans h₁.instances h₂.instances

end Session.Grows

/-- Learning alone is growth. -/
theorem Session.Learns.grows {env : Environment} {s s' : Session} (h : s.Learns env s') :
    s.Grows env s' where
  below := h.below
  wellRead := h.wellRead
  depth := h.depth
  registry := ⟨[], h.registry ▸ .refl _⟩
  claims := ⟨[], h.claims.trans (List.append_nil _).symm, nofun⟩
  owned _ hname := .inl (h.registry ▸ hname)
  instances := h.instances

/-- The session of a walk has grown. -/
def Walk.Grows (env : Environment) (w w' : Walk) : Prop :=
  w.session.Grows env w'.session

instance {env : Environment} : IsPreorder Walk (Walk.Grows env) where
  refl w := Session.Grows.refl w.session
  trans _ _ _ := Session.Grows.trans

namespace Build

variable {env : Environment} {α : Type}

theorem keeps_grows {x : Build α} (hx : Keeps (Walk.Learns env) x) : Keeps (Walk.Grows env) x :=
  fun w => (hx w).session.grows

theorem Reads.grows {x : Build α} (hx : Reads env x) : Keeps (Walk.Grows env) x :=
  keeps_grows hx.learns

theorem keeps_visit (k : Key) : Keeps (Walk.Grows env) (visit k) :=
  fun w => Session.Grows.refl w.session

theorem keeps_whileVisiting {k : Key} {body : Build α} (h : Keeps (Walk.Grows env) body) :
    Keeps (Walk.Grows env) (whileVisiting k body) := by
  intro w
  have hbody := h { w with visited := k :: w.visited }
  unfold after whileVisiting at *
  cases hb : body { w with visited := k :: w.visited } with
  | ok a w' =>
    rw [hb] at hbody
    exact hbody
  | error e w' =>
    rw [hb] at hbody
    exact hbody

end Build

namespace Environment

open Build

variable {env : Environment}

/-! ## Claims -/

/-- A name is claimed for a type by another one, or by nobody yet. -/
theorem claim_eq_ok {name : String} {d : Descriptor} {u : Unit} {w w' : Walk} :
    env.claim name d w = .ok u w' ↔
      (∃ owner, getKey? name w.session.claims = some owner ∧ owner.same d.key = true ∧ w' = w) ∨
      (getKey? name w.session.claims = none ∧ w' = { w with session :=
        { w.session with claims := w.session.claims ++ [(name, d.key)] } }) := by
  unfold claim
  rw [bind_of_ok (asks_eq_ok.mpr ⟨rfl, rfl⟩)]
  cases getKey? name w.session.claims with
  | none =>
    constructor
    · rintro ⟨⟩
      exact .inr ⟨rfl, rfl⟩
    · rintro (⟨_, ⟨⟩, _⟩ | ⟨_, rfl⟩)
      rfl
  | some owner =>
    show (if owner.same d.key then pure () else throw _ : Build Unit) w = _ ↔ _
    by_cases h : owner.same d.key = true
    · rw [if_pos h, pure_eq_ok]
      constructor
      · rintro ⟨_, rfl⟩
        exact .inl ⟨owner, rfl, h, rfl⟩
      · rintro (⟨_, _, _, rfl⟩ | ⟨⟨⟩, _⟩)
        exact ⟨rfl, rfl⟩
    · rw [if_neg h, throw_eq_ok, false_iff]
      rintro (⟨_, ⟨⟩, h', _⟩ | ⟨⟨⟩, _⟩)
      exact h h'

/-- A name that is claimed for another type is refused. -/
theorem claim_of_other {name : String} {d : Descriptor} {owner : Key} {w : Walk}
    (howner : getKey? name w.session.claims = some owner) (hother : ¬ owner.same d.key = true) :
    env.claim name d w = .error (.duplicateName name (env.program.ownerText owner)
      (env.program.qualifiedName d)) w := by
  unfold claim
  rw [bind_of_ok (asks_eq_ok.mpr ⟨rfl, rfl⟩), howner]
  exact congrFun (if_neg hother) w

/-- Once a claim has succeeded, the name is claimed. -/
theorem mem_claimed_of_claim {name : String} {d : Descriptor} {u : Unit} {w w' : Walk}
    (h : env.claim name d w = .ok u w') : name ∈ w'.session.claimed := by
  rcases claim_eq_ok.mp h with ⟨owner, howner, _, rfl⟩ | ⟨_, rfl⟩
  · exact List.mem_map_of_mem (f := Prod.fst) (mem_of_getKey? howner)
  · rw [Session.claimed, List.map_append]
    exact List.mem_append_right _ (List.mem_singleton.mpr rfl)

theorem keeps_claim (name : String) (d : Descriptor) :
    Keeps (Walk.Grows env) (env.claim name d) := by
  refine Keeps.of_outcomes ?_ ?_
  · intro w u w' h
    rcases claim_eq_ok.mp h with ⟨_, _, _, rfl⟩ | ⟨hfree, rfl⟩
    · exact .refl _
    · refine ⟨.refl _, id, rfl, ⟨[], .refl _⟩, ⟨_, rfl, ?_⟩, fun _ h => .inl h,
        List.prefix_refl _⟩
      intro c hc
      rw [List.mem_singleton.mp hc]
      exact getKey?_eq_none_iff.mp hfree
  · intro w e w' h
    unfold claim at h
    rw [bind_of_ok (asks_eq_ok.mpr ⟨rfl, rfl⟩)] at h
    cases hk : getKey? name w.session.claims with
    | none =>
      rw [hk] at h
      cases h
    | some owner =>
      rw [hk] at h
      change (if owner.same d.key then pure () else throw _ : Build Unit) w = _ at h
      split at h
      · cases h
      · cases h
        exact .refl _

/-! ## Storing -/

/-- Storing under a claimed name is growth. -/
theorem grows_putting {name : String} {node : Node} {w : Walk}
    (h : name ∈ w.session.claimed) :
    Walk.Grows env w (after (Registry.putting name node : Build Node) w) := by
  obtain ⟨new, hgrown, hnew⟩ := Registry.grown_put w.session.registry name node
  refine ⟨.refl _, id, rfl, ⟨new, hgrown⟩, ⟨[], (List.append_nil _).symm, nofun⟩, ?_,
    List.prefix_refl _⟩
  intro n hn
  rw [show (after (Registry.putting name node : Build Node) w).session.registry =
    (w.session.registry.put name node).2 from rfl, hgrown.names, List.mem_append] at hn
  rcases hn with hn | hn
  · exact .inl hn
  · obtain ⟨e, he, rfl⟩ := List.mem_map.mp hn
    rw [hnew e he]
    exact .inr h

/-! ## The functions of the synthesis -/

section Builder

variable {builder : Descriptor → Build Built} (hb : ∀ d, Keeps (Walk.Grows env) (builder d))
include hb

/-- Once it is known whether a type is published in place, the session only grows. -/
theorem grows_after_isInline {d : Descriptor} {w w₁ : Walk} {inline : Bool}
    (h : env.isInline d w = .ok inline w₁) : w₁.Grows env (after (env.refer builder d) w) := by
  unfold refer after
  rw [bind_of_ok h]
  refine Keeps.ite (x := do return (← builder d).node) ?_ ?_ w₁
  · exact (hb d).bind fun _ => Keeps.pure _
  refine (keeps_grows (learns_asks _)).bind fun _ => Keeps.ite ?_ ?_
  · exact (keeps_claim _ d).bind fun _ => Keeps.pure _
  refine (keeps_grows (learns_isAwaited d)).bind fun _ => Keeps.ite (Keeps.pure _) ?_
  exact (hb d).bind fun _ => Keeps.pure _

theorem keeps_refer (d : Descriptor) : Keeps (Walk.Grows env) (env.refer builder d) := by
  intro w
  have hasked : w.Grows env (after (env.isInline d) w) := (reads_isInline d).grows w
  cases h : env.isInline d w with
  | ok inline w₁ =>
    rw [after_of_ok h] at hasked
    exact hasked.trans (grows_after_isInline hb h)
  | error e w₁ =>
    rw [after_of_error h] at hasked
    have hfails : env.refer builder d w = .error e w₁ := bind_eq_error.mpr (.inl h)
    rwa [after_of_error hfails]

theorem keeps_referTo (t : Token) : Keeps (Walk.Grows env) (env.referTo builder t) :=
  (reads_describe t).grows.bind fun d => keeps_refer hb d

theorem keeps_addProperty (d : Descriptor) (o : ObjectParts) (q : Property) :
    Keeps (Walk.Grows env) (env.addProperty builder d o q) := by
  unfold addProperty propertyNode
  refine (keeps_grows (learns_lift _)).bind fun c => Keeps.ite ?_ ?_
  · exact (keeps_referTo hb _).bind fun _ => Keeps.pure _
  · refine Keeps.bind ?_ fun _ => Keeps.pure _
    exact (keeps_referTo hb _).bind fun held => keeps_grows (learns_dress d q c held)

theorem keeps_addProperties (d : Descriptor) (o : ObjectParts) (qs : List Property) :
    Keeps (Walk.Grows env) (env.addProperties builder d o qs) := by
  induction qs generalizing o with
  | nil => exact Keeps.pure _
  | cons q qs ih => exact (keeps_addProperty hb d o q).bind fun o => ih o

theorem keeps_populate (d : Descriptor) (o : ObjectParts) :
    Keeps (Walk.Grows env) (env.populate builder d o) :=
  (keeps_addProperties hb d o _).bind fun _ =>
    (reads_checkRequired d _).grows.bind fun _ => Keeps.pure _

theorem keeps_composedArray (d : Descriptor) (c : Constraints) (base : Node) :
    Keeps (Walk.Grows env) (env.composedArray builder d c base) := by
  unfold composedArray
  refine Keeps.ite (Keeps.throw _) ?_
  exact (keeps_whileVisiting (keeps_populate hb d _)).bind fun _ => Keeps.pure _

theorem keeps_inherit (d : Descriptor) (base : Token) :
    Keeps (Walk.Grows env) (env.inherit builder d base) := by
  unfold inherit
  refine (reads_primitiveKind d).grows.bind fun kind => ?_
  cases kind with
  | some kind => exact (reads_namedLeaf d kind).grows.bind fun _ => Keeps.pure _
  | none =>
    refine (keeps_grows (learns_lift _)).bind fun c => (keeps_referTo hb base).bind fun node => ?_
    refine Keeps.ite (Keeps.pure _) (Keeps.ite ?_ (Keeps.pure _))
    exact (keeps_composedArray hb d c node).bind fun _ => Keeps.pure _

theorem keeps_mapTo (value : Descriptor) : Keeps (Walk.Grows env) (env.mapTo builder value) :=
  Keeps.ite (Keeps.pure _) ((keeps_refer hb value).bind fun _ => Keeps.pure _)

theorem keeps_mapNode (d : Descriptor) : Keeps (Walk.Grows env) (env.mapNode builder d) :=
  (reads_describe _).grows.bind fun value =>
    (keeps_mapTo hb value).bind fun node => keeps_grows (learns_annotate _ node)

theorem keeps_ownNode (d : Descriptor) (base : Option Node) :
    Keeps (Walk.Grows env) (env.ownNode builder d base) := by
  unfold ownNode ownObject
  refine Keeps.ite (keeps_grows (learns_annotate _ _)) ?_
  exact (keeps_grows (learns_lift _)).bind fun c => (keeps_populate hb d _).bind fun o =>
    Keeps.pure _

/-- A type is stored under a name that has been claimed just before. -/
theorem keeps_storeNode (d : Descriptor) (base : Option Node) :
    Keeps (Walk.Grows env) (env.storeNode builder d base) := by
  unfold storeNode
  refine (keeps_grows (learns_isVisited _)).bind fun _ => Keeps.ite (Keeps.pure _) ?_
  refine (keeps_visit _).bind fun _ => ?_
  intro w
  refine Keeps.after_bind (keeps_claim _ d w) fun {_ w₁} hclaim => ?_
  have hname := mem_claimed_of_claim hclaim
  refine Keeps.after_bind (keeps_grows (learns_asks _) w₁) fun {found w₂} hfound => ?_
  obtain ⟨_, rfl⟩ := stored?_eq_ok.mp hfound
  cases found with
  | some n => exact Session.Grows.refl _
  | none =>
    refine Keeps.after_bind (keeps_ownNode hb d base w₂) fun {node w₃} hnode => ?_
    have hgrows : Walk.Grows env w₂ w₃ := (keeps_ownNode hb d base).ok hnode
    exact Keeps.after_bind (grows_putting (hgrows.claimed_subset hname)) fun _ =>
      Session.Grows.refl _

theorem keeps_namedNode (d : Descriptor) :
    Keeps (Walk.Grows env) (env.namedNode builder d) := by
  unfold namedNode
  cases d.base with
  | none => exact keeps_storeNode hb d none
  | some base =>
    refine (keeps_grows (learns_isArrayVisited d)).bind fun _ => Keeps.ite (Keeps.pure _) ?_
    refine (keeps_inherit hb d base).bind fun inherited => ?_
    cases inherited with
    | whole node => exact Keeps.pure _
    | base node => exact keeps_storeNode hb d (some node)

theorem keeps_buildShape (d : Descriptor) :
    Keeps (Walk.Grows env) (env.buildShape builder d) := by
  unfold buildShape
  cases d.shape with
  | nullable => exact (keeps_referTo hb _).bind fun _ => Keeps.pure _
  | primitive => exact (keeps_grows (learns_annotate _ _)).bind fun _ => Keeps.pure _
  | unknown => exact (keeps_grows (learns_annotate _ _)).bind fun _ => Keeps.pure _
  | array =>
    exact (keeps_referTo hb _).bind fun _ =>
      (keeps_grows (learns_annotate _ _)).bind fun _ => Keeps.pure _
  | map => exact (keeps_mapNode hb d).bind fun _ => Keeps.pure _
  | enum => exact keeps_namedNode hb d
  | object => exact keeps_namedNode hb d

end Builder

/-! ## Depth -/

variable (env) in
/-- Where the building of a type that is counted ends: it has not started if it would be too
deep. -/
theorem after_deepening {α : Type} (d : Descriptor) (body : Build α) (w : Walk) :
    ∃ w₁, (w₁ = w.atDepth (w.session.depth + 1) ∨
        w₁ = after body (w.atDepth (w.session.depth + 1))) ∧
      after (env.deepening d body) w = w₁.atDepth (w₁.session.depth - 1) := by
  unfold after deepening
  by_cases h : env.maxDepth < (w.atDepth (w.session.depth + 1)).session.depth
  · exact ⟨_, .inl rfl, by simp only [if_pos h]⟩
  · refine ⟨_, .inr rfl, ?_⟩
    simp only [if_neg h]
    cases body (w.atDepth (w.session.depth + 1)) <;> rfl

theorem deepening_eq_ok {α : Type} {d : Descriptor} {body : Build α} {a : α} {w w' : Walk} :
    env.deepening d body w = .ok a w' ↔ ¬ env.maxDepth < w.session.depth + 1 ∧
      ∃ w₁, body (w.atDepth (w.session.depth + 1)) = .ok a w₁ ∧
        w' = w₁.atDepth (w₁.session.depth - 1) := by
  unfold deepening
  by_cases h : env.maxDepth < (w.atDepth (w.session.depth + 1)).session.depth
  · simp only [if_pos h]
    exact ⟨nofun, fun hw => absurd h hw.1⟩
  · simp only [if_neg h]
    cases body (w.atDepth (w.session.depth + 1)) with
    | ok b w₁ =>
      constructor
      · rintro ⟨⟩
        exact ⟨h, w₁, rfl, rfl⟩
      · rintro ⟨_, _, ⟨⟩, rfl⟩
        rfl
    | error e w₁ => exact ⟨nofun, by rintro ⟨_, _, ⟨⟩, _⟩⟩

/-- The count is lowered by as much as it was raised, however the type's own building ends. -/
theorem keeps_deepening {α : Type} {d : Descriptor} {body : Build α}
    (h : Keeps (Walk.Grows env) body) : Keeps (Walk.Grows env) (env.deepening d body) := by
  intro w
  obtain ⟨w₁, hw₁, heq⟩ := after_deepening env d body w
  have hg : Walk.Grows env (w.atDepth (w.session.depth + 1)) w₁ := by
    rcases hw₁ with rfl | rfl
    · exact Session.Grows.refl _
    · exact h _
  rw [heq]
  refine ⟨hg.below, hg.wellRead, ?_, hg.registry, hg.claims, hg.owned, hg.instances⟩
  show w₁.session.depth - 1 = w.session.depth
  rw [hg.depth]
  rfl

/-- **Building a type only makes the session grow.** -/
theorem keeps_build (n : Nat) (d : Descriptor) : Keeps (Walk.Grows env) (env.build n d) := by
  induction n generalizing d with
  | zero => exact Keeps.throw _
  | succ n ih => exact keeps_deepening (keeps_buildShape ih d)

theorem keeps_referRoot (d : Descriptor) : Keeps (Walk.Grows env) (env.referRoot d) :=
  keeps_refer (keeps_build _) d

/-! ## Leaves

A type that is published in place and wraps no other is a leaf.  Building one stores nothing
and claims nothing. -/

theorem isInline_eq_ok {d : Descriptor} {b : Bool} {w w' : Walk} :
    env.isInline d w = .ok b w' ↔
      (d.shape.isInline = true ∧ b = true ∧ w' = w) ∨
      (d.shape.isInline = false ∧ ∃ kind, env.primitiveKind d w = .ok kind w' ∧
        b = kind.isSome) := by
  unfold isInline
  cases h : d.shape.isInline with
  | true =>
    rw [if_pos rfl, pure_eq_ok]
    exact ⟨fun hb => .inl ⟨rfl, hb⟩, by rintro (⟨_, hb⟩ | ⟨⟨⟩, _⟩); exact hb⟩
  | false =>
    rw [if_neg Bool.false_ne_true, bind_eq_ok]
    constructor
    · rintro ⟨kind, w₁, hkind, hb⟩
      obtain ⟨rfl, rfl⟩ := pure_eq_ok.mp hb
      exact .inr ⟨rfl, kind, hkind, rfl⟩
    · rintro (⟨⟨⟩, _⟩ | ⟨_, kind, hkind, rfl⟩)
      exact ⟨kind, w', hkind, rfl⟩

/-- A type published in place that is of no such shape has bases that end at a leaf. -/
theorem exists_settles_primitiveKind {s : Session} {d : Descriptor}
    (hd : s.Settles (env.isInline d) true) (hshape : d.shape.isInline = false) :
    ∃ kind, s.Settles (env.primitiveKind d) (some kind) := by
  rcases isInline_eq_ok.mp (hd ⟨s, []⟩ (.refl s)) with ⟨h, _⟩ | ⟨_, kind, hkind, hsome⟩
  · rw [hshape] at h
    cases h
  · obtain ⟨k, rfl⟩ := Option.isSome_iff_exists.mp hsome.symm
    exact ⟨k, (reads_primitiveKind d).settles hkind⟩

section Leaf

variable {builder : Descriptor → Build Built} {d : Descriptor} {kind : Kind} {w : Walk}

/-- A type whose bases end at a leaf becomes that leaf. -/
theorem inherit_of_primitiveKind (base : Token) (h : env.primitiveKind d w = .ok (some kind) w) :
    env.inherit builder d base w = (do return .whole (← env.namedLeaf d kind) : Build _) w :=
  bind_of_ok h

/-- A type whose bases end at a leaf has a base. -/
theorem exists_base_of_primitiveKind {w' : Walk} (h : env.primitiveKind d w = .ok (some kind) w') :
    ∃ base, d.base = some base := by
  unfold primitiveKind at h
  cases hbase : d.base with
  | none =>
    rw [hbase] at h
    cases h
  | some base => exact ⟨base, rfl⟩

theorem learns_namedNode (h : w.session.Settles (env.primitiveKind d) (some kind)) :
    w.Learns env (after (env.namedNode builder d) w) := by
  obtain ⟨base, hbase⟩ := exists_base_of_primitiveKind (h w (.refl _))
  unfold namedNode
  rw [hbase]
  refine Keeps.after_bind (learns_isArrayVisited d w) fun {visited w₁} hvisited => ?_
  split
  · exact .refl _
  have heq : env.inherit builder d base w₁ = _ :=
    inherit_of_primitiveKind base (h w₁ ((learns_isArrayVisited d).ok hvisited).below)
  refine Keeps.after_bind ?_ fun {what w₂} hwhat => ?_
  · unfold after
    rw [heq]
    exact ((reads_namedLeaf d kind).learns.bind fun _ => Keeps.pure _) w₁
  · obtain ⟨leaf, _, _, hwhole⟩ := bind_eq_ok.mp (heq ▸ hwhat)
    obtain ⟨rfl, rfl⟩ := pure_eq_ok.mp hwhole
    exact .refl _

/-- **Building a leaf stores nothing.** -/
theorem learns_build (n : Nat) (hwrapper : d.shape.isWrapper = false)
    (hd : w.session.Settles (env.isInline d) true) : w.Learns env (after (env.build n d) w) := by
  cases n with
  | zero => exact .refl w
  | succ n =>
    obtain ⟨w₁, hw₁, heq⟩ := after_deepening env d (env.buildShape (env.build n) d) w
    have hlearns : (w.atDepth (w.session.depth + 1)).Learns env w₁ := by
      rcases hw₁ with rfl | rfl
      · exact .refl _
      have hnamed (hshape : d.shape.isInline = false) : (w.atDepth (w.session.depth + 1)).Learns
          env (after (env.namedNode (env.build n) d) (w.atDepth (w.session.depth + 1))) := by
        obtain ⟨kind, hkind⟩ := exists_settles_primitiveKind hd hshape
        exact learns_namedNode hkind
      unfold buildShape
      cases hshape : d.shape with
      | nullable | array | map =>
        rw [hshape] at hwrapper
        cases hwrapper
      | primitive | unknown =>
        refine Keeps.after_bind ?_ fun _ => .refl _
        exact Keeps.bind (Keeps.of_still (after_lift _)) (fun _ => Keeps.pure _) _
      | enum | object => exact hnamed (by rw [hshape]; rfl)
    rw [show after (env.build (n + 1) d) w = _ from heq]
    refine ⟨⟨hlearns.below, hlearns.session.registry, hlearns.session.claims, ?_,
      hlearns.session.wellRead, hlearns.session.instances⟩, hlearns.visited⟩
    show w₁.session.depth - 1 = w.session.depth
    rw [hlearns.session.depth]
    rfl

end Leaf

end Environment

end Schemata
