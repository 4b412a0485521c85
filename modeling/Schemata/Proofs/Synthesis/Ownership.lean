import Schemata.Proofs.Synthesis.Additions

/-!
# Whom claims and visits belong to

A scene holds names and keys, and no types.  `Scene.Owned env s E σ` says that they are names and
keys of types in a set `E`: claims belong to types that are published by name, and so do visits,
unless they belong to types that are composed in place.  Where distinct types have distinct keys,
this tells what it means for a type to be visited (`kin_of_visits`) or for its name to be claimed
(`kin_of_claims`): one of its descriptors is in the set.
-/

namespace Schemata

open Environment (ObjectParts)

variable {env : Environment} {s : Session} {d : Descriptor} {σ σ₁ : Scene}
  {E E' : Descriptor → Prop}

/-- A session has described a type. -/
def Session.Describes (env : Environment) (s : Session) (d : Descriptor) : Prop :=
  ∃ t, s.Settles (env.describe t) d

theorem describes_of_points {x : Descriptor} (h : Points env s d x) : s.Describes env x :=
  let ⟨t, _, ht⟩ := h
  ⟨t, ht⟩

theorem hereditary_describes : Hereditary env s (s.Describes env) :=
  fun _ => describes_of_points

/-- What is referred to has been described. -/
theorem Judgement.Within.refers {t : Token} {n : Node} (h : s.Settles (env.describe t) d) :
    (Judgement.refers d n).Within env s (s.Describes env) :=
  ⟨t, h⟩

/-- The types of properties are described when they are referred to. -/
theorem Judgement.Within.fills {o o' : ObjectParts} {qs : List Property} :
    (Judgement.fills d o qs o').Within env s (s.Describes env) :=
  fun _ _ _ hx => ⟨_, hx⟩

theorem Published.knows (h : Published env s d) (hd : s.Describes env d) : s.Knows env d :=
  ⟨hd, fun _ => ⟨none, h.kind⟩⟩

theorem Arrayed.knows (h : Arrayed env s d) (hd : s.Describes env d) : s.Knows env d :=
  ⟨hd, fun _ => ⟨none, h.kind⟩⟩

/-- Claims belong to types of a set that are published by name.  So do visits, and then the name
is claimed, or else to types of the set that are composed in place.  All that is stored is
claimed. -/
structure Scene.Owned (env : Environment) (s : Session) (E : Descriptor → Prop) (σ : Scene) :
    Prop where
  claims : ∀ c ∈ σ.claims, ∃ x, E x ∧ Published env s x ∧ c = (x.name, x.key)
  visited : ∀ k ∈ σ.visited, ∃ x, E x ∧ k = x.key ∧
    (Published env s x ∧ x.name ∈ σ.claimed ∨ Arrayed env s x)
  names : σ.names ⊆ σ.claimed

namespace Scene.Owned

theorem mono (h : σ.Owned env s E) (hE : ∀ {x}, E x → E' x) : σ.Owned env s E' where
  claims c hc := by
    obtain ⟨x, hx, hclaim⟩ := h.claims c hc
    exact ⟨x, hE hx, hclaim⟩
  visited k hk := by
    obtain ⟨x, hx, hvisit⟩ := h.visited k hk
    exact ⟨x, hE hx, hvisit⟩
  names := h.names

/-! ## What keeps ownership -/

theorem of_adds (h : σ.Owned env s E) (hadds : Adds env s E σ σ₁) : σ₁.Owned env s E where
  claims := by
    intro c hc
    rcases hadds.claims c hc with hc | ⟨_, x, hx, hpub, rfl⟩
    · exact h.claims c hc
    · exact ⟨x, hx, hpub, rfl⟩
  visited := by
    intro k hk
    rcases hadds.visited k hk with hk | ⟨x, hx, rfl, ⟨hpub, hname⟩ | harr⟩
    · obtain ⟨x, hx, rfl, ⟨hpub, hname⟩ | harr⟩ := h.visited k hk
      · exact ⟨x, hx, rfl, .inl ⟨hpub, hadds.claimed_subset hname⟩⟩
      · exact ⟨x, hx, rfl, .inr harr⟩
    · exact ⟨x, hx, rfl, .inl ⟨hpub, hadds.owned_of_owned h.names hname⟩⟩
    · exact ⟨x, hx, rfl, .inr harr⟩
  names := hadds.owned_of_owned h.names

/-- What a derivation adds in a scene whose names are all claimed. -/
theorem adds (h : σ.Owned env s E) (hE : Hereditary env s E) {J : Judgement}
    (hJ : J.Within env s E) (hderives : Derives env s J σ σ₁) : Adds env s E σ σ₁ :=
  adds_of_derives hE hderives hJ h.names

theorem of_derives (h : σ.Owned env s E) (hE : Hereditary env s E) {J : Judgement}
    (hJ : J.Within env s E) (hderives : Derives env s J σ σ₁) : σ₁.Owned env s E :=
  h.of_adds (h.adds hE hJ hderives)

/-- A type is visited, and its name is claimed. -/
theorem of_claims (h : σ.Owned env s E) (hclaims : (σ.visiting d).Claims d σ₁) (hd : E d)
    (hpub : Published env s d) : σ₁.Owned env s E := by
  have hc := hclaims.claimed
  have hkept : σ.claimed ⊆ σ₁.claimed := List.map_subset Prod.fst hc.kept
  refine ⟨fun c hmem => ?_, fun k hk => ?_, ?_⟩
  · rcases hc.claims c hmem with hmem | rfl
    · exact h.claims c hmem
    · exact ⟨d, hd, hpub, rfl⟩
  · rw [hc.visited] at hk
    rcases List.mem_cons.mp hk with rfl | hk
    · exact ⟨d, hd, rfl, .inl ⟨hpub, hc.claimed⟩⟩
    · obtain ⟨x, hx, rfl, ⟨hpub, hname⟩ | harr⟩ := h.visited k hk
      · exact ⟨x, hx, rfl, .inl ⟨hpub, hkept hname⟩⟩
      · exact ⟨x, hx, rfl, .inr harr⟩
  · rw [Scene.names, hc.registry]
    exact List.Subset.trans h.names hkept

/-- A type that is composed in place is visited. -/
theorem visiting (h : σ.Owned env s E) (hd : E d) (harr : Arrayed env s d) :
    (σ.visiting d).Owned env s E := by
  refine ⟨h.claims, fun k hk => ?_, h.names⟩
  rcases List.mem_cons.mp hk with rfl | hk
  · exact ⟨d, hd, rfl, .inr harr⟩
  · exact h.visited k hk

theorem leaving (h : σ.Owned env s E) (d : Descriptor) : (σ.leaving d).Owned env s E :=
  ⟨h.claims, fun k hk => h.visited k (List.mem_of_mem_filter hk), h.names⟩

/-- A claimed name is taken. -/
theorem putting (h : σ.Owned env s E) {name : String} (n : Node) (hname : name ∈ σ.claimed) :
    (σ.putting name n).Owned env s E := by
  refine ⟨h.claims, h.visited, fun name' hname' => ?_⟩
  rcases Scene.mem_names_putting.mp hname' with hname' | rfl
  · exact h.names hname'
  · exact hname

/-! ## Owners -/

variable (hw : s.WellRead env) (hkeys : env.KeysDistinct)
  (hE : ∀ {x}, E x → s.Describes env x)
include hw hkeys hE

/-- A type is being visited because one of its descriptors is. -/
theorem kin_of_visits (h : σ.Owned env s E) (hd : s.Knows env d)
    (hshape : d.shape.isInline = false) (hvisited : σ.visits d = true) :
    ∃ x, E x ∧ s.Knows env x ∧ d.Kin x ∧ x.key ∈ σ.visited ∧
      (Published env s x ∧ x.name ∈ σ.claimed ∨ Arrayed env s x) := by
  obtain ⟨k, hk, hsame⟩ := List.any_eq_true.mp hvisited
  obtain ⟨x, hx, rfl, hkind⟩ := h.visited k hk
  have hknows : s.Knows env x ∧ x.shape.isInline = false := by
    rcases hkind with ⟨hpub, _⟩ | harr
    · exact ⟨hpub.knows (hE hx), hpub.shape⟩
    · exact ⟨harr.knows (hE hx), harr.shape⟩
  exact ⟨x, hx, hknows.1, kin_of_same hw hkeys hd hknows.1 hshape hknows.2 hsame, hk, hkind⟩

/-- A name is claimed for a type because it is for one of its descriptors. -/
theorem kin_of_claims (h : σ.Owned env s E) (hd : s.Knows env d)
    (hshape : d.shape.isInline = false) {owner : Key}
    (howner : getKey? d.name σ.claims = some owner) (hsame : owner.same d.key = true) :
    ∃ x, E x ∧ x.Kin d ∧ Published env s d := by
  obtain ⟨x, hx, hpub, hclaim⟩ := h.claims _ (mem_of_getKey? howner)
  obtain ⟨-, rfl⟩ := Prod.mk.inj hclaim
  have hknows := hpub.knows (hE hx)
  have hkin := kin_of_same hw hkeys hknows hd hpub.shape hshape hsame
  exact ⟨x, hx, hkin, hkin.alike.published hw hknows hd hpub⟩

/-- **What is found under its name is published by name.** -/
theorem published_of_known (h : σ.Owned env s E) (hd : s.Describes env d)
    (hinline : s.Settles (env.isInline d) false) (hname : d.name ∈ σ.names)
    (hclaims : σ.Claims d σ₁) : Published env s d := by
  obtain ⟨hshape, -⟩ := settles_isInline_false hinline
  obtain ⟨owner, howner, hsame⟩ := hclaims.owner (h.names hname)
  obtain ⟨_, _, _, hpub⟩ := h.kin_of_claims hw hkeys hE (knows_of_isInline hd hinline) hshape
    howner hsame
  exact hpub

/-- **What is awaited is published by name**, and its name is claimed. -/
theorem published_of_awaited (h : σ.Owned env s E) (hd : s.Describes env d)
    (hinline : s.Settles (env.isInline d) false) (hvisited : σ.visits d = true)
    (harray : s.Settles (env.publishesArray d) false) :
    Published env s d ∧ d.name ∈ σ.claimed := by
  obtain ⟨hshape, hkind⟩ := settles_isInline_false hinline
  have hknows : s.Knows env d := knows_of_isInline hd hinline
  obtain ⟨x, -, hx, hkin, _, ⟨hpub, hname⟩ | harr⟩ :=
    h.kin_of_visits hw hkeys hE hknows hshape hvisited
  · refine ⟨hkin.symm.alike.published hw hx hknows hpub, ?_⟩
    rw [← hkin.alike.name]
    exact hname
  · have := (settles_publishesArray harray hshape).mpr
      (hkin.symm.alike.arrayed hw hx hknows harr)
    cases this

end Scene.Owned

end Schemata
