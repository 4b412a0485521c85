import Schemata.Proofs.Synthesis.Graph

/-!
# What a synthesis adds

A derivation only adds to a scene, and what it adds belongs to types that its subject leads to:
`Adds env s E` says that new claims and newly visited types are those of types in `E`, that
every new claim is on a name that is stored by then, and that every new entry is claimed.
`adds_of_derives` holds for every set `E` of types that contains the subject and leads nowhere
else, so that it also tells what can be reached.

The claims of the types under construction are the old ones here: they are on names that are
not stored yet, and a derivation that ends has ended everything it began.
-/

namespace Schemata

open Environment (ObjectParts mapInner)

variable {env : Environment} {s : Session} {d : Descriptor} {σ σ₁ σ₂ σ₃ : Scene}

/-! ## Steps -/

namespace Registry

variable {α : Type} {r : Registry α} {name name' : String} {a : α}

@[simp] theorem mem_names_put :
    name' ∈ (r.put name a).2.names ↔ name' ∈ r.names ∨ name' = name := by
  cases h : r.get? name with
  | some stored =>
    rw [put_of_get? h]
    refine ⟨.inl, ?_⟩
    rintro (hmem | rfl)
    · exact hmem
    · exact mem_names_of_get? h
  | none =>
    rw [put_of_free h, (grown_store h).names, List.mem_append, List.map_singleton,
      List.mem_singleton]

end Registry

namespace Scene

@[simp] theorem mem_names_putting {name name' : String} {n : Node} :
    name' ∈ (σ.putting name n).names ↔ name' ∈ σ.names ∨ name' = name :=
  Registry.mem_names_put

/-- What a claim changes. -/
structure Claimed (d : Descriptor) (σ σ' : Scene) : Prop where
  registry : σ'.registry = σ.registry
  visited : σ'.visited = σ.visited
  kept : σ.claims ⊆ σ'.claims
  claims : ∀ c ∈ σ'.claims, c ∈ σ.claims ∨ c = (d.name, d.key)
  claimed : d.name ∈ σ'.claimed

theorem Claims.claimed (h : σ.Claims d σ₁) : Claimed d σ σ₁ := by
  rcases h with ⟨owner, howner, _, rfl⟩ | ⟨_, rfl⟩
  · refine ⟨rfl, rfl, fun _ => id, fun _ => .inl, ?_⟩
    exact List.mem_map_of_mem (f := Prod.fst) (mem_of_getKey? howner)
  · refine ⟨rfl, rfl, List.subset_append_left _ _, ?_, ?_⟩
    · intro c hc
      rcases List.mem_append.mp hc with hc | hc
      · exact .inl hc
      · exact .inr (List.mem_singleton.mp hc)
    · rw [Scene.claimed, List.map_append]
      exact List.mem_append_right _ (List.mem_singleton.mpr rfl)

theorem Claims.prefix (h : σ.Claims d σ₁) : σ.claims <+: σ₁.claims := by
  rcases h with ⟨_, _, _, rfl⟩ | ⟨_, rfl⟩
  · exact List.prefix_refl _
  · exact List.prefix_append _ _

/-- A claim on a name that is claimed succeeds where the name is claimed for the type. -/
theorem Claims.owner (h : σ.Claims d σ₁) (hclaimed : d.name ∈ σ.claimed) :
    ∃ owner, getKey? d.name σ.claims = some owner ∧ owner.same d.key = true := by
  rcases h with ⟨owner, howner, hsame, _⟩ | ⟨hfree, _⟩
  · exact ⟨owner, howner, hsame⟩
  · exact absurd hclaimed (getKey?_eq_none_iff.mp hfree)

/-- A claim on a name that is claimed changes nothing. -/
theorem Claims.eq_of_claimed (h : σ.Claims d σ₁) (hclaimed : d.name ∈ σ.claimed) : σ₁ = σ := by
  rcases h with ⟨_, _, _, heq⟩ | ⟨hfree, _⟩
  · exact heq
  · exact absurd hclaimed (getKey?_eq_none_iff.mp hfree)

end Scene

/-- **A claim is never taken back**, nor is it overtaken by another. -/
theorem claims_of_derives {J : Judgement} (h : Derives env s J σ σ₁) :
    σ.claims <+: σ₁.claims := by
  induction h with
  | inPlace _ _ ih | fresh _ _ _ _ ih | wrapped _ _ _ ih | root _ _ _ ih => exact ih
  | known _ _ hclaims => exact hclaims.prefix
  | awaited | plain | anyMap | cutArray | cut | done => exact List.prefix_refl _
  | composed _ _ _ _ _ ihrefers ihfills => exact List.IsPrefix.trans ihrefers ihfills
  | derived _ _ _ _ _ ihrefers ihstores => exact List.IsPrefix.trans ihrefers ihstores
  | existing _ hclaims _ => exact hclaims.prefix
  | enum _ hclaims _ _ _ _ => exact hclaims.prefix
  | object _ hclaims _ _ _ _ ih => exact List.IsPrefix.trans hclaims.prefix ih
  | rest _ _ _ _ _ ihrefers ihfills => exact List.IsPrefix.trans ihrefers ihfills
  | property _ _ _ _ _ _ ihrefers ihfills => exact List.IsPrefix.trans ihrefers ihfills

/-! ## Additions -/

/-- What has been added belongs to types of a set. -/
structure Adds (env : Environment) (s : Session) (E : Descriptor → Prop) (σ σ' : Scene) :
    Prop where
  names : σ.names ⊆ σ'.names
  kept : σ.claims ⊆ σ'.claims
  claims : ∀ c ∈ σ'.claims, c ∈ σ.claims ∨
    c.1 ∈ σ'.names ∧ ∃ x, E x ∧ Published env s x ∧ c = (x.name, x.key)
  visited : ∀ k ∈ σ'.visited, k ∈ σ.visited ∨
    ∃ x, E x ∧ k = x.key ∧ (Published env s x ∧ x.name ∈ σ'.names ∨ Arrayed env s x)
  owned : ∀ name ∈ σ'.names, name ∈ σ.names ∨ name ∈ σ'.claimed

namespace Adds

variable {E : Descriptor → Prop}

theorem refl (σ : Scene) : Adds env s E σ σ :=
  ⟨fun _ => id, fun _ => id, fun _ => .inl, fun _ => .inl, fun _ => .inl⟩

theorem trans (h₁ : Adds env s E σ σ₁) (h₂ : Adds env s E σ₁ σ₂) : Adds env s E σ σ₂ where
  names := List.Subset.trans h₁.names h₂.names
  kept := List.Subset.trans h₁.kept h₂.kept
  claims := by
    intro c hc
    rcases h₂.claims c hc with hc | hc
    · rcases h₁.claims c hc with hc | ⟨hname, hx⟩
      · exact .inl hc
      · exact .inr ⟨h₂.names hname, hx⟩
    · exact .inr hc
  visited := by
    intro k hk
    rcases h₂.visited k hk with hk | hk
    · rcases h₁.visited k hk with hk | ⟨x, hx, rfl, ⟨hpub, hname⟩ | harr⟩
      · exact .inl hk
      · exact .inr ⟨x, hx, rfl, .inl ⟨hpub, h₂.names hname⟩⟩
      · exact .inr ⟨x, hx, rfl, .inr harr⟩
    · exact .inr hk
  owned := by
    intro name hname
    rcases h₂.owned name hname with hname | hname
    · rcases h₁.owned name hname with hname | hname
      · exact .inl hname
      · exact .inr (List.map_subset Prod.fst h₂.kept hname)
    · exact .inr hname

theorem claimed_subset (h : Adds env s E σ σ₁) : σ.claimed ⊆ σ₁.claimed :=
  List.map_subset Prod.fst h.kept

/-- Names that are stored stay claimed. -/
theorem owned_of_owned (h : Adds env s E σ σ₁) (howned : σ.names ⊆ σ.claimed) :
    σ₁.names ⊆ σ₁.claimed := by
  intro name hname
  rcases h.owned name hname with hname | hname
  · exact h.claimed_subset (howned hname)
  · exact hname

/-- **A type is stored**: it is visited and its name is claimed, then more is added, and in the
end its name is taken. -/
theorem of_stored (hclaims : (σ.visiting d).Claims d σ₁) (h : Adds env s E σ₁ σ₂)
    (hnames : ∀ name, name ∈ σ₃.names ↔ name ∈ σ₂.names ∨ name = d.name)
    (hkept : σ₃.claims = σ₂.claims) (hvisited : σ₃.visited = σ₂.visited) (hd : E d)
    (hpub : Published env s d) : Adds env s E σ σ₃ := by
  have hc := hclaims.claimed
  have hnames₁ : σ₁.names = σ.names := by rw [Scene.names, hc.registry]; rfl
  have hsub : σ₂.names ⊆ σ₃.names := fun name hname => (hnames name).mpr (.inl hname)
  have hown : d.name ∈ σ₃.names := (hnames _).mpr (.inr rfl)
  have hclaimed : σ₃.claimed = σ₂.claimed := by rw [Scene.claimed, hkept]; rfl
  refine ⟨?_, ?_, fun c hmem => ?_, fun k hk => ?_, fun name hname => ?_⟩
  · rw [← hnames₁]
    exact List.Subset.trans h.names hsub
  · rw [hkept]
    exact List.Subset.trans hc.kept h.kept
  · rw [hkept] at hmem
    rcases h.claims c hmem with hmem | ⟨hname, hx⟩
    · rcases hc.claims c hmem with hmem | rfl
      · exact .inl hmem
      · exact .inr ⟨hown, d, hd, hpub, rfl⟩
    · exact .inr ⟨hsub hname, hx⟩
  · rw [hvisited] at hk
    rcases h.visited k hk with hk | ⟨x, hx, rfl, ⟨hpub', hname⟩ | harr⟩
    · rw [hc.visited] at hk
      rcases List.mem_cons.mp hk with rfl | hk
      · exact .inr ⟨d, hd, rfl, .inl ⟨hpub, hown⟩⟩
      · exact .inl hk
    · exact .inr ⟨x, hx, rfl, .inl ⟨hpub', hsub hname⟩⟩
    · exact .inr ⟨x, hx, rfl, .inr harr⟩
  · rw [hclaimed]
    rcases (hnames name).mp hname with hname | rfl
    · rw [← hnames₁]
      exact h.owned name hname
    · exact .inr (h.claimed_subset hc.claimed)

/-- A type is composed in place: it is visited only while its own properties are. -/
theorem of_composed (h : Adds env s E (σ.visiting d) σ₁) (hd : E d) (harr : Arrayed env s d) :
    Adds env s E σ (σ₁.leaving d) := by
  refine ⟨h.names, h.kept, h.claims, fun k hk => ?_, h.owned⟩
  rcases h.visited k (List.mem_of_mem_filter hk) with hk | hk
  · rcases List.mem_cons.mp hk with rfl | hk
    · exact .inr ⟨d, hd, rfl, .inr harr⟩
    · exact .inl hk
  · exact .inr hk

end Adds

/-- The types that a judgement is about are in a set. -/
def Judgement.Within (env : Environment) (s : Session) (E : Descriptor → Prop) :
    Judgement → Prop
  | .refers d _ => E d
  | .builds d _ => E d
  | .stores d _ _ => E d ∧ Published env s d
  | .fills _ _ qs _ => ∀ q ∈ qs, ∀ x, s.Settles (env.describe q.type) x → E x

/-- **What a derivation adds belongs to types that its subject leads to.** -/
theorem adds_of_derives {E : Descriptor → Prop} (hE : Hereditary env s E) {J : Judgement}
    (h : Derives env s J σ σ₁) (hJ : J.Within env s E) (howned : σ.names ⊆ σ.claimed) :
    Adds env s E σ σ₁ := by
  induction h with
  | inPlace _ _ ih | fresh _ _ _ _ ih => exact ih hJ howned
  | known _ hstored hclaims =>
    rw [hclaims.eq_of_claimed (howned hstored)]
    exact .refl _
  | awaited | plain | anyMap | cutArray | cut | done => exact .refl _
  | wrapped hwraps hinner _ ih => exact ih (hE hJ ⟨_, hwraps.partOf, hinner⟩) howned
  | root hshape hbase _ ih => exact ih ⟨hJ, published_of_root hshape hbase⟩ howned
  | @composed d b base c n o σ σ₁ σ₂ hderived harray hdescribe _ _ ihrefers ihfills =>
    have harr := arrayed_of_derived hderived harray
    have hb : E b := hE hJ ⟨base, .base hderived.shape hderived.kind hderived.base, hdescribe⟩
    have h₁ := ihrefers hb howned
    refine h₁.trans (Adds.of_composed (ihfills ?_ ?_) hJ harr)
    · exact fun q hq x hx => hE hJ ⟨_, .property hderived.kind (.inr harr) hq, hx⟩
    · exact h₁.owned_of_owned howned
  | @derived d b base c n r σ σ₁ σ₂ hderived harray hdescribe _ _ ihrefers ihstores =>
    have hb : E b := hE hJ ⟨base, .base hderived.shape hderived.kind hderived.base, hdescribe⟩
    have h₁ := ihrefers hb howned
    exact h₁.trans (ihstores ⟨hJ, published_of_derived hderived harray⟩
      (h₁.owned_of_owned howned))
  | @existing d base n σ σ' _ hclaims hstored =>
    refine .of_stored hclaims (.refl _) (fun name => ⟨.inl, ?_⟩) rfl rfl hJ.1 hJ.2
    rintro (hname | rfl)
    · exact hname
    · exact Registry.mem_names_of_get? hstored
  | enum _ hclaims _ _ _ _ =>
    exact .of_stored hclaims (.refl _) (fun _ => Scene.mem_names_putting) rfl rfl hJ.1 hJ.2
  | @object d base c o σ σ₁ σ₂ _ hclaims _ hshape _ _ ih =>
    have hc := hclaims.claimed
    have hnames : σ₁.names = σ.names := by rw [Scene.names, hc.registry]; rfl
    refine .of_stored hclaims (ih ?_ ?_) (fun _ => Scene.mem_names_putting) rfl rfl hJ.1 hJ.2
    · exact fun q hq x hx =>
        hE hJ.1 ⟨_, .property hJ.2.kind (.inl (hJ.2.eq_object hshape)) hq, hx⟩
    · rw [hnames]
      exact List.Subset.trans howned (List.map_subset Prod.fst hc.kept)
  | rest _ _ hdescribe _ _ ihrefers ihfills =>
    have h₁ := ihrefers (hJ _ List.mem_cons_self _ hdescribe) howned
    exact h₁.trans (ihfills (fun q hq => hJ q (List.mem_cons_of_mem _ hq))
      (h₁.owned_of_owned howned))
  | property _ _ hdescribe _ _ _ ihrefers ihfills =>
    have h₁ := ihrefers (hJ _ List.mem_cons_self _ hdescribe) howned
    exact h₁.trans (ihfills (fun q hq => hJ q (List.mem_cons_of_mem _ hq))
      (h₁.owned_of_owned howned))

end Schemata
