import Schemata.Proofs.Descriptor.Reading
import Schemata.Proofs.Synthesis.Positions

/-!
# Whose name it is

A type that is published by name claims its name when it is visited.  The claim is never given to
another type (`claims_of_derives`), and the visit is never taken back; so whenever such a type is
found to be visited, its name is its own (`Scene.Tended`).  Whatever way a synthesis then takes to
refer to the type --- it finds the name stored, it awaits the type, it builds it, or it finds itself
inside the type and has an empty object stand in for it --- in the end the name belongs to the type
(`owns_of_refers`).
-/

namespace Schemata

variable {env : Environment} {s : Session} {d x : Descriptor} {σ σ₁ : Scene}

/-! ## Claims that last -/

namespace Scene

/-- The name of a type is claimed for it. -/
def Owns (σ : Scene) (d : Descriptor) : Prop :=
  ∃ k, getKey? d.name σ.claims = some k ∧ k.same d.key = true

theorem Owns.mono (h : σ.Owns d) (hclaims : σ.claims <+: σ₁.claims) : σ₁.Owns d := by
  obtain ⟨k, hk, hsame⟩ := h
  obtain ⟨new, hnew⟩ := hclaims
  refine ⟨k, ?_, hsame⟩
  rw [← hnew, getKey?_append, hk]
  rfl

theorem Owns.mem_claimed (h : σ.Owns d) : d.name ∈ σ.claimed := by
  obtain ⟨k, hk, -⟩ := h
  exact List.mem_map_of_mem (f := Prod.fst) (mem_of_getKey? hk)

theorem Claims.owns (h : σ.Claims d σ₁) (hself : d.key.same d.key = true) : σ₁.Owns d := by
  rcases h with ⟨k, hk, hsame, rfl⟩ | ⟨hfree, rfl⟩
  · exact ⟨k, hk, hsame⟩
  · refine ⟨d.key, ?_, hself⟩
    show getKey? d.name (σ.claims ++ [(d.name, d.key)]) = _
    rw [getKey?_append, hfree, getKey?, if_pos (beq_self_eq_true d.name)]
    rfl

end Scene

/-! ## Visits and claims -/

/-- Claims and visits belong to described types, and the name of a type that is published by name
and that is visited belongs to that type. -/
structure Scene.Tended (env : Environment) (s : Session) (σ : Scene) : Prop where
  owned : σ.Owned env s (s.Describes env)
  owns : ∀ {x}, s.Describes env x → Published env s x → σ.visits x = true → σ.Owns x

theorem Scene.tended_of_unvisited (howned : σ.Owned env s (s.Describes env))
    (hv : σ.visited = []) : σ.Tended env s where
  owned := howned
  owns _ _ hvisits := by
    rw [visits, hv] at hvisits
    cases hvisits

section

variable (hw : s.WellRead env) (hkeys : env.KeysDistinct)
include hw hkeys

/-- A name belongs to a type under all of its descriptors. -/
theorem Scene.Owned.owns_of_kin (h : σ.Owned env s (s.Describes env)) (hd : s.Describes env d)
    (hpub : Published env s d) (howns : σ.Owns d) (hkin : d.Kin x) : σ.Owns x := by
  obtain ⟨k, hk, hsame⟩ := howns
  obtain ⟨y, hy, hpuby, hclaim⟩ := h.claims _ (mem_of_getKey? hk)
  obtain ⟨-, rfl⟩ := Prod.mk.inj hclaim
  have hyd := kin_of_described hw hkeys hy hd hpuby.shape hpub.shape hsame
  refine ⟨y.key, ?_, same_of_kin hsame hyd hkin⟩
  rw [hkin.alike.name]
  exact hk

namespace Scene.Tended

/-- A type is visited, and its name is claimed. -/
theorem of_claims (h : σ.Tended env s) (hclaims : (σ.visiting d).Claims d σ₁)
    (hd : s.Describes env d) (hpub : Published env s d) : σ₁.Tended env s := by
  have howned := h.owned.of_claims hclaims hd hpub
  refine ⟨howned, fun {x} hx hpubx hvisits => ?_⟩
  rw [visits, hclaims.claimed.visited] at hvisits
  rcases Bool.or_eq_true _ _ ▸ hvisits with hsame | hbefore
  · have hkin := kin_of_described hw hkeys hx hd hpubx.shape hpub.shape hsame
    exact howned.owns_of_kin hw hkeys hd hpub (hclaims.owns (same_of_describes hw hd hpub.shape))
      hkin.symm
  · exact (h.owns hx hpubx hbefore).mono hclaims.prefix

/-- A type that is composed in place is visited without a claim. -/
theorem visiting (h : σ.Tended env s) (hd : s.Describes env d) (harr : Arrayed env s d) :
    (σ.visiting d).Tended env s := by
  refine ⟨h.owned.visiting hd harr, fun {x} hx hpub hvisits => ?_⟩
  rcases Bool.or_eq_true _ _ ▸ hvisits with hsame | hbefore
  · have hkin := kin_of_described hw hkeys hx hd hpub.shape harr.shape hsame
    have harr' := hkin.symm.alike.arrayed hw (harr.knows hd) (hpub.knows hx) harr
    exact absurd hpub harr'.not_published
  · exact h.owns hx hpub hbefore

omit hw hkeys in
theorem leaving (h : σ.Tended env s) (d : Descriptor) : (σ.leaving d).Tended env s := by
  refine ⟨h.owned.leaving d, fun hx hpub hvisits => h.owns hx hpub ?_⟩
  obtain ⟨k, hk, hsame⟩ := List.any_eq_true.mp hvisits
  exact List.any_eq_true.mpr ⟨k, List.mem_of_mem_filter hk, hsame⟩

omit hw hkeys in
theorem putting (h : σ.Tended env s) {name : String} (n : Node) (hname : name ∈ σ.claimed) :
    (σ.putting name n).Tended env s :=
  ⟨h.owned.putting n hname, h.owns⟩

/-- **The name of a visited type stays its own**, whatever a synthesis does. -/
theorem of_derives {J : Judgement} (h : σ.Tended env s) (hderives : Derives env s J σ σ₁)
    (hJ : J.Within env s (s.Describes env)) : σ₁.Tended env s := by
  induction hderives with
  | inPlace _ _ ih | fresh _ _ _ _ ih => exact ih h hJ
  | known _ hstored hclaims =>
    rw [hclaims.eq_of_claimed (h.owned.names hstored)]
    exact h
  | awaited | plain | anyMap | cutArray | cut | done => exact h
  | wrapped _ hinner _ ih => exact ih h (.refers hinner)
  | root hshape hbase _ ih => exact ih h ⟨hJ, published_of_root hshape hbase⟩
  | @composed d _ _ _ _ _ _ _ _ hderived harray hdescribe _ _ ihrefers ihfills =>
    have hvisiting :=
      (ihrefers h (.refers hdescribe)).visiting hw hkeys hJ (arrayed_of_derived hderived harray)
    exact (ihfills hvisiting .fills).leaving d
  | derived hderived harray hdescribe _ _ ihrefers ihstores =>
    exact ihstores (ihrefers h (.refers hdescribe)) ⟨hJ, published_of_derived hderived harray⟩
  | existing _ hclaims _ => exact h.of_claims hw hkeys hclaims hJ.1 hJ.2
  | enum _ hclaims _ _ _ _ =>
    exact (h.of_claims hw hkeys hclaims hJ.1 hJ.2).putting _ hclaims.claimed.claimed
  | object _ hclaims _ _ _ hfills ih =>
    have hkept := List.map_subset Prod.fst (claims_of_derives hfills).subset
    exact (ih (h.of_claims hw hkeys hclaims hJ.1 hJ.2) .fills).putting _
      (hkept hclaims.claimed.claimed)
  | rest _ _ hdescribe _ _ ihrefers ihfills | property _ _ hdescribe _ _ _ ihrefers ihfills =>
    exact ihfills (ihrefers h (.refers hdescribe)) .fills

end Scene.Tended

/-! ## Types that are referred to -/

omit hkeys in
theorem owns_of_stores {base : Option Node} {r : Built} (htended : σ.Tended env s)
    (hd : s.Describes env d) (hpub : Published env s d)
    (h : Derives env s (.stores d base r) σ σ₁) : σ₁.Owns d := by
  have hself := same_of_describes hw hd hpub.shape
  cases h with
  | cut hvisited => exact htended.owns hd hpub hvisited
  | existing _ hclaims _ => exact hclaims.owns hself
  | enum _ hclaims _ _ _ _ => exact hclaims.owns hself
  | object _ hclaims _ _ _ hfills =>
    have howns := (hclaims.owns hself).mono (claims_of_derives hfills)
    exact howns

theorem owns_of_builds {r : Built} (htended : σ.Tended env s) (hd : s.Describes env d)
    (hpub : Published env s d) (h : Derives env s (.builds d r) σ σ₁) : σ₁.Owns d := by
  rcases stores_of_builds hpub h with ⟨-, hstores⟩ | ⟨_, b, n, σ', -, hdescribe, hrefers, hstores⟩
  · exact owns_of_stores hw htended hd hpub hstores
  · have htended' := htended.of_derives hw hkeys hrefers (.refers hdescribe)
    exact owns_of_stores hw htended' hd hpub hstores

/-- **The name of a type that has been referred to belongs to the type**, if it is published by
name. -/
theorem owns_of_refers {n : Node} (htended : σ.Tended env s) (hd : s.Describes env d)
    (hpub : Published env s d) (h : Derives env s (.refers d n) σ σ₁) : σ₁.Owns d := by
  cases h with
  | inPlace hinline _ => exact absurd hpub (not_published_of_inline hinline)
  | known _ _ hclaims => exact hclaims.owns (same_of_describes hw hd hpub.shape)
  | awaited _ hvisited _ => exact htended.owns hd hpub hvisited
  | fresh _ _ _ hbuilds => exact owns_of_builds hw hkeys htended hd hpub hbuilds

/-- A type that is built while it is not visited is stored, unless its base leads back to it. -/
theorem stored_of_builds {r : Built} (howned : σ.names ⊆ σ.claimed) (hd : s.Describes env d)
    (hpub : Published env s d) (hvisits : σ.visits d = false)
    (h : Derives env s (.builds d r) σ σ₁) : r.stored = true ∨ SelfBased env s d := by
  rcases stores_of_builds hpub h with
    ⟨-, hstores⟩ | ⟨base, b, n, σ', hbase, hdescribe, hrefers, hstores⟩
  · rcases stored_iff_of_stores hstores with ⟨hvisited, -⟩ | ⟨-, hstored⟩
    · cases hvisits.symm.trans hvisited
    · exact .inl hstored
  · rcases stored_iff_of_stores hstores with ⟨hvisited, -⟩ | ⟨-, hstored⟩
    · exact .inr (selfBased_of_visits hw hkeys hd hpub hbase hdescribe hrefers howned hvisits
        hvisited)
    · exact .inl hstored

end

end Schemata
