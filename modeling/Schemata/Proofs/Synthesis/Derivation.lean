import Schemata.Proofs.Synthesis.Course

/-!
# Derivations

A course without its walks.  What counts for most questions is only what a synthesis changes: what
is stored, claimed and visited.  A `Scene` is that much of a walk, and `Derives env s` is the
relation between scenes that remains of a course when the answers are those of a session `s`.
`derives_of_course` takes a course to its derivation, so that every successful run of
`Environment.build` that ends below `s` is one of the derivations (`derives_build`).

The rules are those of courses.  What has to be shown of the types and the scene alone, whatever
has been learned on the way, is shown by induction on derivations.
-/

namespace Schemata

open Environment (ObjectParts mapInner)

/-- The parts of a walk that a synthesis changes.  The groups of writes that are open are left
out of the registry: a synthesis does not look at them. -/
structure Scene where
  registry : Registry Node
  claims : List (String × Key)
  visited : List Key

/-- The scene of a walk. -/
def Walk.scene (w : Walk) : Scene :=
  ⟨w.session.registry.bare, w.session.claims, w.visited⟩

namespace Scene

/-- The names that are stored. -/
def names (σ : Scene) : List String :=
  σ.registry.names

/-- The names that are claimed. -/
def claimed (σ : Scene) : List String :=
  σ.claims.map Prod.fst

/-- Visit a type. -/
def visiting (σ : Scene) (d : Descriptor) : Scene :=
  { σ with visited := d.key :: σ.visited }

/-- Stop visiting a type. -/
def leaving (σ : Scene) (d : Descriptor) : Scene :=
  { σ with visited := d.key.without σ.visited }

/-- Store a node under a name, unless the name is taken. -/
def putting (σ : Scene) (name : String) (n : Node) : Scene :=
  { σ with registry := (σ.registry.put name n).2 }

/-- Whether a type is being visited. -/
def visits (σ : Scene) (d : Descriptor) : Bool :=
  d.key.isAmong σ.visited

/-- The name of a type is claimed for it by another, or by nobody yet. -/
def Claims (σ : Scene) (d : Descriptor) (σ' : Scene) : Prop :=
  (∃ owner, getKey? d.name σ.claims = some owner ∧ owner.same d.key = true ∧ σ' = σ) ∨
    (getKey? d.name σ.claims = none ∧ σ' = { σ with claims := σ.claims ++ [(d.name, d.key)] })

end Scene

theorem Walk.Learns.scene {env : Environment} {w w' : Walk} (h : w.Learns env w') :
    w'.scene = w.scene := by
  rw [Walk.scene, Walk.scene, h.session.registry, h.session.claims, h.visited]

theorem Walk.Learns.visits {env : Environment} {w w' : Walk} (h : w.Learns env w')
    (d : Descriptor) : w'.visits d = w.visits d :=
  congrArg d.key.isAmong h.visited

/-! ## Derivations -/

section

variable (env : Environment) (s : Session)

/-- **What a successful synthesis has done**, as seen from a session that knows all of it. -/
inductive Derives : Judgement → Scene → Scene → Prop
  | inPlace {d : Descriptor} {r : Built} {σ σ' : Scene}
      (hinline : s.Settles (env.isInline d) true) (hbuilds : Derives (.builds d r) σ σ') :
      Derives (.refers d r.node) σ σ'
  | known {d : Descriptor} {σ σ' : Scene} (hinline : s.Settles (env.isInline d) false)
      (hstored : d.name ∈ σ.names) (hclaims : σ.Claims d σ') :
      Derives (.refers d (.refTo d.name)) σ σ'
  | awaited {d : Descriptor} {σ : Scene} (hinline : s.Settles (env.isInline d) false)
      (hvisited : σ.visits d = true) (harray : s.Settles (env.publishesArray d) false) :
      Derives (.refers d (.refTo d.name)) σ σ
  | fresh {d : Descriptor} {r : Built} {σ σ' : Scene}
      (hinline : s.Settles (env.isInline d) false) (hfree : d.name ∉ σ.names)
      (hvisited : σ.visits d = true → s.Settles (env.publishesArray d) true)
      (hbuilds : Derives (.builds d r) σ σ') :
      Derives (.refers d (if r.stored then .refTo d.name else r.node)) σ σ'
  | plain {d : Descriptor} {n : Node} {σ : Scene} (hplain : Plain env s d n) :
      Derives (.builds d ⟨n, false⟩) σ σ
  | wrapped {d inner : Descriptor} {t : Token} {n node : Node} {σ σ' : Scene}
      (hwraps : Wraps env s d t n node) (hinner : s.Settles (env.describe t) inner)
      (hrefers : Derives (.refers inner n) σ σ') : Derives (.builds d ⟨node, false⟩) σ σ'
  | anyMap {d inner : Descriptor} {c : Constraints} {σ : Scene} (hshape : d.shape = .map)
      (hinner : s.Settles (env.describe (mapInner d)) inner)
      (hany : inner.shape = .primitive) (hmerge : Constraints.merge d.annotations = .ok c) :
      Derives (.builds d ⟨c.apply (.object {} [] none (some true)), false⟩) σ σ
  | cutArray {d : Descriptor} {σ : Scene} (hshape : d.shape.isInline = false)
      (hvisited : σ.visits d = true) (harray : s.Settles (env.publishesArray d) true) :
      Derives (.builds d ⟨.emptyObject, false⟩) σ σ
  | root {d : Descriptor} {r : Built} {σ σ' : Scene} (hshape : d.shape.isInline = false)
      (hbase : d.base = none) (hstores : Derives (.stores d none r) σ σ') :
      Derives (.builds d r) σ σ'
  | composed {d b : Descriptor} {base : Token} {c : Constraints} {n : Node} {o : ObjectParts}
      {σ σ₁ σ₂ : Scene} (hderived : Derived env s d base c) (harray : c.array = true)
      (hdescribe : s.Settles (env.describe base) b) (hrefers : Derives (.refers b n) σ σ₁)
      (hfills : Derives (.fills d ((ObjectParts.ofNode .emptyObject).requiring c.required)
        d.properties o) (σ₁.visiting d) σ₂) :
      Derives (.builds d ⟨Constraints.apply { c with required := [] }
        (.array {} (.composition [n, o.toNode] none none)), false⟩) σ (σ₂.leaving d)
  | derived {d b : Descriptor} {base : Token} {c : Constraints} {n : Node} {r : Built}
      {σ σ₁ σ₂ : Scene} (hderived : Derived env s d base c) (harray : c.array = false)
      (hdescribe : s.Settles (env.describe base) b) (hrefers : Derives (.refers b n) σ σ₁)
      (hstores : Derives (.stores d (some n) r) σ₁ σ₂) : Derives (.builds d r) σ σ₂
  | cut {d : Descriptor} {base : Option Node} {σ : Scene} (hvisited : σ.visits d = true) :
      Derives (.stores d base ⟨.emptyObject, false⟩) σ σ
  | existing {d : Descriptor} {base : Option Node} {n : Node} {σ σ' : Scene}
      (hvisited : σ.visits d = false) (hclaims : (σ.visiting d).Claims d σ')
      (hstored : σ'.registry.get? d.name = some n) : Derives (.stores d base ⟨n, true⟩) σ σ'
  | enum {d : Descriptor} {base : Option Node} {c : Constraints} {n : Node} {σ σ₁ : Scene}
      (hvisited : σ.visits d = false) (hclaims : (σ.visiting d).Claims d σ₁)
      (hfree : d.name ∉ σ₁.names) (hshape : d.shape = .enum)
      (hmerge : Constraints.merge d.annotations = .ok c)
      (hn : n = c.apply (.leaf { choices := d.members.map .text } (some .string))) :
      Derives (.stores d base ⟨(σ₁.registry.put d.name n).1, true⟩) σ (σ₁.putting d.name n)
  | object {d : Descriptor} {base : Option Node} {c : Constraints} {o : ObjectParts}
      {σ σ₁ σ₂ : Scene} (hvisited : σ.visits d = false)
      (hclaims : (σ.visiting d).Claims d σ₁) (hfree : d.name ∉ σ₁.names)
      (hshape : d.shape ≠ .enum) (hmerge : Constraints.merge d.annotations = .ok c)
      (hfills : Derives (.fills d (.ofNode (c.apply .emptyObject)) d.properties o) σ₁ σ₂) :
      Derives (.stores d base ⟨(σ₂.registry.put d.name (o.over base)).1, true⟩) σ
        (σ₂.putting d.name (o.over base))
  | done {d : Descriptor} {o : ObjectParts} {σ : Scene} : Derives (.fills d o [] o) σ σ
  | rest {d inner : Descriptor} {o o' : ObjectParts} {q : Property} {qs : List Property}
      {c : Constraints} {n : Node} {σ σ₁ σ₂ : Scene} (hcatchAll : q.catchAll = true)
      (hmerge : Constraints.merge q.annotations = .ok c)
      (hdescribe : s.Settles (env.describe q.type) inner)
      (hrefers : Derives (.refers inner n) σ σ₁)
      (hfills : Derives (.fills d (o.accepting c n) qs o') σ₁ σ₂) :
      Derives (.fills d o (q :: qs) o') σ σ₂
  | property {d inner : Descriptor} {o o' : ObjectParts} {q : Property} {qs : List Property}
      {c : Constraints} {n node : Node} {w w' : Walk} {σ σ₁ σ₂ : Scene}
      (hcatchAll : q.catchAll = false) (hmerge : Constraints.merge q.annotations = .ok c)
      (hdescribe : s.Settles (env.describe q.type) inner)
      (hrefers : Derives (.refers inner n) σ σ₁) (hdress : env.dress d q c n w = .ok node w')
      (hfills : Derives (.fills d (o.adding q c node) qs o') σ₁ σ₂) :
      Derives (.fills d o (q :: qs) o') σ σ₂

end

/-! ## Courses are derivations -/

/-- The name of a type is claimed, as a step between scenes. -/
theorem claims_of_claim {env : Environment} {d : Descriptor} {u : Unit} {w w' : Walk}
    (h : env.claim d.name d w = .ok u w') : w.scene.Claims d w'.scene := by
  rcases Environment.claim_eq_ok.mp h with ⟨owner, howner, hsame, rfl⟩ | ⟨hfree, rfl⟩
  · exact .inl ⟨owner, howner, hsame, rfl⟩
  · exact .inr ⟨hfree, rfl⟩

/-- A node is stored, as a step between scenes. -/
theorem scene_of_putting {name : String} {n stored : Node} {w w' : Walk}
    (h : (Registry.putting name n : Build Node) w = .ok stored w') :
    stored = (w.scene.registry.put name n).1 ∧ w'.scene = w.scene.putting name n := by
  obtain ⟨hput, hregistry⟩ := Registry.bare_put w.session.registry name n
  obtain ⟨rfl, rfl⟩ := Environment.putting_eq_ok.mp h
  refine ⟨hput.symm, ?_⟩
  show Scene.mk (w.session.registry.put name n).2.bare _ _ = _
  rw [← hregistry]
  rfl

section

variable {env : Environment} {s : Session} {g : List (Key × Option Value)}

/-- **A course is a derivation** between the scenes of its walks. -/
theorem derives_of_course {n : Nat} {J : Judgement} {w w' : Walk}
    (h : Course env s g n J w w') : Derives env s J w.scene w'.scene := by
  induction h with
  | learns hlearns _ ih => exact hlearns.scene ▸ ih
  | inPlace hinline _ _ ih => exact .inPlace hinline ih
  | known hinline hstored hclaim => exact .known hinline hstored (claims_of_claim hclaim)
  | awaited hinline hvisited harray => exact .awaited hinline hvisited harray
  | fresh hinline hfree hvisited _ _ ih => exact .fresh hinline hfree hvisited ih
  | plain hplain _ => exact .plain hplain
  | wrapped hwraps _ _ hinner _ ih => exact .wrapped hwraps hinner ih
  | anyMap hshape hinner hany hmerge => exact .anyMap hshape hinner hany.1 hmerge
  | cutArray hshape _ hvisited harray => exact .cutArray hshape hvisited harray
  | root hshape hbase _ ih => exact .root hshape hbase ih
  | @composed _ d _ _ _ _ o _ w₁ w₂ w₃ hderived harray _ _ hdescribe _ _ _ _ hlearns _ ihrefers
      ihfills =>
    have hleft : (w₃.leaving d).scene = w₂.scene.leaving d := by
      rw [← hlearns.scene]
      rfl
    rw [hleft]
    exact .composed hderived harray hdescribe ihrefers ihfills
  | derived hderived harray hdescribe _ _ ihrefers ihstores =>
    exact .derived hderived harray hdescribe ihrefers ihstores
  | cut hvisited => exact .cut hvisited
  | existing hvisited hclaim hstored => exact .existing hvisited (claims_of_claim hclaim) hstored
  | enum hvisited hclaim hfree hshape hmerge hput =>
    obtain ⟨rfl, hscene⟩ := scene_of_putting hput
    rw [hscene]
    exact .enum hvisited (claims_of_claim hclaim) hfree hshape hmerge rfl
  | object hvisited hclaim hfree hshape hmerge _ hlearns _ hput ih =>
    obtain ⟨rfl, hscene⟩ := scene_of_putting hput
    rw [hscene, hlearns.scene]
    exact .object hvisited (claims_of_claim hclaim) hfree hshape hmerge ih
  | done => exact .done
  | rest hcatchAll hmerge hdescribe _ _ ihrefers ihfills =>
    exact .rest hcatchAll hmerge hdescribe ihrefers ihfills
  | property hcatchAll hmerge hdescribe _ hdress _ _ ihrefers ihfills =>
    refine .property hcatchAll hmerge hdescribe ihrefers hdress ?_
    rw [← ((Environment.learns_dress _ _ _ _).ok hdress).scene]
    exact ihfills

namespace Environment

/-- **Every successful run of the synthesis is a derivation.** -/
theorem derives_build (n : Nat) {d : Descriptor} {r : Built} {w w' : Walk}
    (h : env.build n d w = .ok r w') (hs : w'.session.Below s) :
    Derives env s (.builds d r) w.scene w'.scene := by
  obtain ⟨_, _, -, -, hcourse, rfl⟩ := course_build h ⟨hs, List.prefix_refl _⟩
  have hderives := derives_of_course hcourse
  exact hderives

end Environment

end

end Schemata
