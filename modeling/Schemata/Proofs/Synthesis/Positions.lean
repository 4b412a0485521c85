import Schemata.Proofs.Synthesis.Exploration
import Schemata.Proofs.Schema.Holding

/-!
# What stands where a type is expected

`Fits env s` says what a node has to be for the type that it stands for, and what the schema of a
type has to be that is stored under its name.  It reads like a derivation without scenes: nothing
counts but the types.  In particular a reference to its name stands for a type that is published by
name (`Fits.eq_refTo`), inside whatever encloses the type (`Fits.holds`); and what is stored for an
object has such a reference wherever the object has such a type, in its properties, in what it
accepts besides and in its base (`Fits.shows_of_stores`).

## Where it fails

A derived type is visited only after its base has been built.  If the base leads back to the type,
then the type is built inside its base first, visited and stored; when it is taken up again it is
found to be visited, and an empty object stands in for it.  `SelfBased` is this situation, and it is
the only one (`visits_of_selfBased`, `selfBased_of_visits`): where no type that has yet to be stored
has a base that leads back to it, all nodes fit (`fits_of_derives`).
-/

namespace Schemata

open Environment (ObjectParts mapInner)

variable {env : Environment} {s : Session} {d : Descriptor} {σ σ₁ σ₂ : Scene}
  {K : List String} {E R : Descriptor → Prop}

section

variable (env : Environment) (s : Session)

/-- **What a node has to be** for the type that it stands for. -/
inductive Fits : Judgement → Prop
  | reference {d : Descriptor} (hpublished : Published env s d) :
      Fits (.refers d (.refTo d.name))
  | plain {d : Descriptor} {n : Node} (hplain : Plain env s d n) : Fits (.refers d n)
  | wrapped {d inner : Descriptor} {t : Token} {n node : Node} (hwraps : Wraps env s d t n node)
      (hinner : s.Settles (env.describe t) inner) (hrefers : Fits (.refers inner n)) :
      Fits (.refers d node)
  | anyMap {d inner : Descriptor} {c : Constraints} (hshape : d.shape = .map)
      (hinner : s.Settles (env.describe (mapInner d)) inner) (hany : inner.shape = .primitive)
      (hmerge : Constraints.merge d.annotations = .ok c) :
      Fits (.refers d (c.apply (.object {} [] none (some true))))
  | composed {d b : Descriptor} {base : Token} {c : Constraints} {n : Node} {o : ObjectParts}
      (hderived : Derived env s d base c) (harray : c.array = true)
      (hdescribe : s.Settles (env.describe base) b) (hrefers : Fits (.refers b n))
      (hfills : Fits (.fills d ((ObjectParts.ofNode .emptyObject).requiring c.required)
        d.properties o)) :
      Fits (.refers d (Constraints.apply { c with required := [] }
        (.array {} (.composition [n, o.toNode] none none))))
  | inside {d : Descriptor} (harrayed : Arrayed env s d) : Fits (.refers d .emptyObject)
  | enum {d : Descriptor} {base : Option Node} {c : Constraints}
      (hpublished : Published env s d) (hshape : d.shape = .enum)
      (hmerge : Constraints.merge d.annotations = .ok c) :
      Fits (.stores d base
        ⟨c.apply (.leaf { choices := d.members.map .text } (some .string)), true⟩)
  | root {d : Descriptor} {c : Constraints} {o : ObjectParts} (hpublished : Published env s d)
      (hshape : d.shape ≠ .enum) (hbase : d.base = none)
      (hmerge : Constraints.merge d.annotations = .ok c)
      (hfills : Fits (.fills d (.ofNode (c.apply .emptyObject)) d.properties o)) :
      Fits (.stores d none ⟨o.toNode, true⟩)
  | derived {d b : Descriptor} {base : Token} {c : Constraints} {n : Node} {o : ObjectParts}
      (hpublished : Published env s d) (hshape : d.shape ≠ .enum) (hbase : d.base = some base)
      (hdescribe : s.Settles (env.describe base) b) (hrefers : Fits (.refers b n))
      (hmerge : Constraints.merge d.annotations = .ok c)
      (hfills : Fits (.fills d (.ofNode (c.apply .emptyObject)) d.properties o)) :
      Fits (.stores d (some n) ⟨o.over (some n), true⟩)
  | done {d : Descriptor} {o : ObjectParts} : Fits (.fills d o [] o)
  | rest {d inner : Descriptor} {o o' : ObjectParts} {q : Property} {qs : List Property}
      {c : Constraints} {n : Node} (hcatchAll : q.catchAll = true)
      (hmerge : Constraints.merge q.annotations = .ok c)
      (hdescribe : s.Settles (env.describe q.type) inner) (hrefers : Fits (.refers inner n))
      (hfills : Fits (.fills d (o.accepting c n) qs o')) : Fits (.fills d o (q :: qs) o')
  | property {d inner : Descriptor} {o o' : ObjectParts} {q : Property} {qs : List Property}
      {c : Constraints} {n node : Node} {w w' : Walk} (hcatchAll : q.catchAll = false)
      (hmerge : Constraints.merge q.annotations = .ok c)
      (hdescribe : s.Settles (env.describe q.type) inner) (hrefers : Fits (.refers inner n))
      (hdress : env.dress d q c n w = .ok node w')
      (hfills : Fits (.fills d (o.adding q c node) qs o')) : Fits (.fills d o (q :: qs) o')

/-- A type is another one inside its wrappers and under its other names. -/
inductive Encloses : Descriptor → Descriptor → Prop
  | self (d : Descriptor) : Encloses d d
  | wrapped {d inner x : Descriptor} {t : Token} {n node : Node} (hwraps : Wraps env s d t n node)
      (hinner : s.Settles (env.describe t) inner) (h : Encloses inner x) : Encloses d x

/-- **A node shows the type of a token**: if what the type encloses is published by name, then the
node holds a reference to the name. -/
def Shows (t : Token) (n : Node) : Prop :=
  ∃ d, s.Settles (env.describe t) d ∧
    ∀ x, Encloses env s d x → Published env s x → n.Holds x.name

/-- A derived type whose base leads back to it. -/
def SelfBased (d : Descriptor) : Prop :=
  ∃ base b x, d.base = some base ∧ s.Settles (env.describe base) b ∧ Reaches env s b x ∧
    Published env s x ∧ d.key.same x.key = true

end

/-! ## What a type published by name is shown by -/

theorem Derived.not_published {base : Token} {c : Constraints} (h : Derived env s d base c)
    (harray : c.array = true) : ¬ Published env s d :=
  (arrayed_of_derived h harray).not_published

theorem not_published_of_map (hshape : d.shape = .map) : ¬ Published env s d := by
  intro hd
  have hinline := hd.shape
  rw [hshape] at hinline
  cases hinline

/-- **A reference to its name stands for a type that is published by name.** -/
theorem Fits.eq_refTo {n : Node} (h : Fits env s (.refers d n)) (hd : Published env s d) :
    n = .refTo d.name := by
  cases h with
  | reference _ => rfl
  | plain hplain => exact absurd hd hplain.not_published
  | wrapped hwraps _ _ => exact absurd hd hwraps.not_published.1
  | anyMap hshape _ _ _ => exact absurd hd (not_published_of_map hshape)
  | composed hderived harray _ _ _ => exact absurd hd (hderived.not_published harray)
  | inside harrayed => exact absurd hd harrayed.not_published

theorem Wraps.holds {n node : Node} {t : Token} {name : String} (h : Wraps env s d t n node)
    (hn : n.Holds name) : node.Holds name := by
  cases h with
  | nullable _ => exact hn.makeNullable
  | array _ _ => exact (Node.Holds.items hn).apply _
  | map _ _ => exact (Node.Holds.values hn).apply _
  | renamed _ _ _ _ _ =>
    refine Node.Holds.apply ?_ _
    split
    · exact .items hn
    · exact hn

/-- A type of any values encloses no other one. -/
theorem Encloses.eq_of_primitive {x : Descriptor} (h : Encloses env s d x)
    (hshape : d.shape = .primitive) : x = d := by
  cases h with
  | self => rfl
  | wrapped hwraps _ _ => exact absurd hwraps.partOf (not_partOf_of_leaf (.inl hshape))

/-- **A type published by name is referred to inside whatever encloses it.** -/
theorem Fits.holds {x : Descriptor} {n : Node} (h : Fits env s (.refers d n))
    (hx : Encloses env s d x) (hpub : Published env s x) : n.Holds x.name := by
  induction hx generalizing n with
  | self d =>
    rw [h.eq_refTo hpub]
    exact .ref
  | @wrapped d inner x t m node hwraps hinner hx ih =>
    cases h with
    | reference hd => exact absurd hd hwraps.not_published.1
    | plain hplain => exact absurd hwraps.partOf hplain.not_partOf
    | @wrapped _ inner' t' n' _ hwraps' hinner' hrefers =>
      obtain rfl := hwraps'.eq_of_partOf hwraps.partOf
      obtain rfl := hinner.unique hinner'
      exact hwraps'.holds (ih hrefers hpub)
    | anyMap hshape hinner' hany _ =>
      obtain rfl := hwraps.eq_of_partOf (.value hshape)
      obtain rfl := hinner.unique hinner'
      obtain rfl := hx.eq_of_primitive hany
      have hinline := hpub.shape
      rw [hany] at hinline
      cases hinline
    | composed hderived harray _ _ _ =>
      exact absurd (arrayed_of_derived hderived harray) hwraps.not_published.2
    | inside harrayed => exact absurd harrayed hwraps.not_published.2

theorem Fits.shows {n : Node} {t : Token} (hd : s.Settles (env.describe t) d)
    (h : Fits env s (.refers d n)) : Shows env s t n :=
  ⟨d, hd, fun _ => h.holds⟩

/-- An object shows the types of its properties, and that of the one that takes the others. -/
theorem Fits.shows_of_fills {o o' : ObjectParts} {qs : List Property}
    (h : Fits env s (.fills d o qs o')) :
    (∀ e ∈ o'.properties, e ∈ o.properties ∨
        ∃ q ∈ qs, q.catchAll = false ∧ q.name = e.1 ∧ Shows env s q.type e.2) ∧
      ∀ v, o'.additional = some v → o.additional = some v ∨
        ∃ q ∈ qs, q.catchAll = true ∧ Shows env s q.type v := by
  induction qs generalizing o with
  | nil =>
    cases h with
    | done => exact ⟨fun _ => .inl, fun _ => .inl⟩
  | cons q qs ih =>
    cases h with
    | @rest _ inner _ _ _ _ c n hcatchAll _ hdescribe hrefers hfills =>
      obtain ⟨hproperties, hadditional⟩ := ih hfills
      constructor
      · intro e he
        rcases hproperties e he with he | ⟨q', hq', h⟩
        · exact .inl (properties_accepting ▸ he)
        · exact .inr ⟨q', List.mem_cons_of_mem _ hq', h⟩
      · intro v hv
        rcases hadditional v hv with hv | ⟨q', hq', h⟩
        · rcases additional_of_accepting hv with hv | ⟨u, hu, rfl⟩
          · exact .inl hv
          · refine .inr ⟨q, List.mem_cons_self, hcatchAll, inner, hdescribe, fun x hx hpub => ?_⟩
            exact ((hrefers.holds hx hpub).catchAllValue hu).apply c
        · exact .inr ⟨q', List.mem_cons_of_mem _ hq', h⟩
    | @property _ inner _ _ _ _ c n node w w' hcatchAll _ hdescribe hrefers hdress hfills =>
      obtain ⟨hproperties, hadditional⟩ := ih hfills
      constructor
      · intro e he
        rcases hproperties e he with he | ⟨q', hq', h⟩
        · rw [properties_adding] at he
          rcases mem_setKey he with he | rfl
          · exact .inl he
          · refine .inr ⟨q, List.mem_cons_self, hcatchAll, rfl, inner, hdescribe, ?_⟩
            exact fun x hx hpub => (hrefers.holds hx hpub).dress hdress
        · exact .inr ⟨q', List.mem_cons_of_mem _ hq', h⟩
      · intro v hv
        rcases hadditional v hv with hv | ⟨q', hq', h⟩
        · exact .inl (additional_adding ▸ hv)
        · exact .inr ⟨q', List.mem_cons_of_mem _ hq', h⟩

/-- **What is stored for an object shows the types of all its parts**: those of its properties, of
the property that takes the others, and of its base. -/
theorem Fits.shows_of_stores {base : Option Node} {r : Built}
    (h : Fits env s (.stores d base r)) (hshape : d.shape ≠ .enum) :
    ∃ o : ObjectParts, r.node = o.over base ∧
      (∀ e ∈ o.properties, ∃ q ∈ d.properties, q.catchAll = false ∧ q.name = e.1 ∧
        Shows env s q.type e.2) ∧
      (∀ v, o.additional = some v → ∃ q ∈ d.properties, q.catchAll = true ∧
        Shows env s q.type v) ∧
      ∀ b, base = some b → ∃ t, d.base = some t ∧ Shows env s t b := by
  have hown {c : Constraints} {o : ObjectParts}
      (hfills : Fits env s (.fills d (.ofNode (c.apply .emptyObject)) d.properties o)) :
      (∀ e ∈ o.properties, ∃ q ∈ d.properties, q.catchAll = false ∧ q.name = e.1 ∧
        Shows env s q.type e.2) ∧
      ∀ v, o.additional = some v → ∃ q ∈ d.properties, q.catchAll = true ∧
        Shows env s q.type v := by
    obtain ⟨hproperties, hadditional⟩ := hfills.shows_of_fills
    have hnone : (ObjectParts.ofNode (c.apply .emptyObject)).additional = none := ite_self none
    constructor
    · exact fun e he => (hproperties e he).resolve_left List.not_mem_nil
    · exact fun v hv => (hadditional v hv).resolve_left (by rw [hnone]; exact nofun)
  cases h with
  | enum _ henum _ => exact absurd henum hshape
  | @root _ c o _ _ _ _ hfills =>
    obtain ⟨hproperties, hadditional⟩ := hown hfills
    exact ⟨o, rfl, hproperties, hadditional, nofun⟩
  | @derived _ b t c n o _ _ hbase hdescribe hrefers _ hfills =>
    obtain ⟨hproperties, hadditional⟩ := hown hfills
    refine ⟨o, rfl, hproperties, hadditional, fun b' hb' => ?_⟩
    cases hb'
    exact ⟨t, hbase, hrefers.shows hdescribe⟩

/-! ## Types whose base leads back to them -/

section

variable (hw : s.WellRead env) (hkeys : env.KeysDistinct)
include hw hkeys

/-- A type that is visited once its base has been built has a base that leads back to it. -/
theorem selfBased_of_visits (hd : s.Describes env d) (hpub : Published env s d) {base : Token}
    {b : Descriptor} {n : Node} (hbase : d.base = some base)
    (hdescribe : s.Settles (env.describe base) b) (hrefers : Derives env s (.refers b n) σ σ₁)
    (howned : σ.names ⊆ σ.claimed) (hbefore : σ.visits d = false) (hafter : σ₁.visits d = true) :
    SelfBased env s d := by
  have hadds : Adds env s (Reaches env s b) σ σ₁ :=
    adds_of_derives (hereditary_reaches b) hrefers .refl howned
  obtain ⟨k, hk, hsame⟩ := List.any_eq_true.mp hafter
  rcases hadds.visited k hk with hk | ⟨x, hx, rfl, ⟨hpub', _⟩ | harr⟩
  · have hvisits : σ.visits d = true := List.any_eq_true.mpr ⟨k, hk, hsame⟩
    cases hbefore.symm.trans hvisits
  · exact ⟨base, b, x, hbase, hdescribe, hx, hpub', hsame⟩
  · have hx' : s.Describes env x :=
      Hereditary.of_reaches hereditary_describes ⟨base, hdescribe⟩ hx
    have hkin := kin_of_same hw hkeys (hpub.knows hd) (harr.knows hx') hpub.shape harr.shape hsame
    have harr' := hkin.symm.alike.arrayed hw (harr.knows hx') (hpub.knows hd) harr
    exact absurd hpub harr'.not_published

/-- **A type whose base leads back to it is visited** once its base has been built, unless it was
stored to begin with. -/
theorem visits_of_selfBased (hd : s.Knows env d) (hshape : d.shape.isInline = false)
    {base : Token} {b : Descriptor} {n : Node} (hbase : d.base = some base)
    (hdescribe : s.Settles (env.describe base) b) (hrefers : Derives env s (.refers b n) σ σ₁)
    (hE : Explored env s K E [] σ) (hfree : d.name ∉ K) (h : SelfBased env s d) :
    σ₁.visits d = true := by
  obtain ⟨base', b', x, hbase', hdescribe', hx, hpub, hsame⟩ := h
  cases hbase.symm.trans hbase'
  cases hdescribe.unique hdescribe'
  obtain ⟨E', hexplores⟩ := explores_of_derives hw hkeys (hereditary_reaches b) hrefers
    .refl hE ⟨base, hdescribe⟩
  have hx' : E' x := Hereditary.of_reaches hexplores.explored.hereditary hexplores.reached hx
  have hkin := kin_of_same hw hkeys hd (hexplores.explored.knows hx') hshape hpub.shape hsame
  rcases hexplores.explored.visited hx' hpub with hname | ⟨y, _, hxy, hk⟩
  · rw [hkin.alike.name] at hname
    exact absurd hname hfree
  · exact List.any_eq_true.mpr ⟨y.key, hk, same_of_kin hsame hkin hxy⟩

end

/-! ## Where all nodes fit -/

/-- What a type has for its base fits. -/
def BaseFits (env : Environment) (s : Session) (d : Descriptor) : Option Node → Prop
  | none => d.base = none
  | some n => ∃ base b, d.base = some base ∧ s.Settles (env.describe base) b ∧
    Fits env s (.refers b n)

/-- Every entry whose name is not an old one is that of a type in a set, and fits. -/
def Scene.Fitting (env : Environment) (s : Session) (K : List String) (R : Descriptor → Prop)
    (σ : Scene) : Prop :=
  ∀ e ∈ σ.registry.entries, e.1 ∉ K →
    ∃ x base, R x ∧ x.name = e.1 ∧ Fits env s (.stores x base ⟨e.2, true⟩)

/-- Where a judgement can be made without an empty object standing in for a type. -/
def Judgement.Placed (env : Environment) (s : Session) (σ : Scene) : Judgement → Prop
  | .refers d _ => s.Describes env d
  | .builds d _ => s.Describes env d ∧
    (Published env s d → σ.visits d = false ∧ d.name ∉ σ.names)
  | .stores d base _ => s.Describes env d ∧ σ.visits d = false ∧ BaseFits env s d base
  | .fills _ _ _ _ => True

/-- What a judgement makes fits. -/
def Judgement.Fitting (env : Environment) (s : Session) : Judgement → Prop
  | .refers d n => Fits env s (.refers d n)
  | .builds d r => if r.stored then Published env s d else Fits env s (.refers d r.node)
  | .stores _ _ r => r.stored = true
  | .fills d o qs o' => Fits env s (.fills d o qs o')

theorem Scene.Fitting.putting (h : σ.Fitting env s K R) {x : Descriptor} {base : Option Node}
    {n : Node} (hx : R x) (hn : Fits env s (.stores x base ⟨n, true⟩)) :
    (σ.putting x.name n).Fitting env s K R := by
  cases hget : σ.registry.get? x.name with
  | some stored =>
    unfold Scene.putting Scene.Fitting
    rw [Registry.put_of_get? hget]
    exact h
  | none =>
    unfold Scene.putting Scene.Fitting
    rw [Registry.put_of_free hget]
    intro e he hfree
    rw [(Registry.grown_store hget).entries] at he
    rcases List.mem_append.mp he with he | he
    · exact h e he hfree
    · rw [List.mem_singleton.mp he]
      exact ⟨x, base, hx, rfl, hn⟩

theorem Scene.Fitting.of_registry (h : σ.Fitting env s K R) (heq : σ₁.registry = σ.registry) :
    σ₁.Fitting env s K R := by
  unfold Scene.Fitting
  rw [heq]
  exact h

/-- A reference stands for what is stored, and what is built in place for anything else. -/
theorem Judgement.Fitting.refers {r : Built} (h : (Judgement.builds d r).Fitting env s) :
    Fits env s (.refers d (if r.stored then .refTo d.name else r.node)) := by
  have hr : if r.stored then Published env s d else Fits env s (.refers d r.node) := h
  by_cases hstored : r.stored = true
  · rw [if_pos hstored] at hr ⊢
    exact .reference hr
  · rw [if_neg hstored] at hr ⊢
    exact hr

/-- A type that is not published by name is built in place. -/
theorem Judgement.Fitting.in_place {r : Built} (h : (Judgement.builds d r).Fitting env s)
    (hpub : ¬ Published env s d) : Fits env s (.refers d r.node) := by
  have hr : if r.stored then Published env s d else Fits env s (.refers d r.node) := h
  by_cases hstored : r.stored = true
  · rw [if_pos hstored] at hr
    exact absurd hr hpub
  · rw [if_neg hstored] at hr
    exact hr

/-- **All nodes fit** where no type that has yet to be stored has a base that leads back to it. -/
theorem fits_of_derives (hw : s.WellRead env) (hkeys : env.KeysDistinct) (hR : Hereditary env s R)
    (hbased : ∀ x, R x → Published env s x → x.name ∉ K → ¬ SelfBased env s x) {J : Judgement}
    (h : Derives env s J σ σ₁) (hJ : J.Within env s R) (howned : σ.Owned env s (s.Describes env))
    (hK : K ⊆ σ.names) (hfitting : σ.Fitting env s K R) (hplaced : J.Placed env s σ) :
    σ₁.Fitting env s K R ∧ J.Fitting env s := by
  induction h with
  | @inPlace d r σ σ' hinline _ ih =>
    have hpub := not_published_of_inline hinline
    obtain ⟨hfitting', hr⟩ := ih hJ howned hK hfitting ⟨hplaced, fun h => absurd h hpub⟩
    exact ⟨hfitting', hr.in_place hpub⟩
  | @fresh d r σ σ' hinline hfree hvisited _ ih =>
    have hplaced' : Published env s d → σ.visits d = false ∧ d.name ∉ σ.names :=
      fun hpub => ⟨hpub.not_visited hvisited, hfree⟩
    obtain ⟨hfitting', hr⟩ := ih hJ howned hK hfitting ⟨hplaced, hplaced'⟩
    exact ⟨hfitting', hr.refers⟩
  | @known d σ σ' hinline hstored hclaims =>
    have hpub := howned.published_of_known hw hkeys id hplaced hinline hstored hclaims
    rw [hclaims.eq_of_claimed (howned.names hstored)]
    exact ⟨hfitting, .reference hpub⟩
  | awaited hinline hvisited harray =>
    have hpub := (howned.published_of_awaited hw hkeys id hplaced hinline hvisited harray).1
    exact ⟨hfitting, .reference hpub⟩
  | plain hplain => exact ⟨hfitting, .plain hplain⟩
  | wrapped hwraps hinner _ ih =>
    obtain ⟨hfitting', hn⟩ :=
      ih (hR hJ ⟨_, hwraps.partOf, hinner⟩) howned hK hfitting ⟨_, hinner⟩
    exact ⟨hfitting', .wrapped hwraps hinner hn⟩
  | anyMap hshape hinner hany hmerge => exact ⟨hfitting, .anyMap hshape hinner hany hmerge⟩
  | cutArray hshape _ harray =>
    exact ⟨hfitting, .inside ((settles_publishesArray harray hshape).mp rfl)⟩
  | @root d r σ σ' hshape hbase _ ih =>
    have hpub : Published env s d := published_of_root hshape hbase
    obtain ⟨hvisits, -⟩ := hplaced.2 hpub
    obtain ⟨hfitting', hstored⟩ :=
      ih ⟨hJ, hpub⟩ howned hK hfitting ⟨hplaced.1, hvisits, hbase⟩
    exact ⟨hfitting', (if_pos hstored).mpr hpub⟩
  | @composed d b base c n o σ σ₁ σ₂ hderived harray hdescribe hrefers hfills ihrefers ihfills =>
    have harr := arrayed_of_derived hderived harray
    have hpart : PartOf env s d base := .base hderived.shape hderived.kind hderived.base
    have hadds := howned.adds hereditary_describes (.refers hdescribe) hrefers
    have howned₁ := (howned.of_adds hadds).visiting hplaced.1 harr
    obtain ⟨hfitting₁, hn⟩ := ihrefers (hR hJ ⟨base, hpart, hdescribe⟩) howned hK hfitting
      ⟨base, hdescribe⟩
    obtain ⟨hfitting₂, ho⟩ := ihfills
      (fun q hq x hx => hR hJ ⟨_, .property hderived.kind (.inr harr) hq, hx⟩) howned₁
      (List.Subset.trans hK hadds.names) hfitting₁ trivial
    exact ⟨hfitting₂, .composed hderived harray hdescribe hn ho⟩
  | @derived d b base c n r σ σ₁ σ₂ hderived harray hdescribe hrefers _ ihrefers ihstores =>
    have hpub := published_of_derived hderived harray
    have hpart : PartOf env s d base := .base hderived.shape hderived.kind hderived.base
    have hadds := howned.adds hereditary_describes (.refers hdescribe) hrefers
    obtain ⟨hvisits, hfree⟩ := hplaced.2 hpub
    obtain ⟨hfitting₁, hn⟩ := ihrefers (hR hJ ⟨base, hpart, hdescribe⟩) howned hK hfitting
      ⟨base, hdescribe⟩
    -- the base does not lead back to the type, so the type is not visited yet
    have hvisits₁ : σ₁.visits d = false := by
      refine Bool.eq_false_iff.mpr fun hvisits₁ => ?_
      refine hbased d hJ hpub (fun hname => hfree (hK hname)) ?_
      exact selfBased_of_visits hw hkeys hplaced.1 hpub hderived.base hdescribe hrefers
        howned.names hvisits hvisits₁
    obtain ⟨hfitting₂, hstored⟩ := ihstores ⟨hJ, hpub⟩ (howned.of_adds hadds)
      (List.Subset.trans hK hadds.names) hfitting₁
      ⟨hplaced.1, hvisits₁, base, b, hderived.base, hdescribe, hn⟩
    exact ⟨hfitting₂, (if_pos hstored).mpr hpub⟩
  | cut hvisited => cases hplaced.2.1.symm.trans hvisited
  | existing _ hclaims _ => exact ⟨hfitting.of_registry hclaims.claimed.registry, rfl⟩
  | @enum d base c n σ σ₁ _ hclaims _ hshape hmerge hn =>
    have hfits : Fits env s (.stores d base ⟨n, true⟩) := by
      rw [hn]
      exact .enum hJ.2 hshape hmerge
    exact ⟨(hfitting.of_registry hclaims.claimed.registry).putting hJ.1 hfits, rfl⟩
  | @object d base c o σ σ₁ σ₂ _ hclaims _ hshape hmerge hfills ih =>
    have hc := hclaims.claimed
    have howned₁ := howned.of_claims hclaims hplaced.1 hJ.2
    have hK₁ : K ⊆ σ₁.names := by
      rw [Scene.names, hc.registry]
      exact hK
    obtain ⟨hfitting₂, ho⟩ := ih
      (fun q hq x hx => hR hJ.1 ⟨_, .property hJ.2.kind (.inl (hJ.2.eq_object hshape)) hq, hx⟩)
      howned₁ hK₁ (hfitting.of_registry hc.registry) trivial
    have hfits : Fits env s (.stores d base ⟨o.over base, true⟩) := by
      cases base with
      | none => exact .root hJ.2 hshape hplaced.2.2 hmerge ho
      | some n =>
        obtain ⟨base, b, hbase, hdescribe, hn⟩ := hplaced.2.2
        exact .derived hJ.2 hshape hbase hdescribe hn hmerge ho
    exact ⟨hfitting₂.putting hJ.1 hfits, rfl⟩
  | done => exact ⟨hfitting, .done⟩
  | @rest d inner o o' q qs c n σ σ₁ σ₂ hcatchAll hmerge hdescribe hrefers _ ihrefers ihfills =>
    have hadds := howned.adds hereditary_describes (.refers hdescribe) hrefers
    obtain ⟨hfitting₁, hn⟩ :=
      ihrefers (hJ q List.mem_cons_self _ hdescribe) howned hK hfitting ⟨_, hdescribe⟩
    obtain ⟨hfitting₂, ho⟩ := ihfills (fun q hq => hJ q (List.mem_cons_of_mem _ hq))
      (howned.of_adds hadds) (List.Subset.trans hK hadds.names) hfitting₁ trivial
    exact ⟨hfitting₂, .rest hcatchAll hmerge hdescribe hn ho⟩
  | @property d inner o o' q qs c n node w w' σ σ₁ σ₂ hcatchAll hmerge hdescribe hrefers
      hdress _ ihrefers ihfills =>
    have hadds := howned.adds hereditary_describes (.refers hdescribe) hrefers
    obtain ⟨hfitting₁, hn⟩ :=
      ihrefers (hJ q List.mem_cons_self _ hdescribe) howned hK hfitting ⟨_, hdescribe⟩
    obtain ⟨hfitting₂, ho⟩ := ihfills (fun q hq => hJ q (List.mem_cons_of_mem _ hq))
      (howned.of_adds hadds) (List.Subset.trans hK hadds.names) hfitting₁ trivial
    exact ⟨hfitting₂, .property hcatchAll hmerge hdescribe hn hdress ho⟩

/-! ## What a host is given -/

/-- A type is stored if and only if it is not visited already. -/
theorem stored_iff_of_stores {base : Option Node} {r : Built}
    (h : Derives env s (.stores d base r) σ σ₁) :
    σ.visits d = true ∧ r = ⟨.emptyObject, false⟩ ∨ σ.visits d = false ∧ r.stored = true := by
  cases h with
  | cut hvisited => exact .inl ⟨hvisited, rfl⟩
  | existing hvisited | enum hvisited | object hvisited => exact .inr ⟨hvisited, rfl⟩

/-- How a type that is published by name is built: its base is referred to, if it has one, and the
type is stored. -/
theorem stores_of_builds {r : Built} (hpub : Published env s d)
    (h : Derives env s (.builds d r) σ σ₁) :
    (d.base = none ∧ Derives env s (.stores d none r) σ σ₁) ∨
      ∃ base b n σ', d.base = some base ∧ s.Settles (env.describe base) b ∧
        Derives env s (.refers b n) σ σ' ∧ Derives env s (.stores d (some n) r) σ' σ₁ := by
  cases h with
  | plain hplain => exact absurd hpub hplain.not_published
  | wrapped hwraps _ _ => exact absurd hpub hwraps.not_published.1
  | anyMap hshape _ _ _ => exact absurd hpub (not_published_of_map hshape)
  | cutArray hshape _ harray =>
    exact absurd hpub ((settles_publishesArray harray hshape).mp rfl).not_published
  | composed hderived harray _ _ _ => exact absurd hpub (hderived.not_published harray)
  | root _ hbase hstores => exact .inl ⟨hbase, hstores⟩
  | derived hderived _ hdescribe hrefers hstores =>
    exact .inr ⟨_, _, _, _, hderived.base, hdescribe, hrefers, hstores⟩

section

variable (hw : s.WellRead env) (hkeys : env.KeysDistinct) (hE : Explored env s K E [] σ)
  (hd : s.Describes env d) (hpub : Published env s d) (hv : σ.visited = [])
include hw hkeys hE hd hpub hv

/-- Building a type that is published by name stores it, or gives an empty object if its base
leads back to it. -/
theorem builds_published {r : Built} (hfree : d.name ∉ K)
    (h : Derives env s (.builds d r) σ σ₁) :
    r.stored = true ∧ ¬ SelfBased env s d ∨ r = ⟨.emptyObject, false⟩ ∧ SelfBased env s d := by
  have hvisits : σ.visits d = false := by
    rw [Scene.visits, hv]
    rfl
  rcases stores_of_builds hpub h with
    ⟨hbase, hstores⟩ | ⟨base, b, n, σ', hbase, hdescribe, hrefers, hstores⟩
  · rcases stored_iff_of_stores hstores with ⟨hvisited, -⟩ | ⟨-, hstored⟩
    · cases hvisits.symm.trans hvisited
    · refine .inl ⟨hstored, ?_⟩
      rintro ⟨base, _, _, hbase', _⟩
      cases hbase.symm.trans hbase'
  · rcases stored_iff_of_stores hstores with ⟨hvisited, hr⟩ | ⟨hvisited, hstored⟩
    · exact .inr ⟨hr, selfBased_of_visits hw hkeys hd hpub hbase hdescribe hrefers
        hE.owned.names hvisits hvisited⟩
    · refine .inl ⟨hstored, fun hself => ?_⟩
      have hvisited' := visits_of_selfBased hw hkeys (hpub.knows hd) hpub.shape hbase
        hdescribe hrefers hE hfree hself
      cases hvisited.symm.trans hvisited'

/-- **What stands for a type that is published by name**, where nothing is being visited: a
reference to its name, or an empty object if it has yet to be stored and its base leads back to
it. -/
theorem refers_published {n : Node} (hK : K = σ.names) (h : Derives env s (.refers d n) σ σ₁) :
    n = .refTo d.name ∧ ¬ (d.name ∉ K ∧ SelfBased env s d) ∨
      n = .emptyObject ∧ d.name ∉ K ∧ SelfBased env s d := by
  cases h with
  | inPlace hinline _ => exact absurd hpub (not_published_of_inline hinline)
  | known _ hstored _ => exact .inl ⟨rfl, fun hfree => hfree.1 (hK ▸ hstored)⟩
  | awaited _ hvisited _ =>
    rw [Scene.visits, hv] at hvisited
    cases hvisited
  | fresh _ hfree _ hbuilds =>
    rw [← hK] at hfree
    rcases builds_published hw hkeys hE hd hpub hv hfree hbuilds with
      ⟨hstored, hself⟩ | ⟨rfl, hself⟩
    · rw [if_pos hstored]
      exact .inl ⟨rfl, fun h => hself h.2⟩
    · exact .inr ⟨rfl, hfree, hself⟩

end

end Schemata
