import Schemata.Proofs.Schema.Showing
import Schemata.Proofs.Synthesis.Instances
import Schemata.Proofs.Synthesis.Tenure

/-!
# Where the properties of a schema come from

Every property that a schema shows comes from a property of a type: what holds the type of the
property has been made, annotations have been laid on it, and it has been given the default that the
type's own instance has.  `Origin` says all this of one property.  It is told from a session that
knows of everything that was asked and claimed on the way, so that it stays true while schemas are
stored and further types are met.

`provenance_of_course` is the induction.  A property comes in at a single rule, that of a property
that is shown under its name (`traces_property`); all other rules pass on what their parts show, or
what is stored already.  Beside that it says for which type an entry was stored, and what the entry
of an enumeration is.
-/

namespace Schemata

open Environment (ObjectParts)

section

variable (env : Environment) (s : Session)

/-- **What holds a type was made**, by a synthesis that a session knows all of, and whose claims the
session has kept. -/
def Session.Refers (d : Descriptor) (n : Node) : Prop :=
  ∃ σ σ₁ : Scene, σ.Tended env s ∧ Derives env s (.refers d n) σ σ₁ ∧ σ₁.claims <+: s.claims

/-- **A property of a schema comes from a property of a type.** -/
structure Origin (d : Descriptor) (q : Property) (p : String × Node) : Prop where
  described : s.Describes env d
  shape : d.shape.isInline = false
  property : q ∈ d.properties
  own : q.catchAll = false
  name : q.name = p.1
  dressed : ∃ c x m, Constraints.merge q.annotations = .ok c ∧ s.Settles (env.describe q.type) x ∧
    s.Refers env x m ∧ q.dressed env.captureDefaults d.made c m = .ok p.2

/-- All properties that a node shows come from properties of types. -/
def Node.Originates (n : Node) : Prop :=
  ∀ p, n.Shows p → ∃ d q, Origin env s d q p

/-- What is published of an enumeration. -/
def Descriptor.Enumerates (d : Descriptor) (n : Node) : Prop :=
  ∃ c, Constraints.merge d.annotations = .ok c ∧
    n = c.apply (.leaf { choices := d.members.map .text } (some .string))

/-- **An entry belongs to the type that has its name**, and its properties come from properties of
types. -/
structure Session.Accounts (e : String × Node) : Prop where
  owner : ∃ x, s.Describes env x ∧ Published env s x ∧ x.name = e.1 ∧
    (Walk.scene ⟨s, []⟩).Owns x ∧ (x.shape = .enum → x.Enumerates e.2)
  originates : e.2.Originates env s

/-- All entries of a scene are accounted for. -/
def Scene.Accounted (σ : Scene) : Prop :=
  ∀ e ∈ σ.registry.entries, s.Accounts env e

/-- All properties that a judgement shows come from properties of types. -/
def Judgement.Originates : Judgement → Prop
  | .refers _ n => n.Originates env s
  | .builds _ r => r.node.Originates env s
  | .stores _ _ r => r.node.Originates env s
  | .fills _ _ _ o => o.toNode.Originates env s

/-- What a judgement starts from: a base, or an object and the properties that are to be added. -/
def Judgement.Granted : Judgement → Prop
  | .stores _ base _ => ∀ b, base = some b → b.Originates env s
  | .fills d o qs _ => s.Describes env d ∧ d.shape.isInline = false ∧ qs ⊆ d.properties ∧
      o.toNode.Originates env s
  | _ => True

end

variable {env : Environment} {s : Session} {d x : Descriptor} {n m : Node} {σ σ₁ : Scene}

namespace Node.Originates

theorem of_shows (h : m.Originates env s) (hshows : ∀ p, n.Shows p → m.Shows p) :
    n.Originates env s :=
  fun p hp => h p (hshows p hp)

theorem of_not (h : ∀ p, ¬ n.Shows p) : n.Originates env s :=
  fun p hp => absurd hp (h p)

theorem refTo (name : String) : (Node.refTo name).Originates env s :=
  of_not fun _ => Shows.not_of_nil rfl rfl

theorem emptyObject : Node.emptyObject.Originates env s :=
  of_not fun _ => Shows.not_of_nil rfl rfl

end Node.Originates

namespace Scene.Accounted

theorem of_registry (h : σ.Accounted env s) (heq : σ₁.registry = σ.registry) :
    σ₁.Accounted env s := by
  intro e he
  rw [heq] at he
  exact h e he

/-- An entry that is accounted for is stored. -/
theorem putting (h : σ.Accounted env s) {name : String} (hn : s.Accounts env (name, n)) :
    (σ.putting name n).Accounted env s ∧ (σ.registry.put name n).1.Originates env s := by
  cases hget : σ.registry.get? name with
  | some stored =>
    have hstored := h _ (Registry.mem_entries_of_get? hget)
    unfold Scene.putting
    rw [Registry.put_of_get? hget]
    exact ⟨h, hstored.originates⟩
  | none =>
    refine ⟨fun e he => ?_, ?_⟩
    · rw [Scene.putting, Registry.put_of_free hget, (Registry.grown_store hget).entries] at he
      rcases List.mem_append.mp he with he | he
      · exact h e he
      · rwa [List.mem_singleton.mp he]
    · rw [Registry.put_of_free hget]
      exact hn.originates

end Scene.Accounted

/-- **What a judgement stores is accounted for, and what it shows comes from somewhere**, on its
way from one walk to another. -/
def Judgement.Traces (env : Environment) (s : Session) (w w' : Walk) (J : Judgement) : Prop :=
  w.scene.Tended env s → J.Within env s (s.Describes env) → J.Granted env s →
    w'.scene.claims <+: s.claims → w.scene.Accounted env s →
      w'.scene.Accounted env s ∧ J.Originates env s

section

variable {k : Nat} {b inner : Descriptor} {base : Token} {bases : Option Node} {q : Property}
  {qs : List Property} {c : Constraints} {o o' : ObjectParts} {node stored : Node}
  {w w₁ w₂ w₃ w' : Walk} (hw : s.WellRead env)
include hw

/-! ### What is stored -/

/-- An enumeration is stored for the type that has its name, and shows nothing. -/
theorem traces_enum (hclaim : env.claim d.name d (w.visiting d) = .ok () w₁)
    (hmerge : Constraints.merge d.annotations = .ok c)
    (hput : (Registry.putting d.name
      (c.apply (.leaf { choices := d.members.map .text } (some .string))) : Build Node) w₁ =
        .ok stored w') : (Judgement.stores d bases ⟨stored, true⟩).Traces env s w w' := by
  intro _ hJ _ hclaims haccounted
  have hclaimed := claims_of_claim hclaim
  obtain ⟨rfl, hscene⟩ := scene_of_putting hput
  have howns : (Walk.scene ⟨s, []⟩).Owns d :=
    (hclaimed.owns (same_of_describes hw hJ.1 hJ.2.shape)).mono (by rwa [hscene] at hclaims)
  have hnone (p : String × Node) :
      ¬ (c.apply (.leaf { choices := d.members.map .text } (some .string))).Shows p :=
    Node.Shows.not_of_nil rfl rfl
  rw [hscene]
  exact (haccounted.of_registry hclaimed.claimed.registry).putting
    ⟨⟨d, hJ.1, hJ.2, rfl, howns, fun _ => ⟨c, hmerge, rfl⟩⟩, .of_not hnone⟩

variable (hkeys : env.KeysDistinct)
include hkeys

/-- An object shows its own properties, and those of its base. -/
theorem traces_object (hclaim : env.claim d.name d (w.visiting d) = .ok () w₁)
    (hshape : d.shape ≠ .enum)
    (hfills : Course env s s.instances k
      (.fills d (.ofNode (c.apply .emptyObject)) d.properties o) w₁ w₂)
    (hlearns : w₂.Learns env w₃)
    (hput : (Registry.putting d.name (o.over bases) : Build Node) w₃ = .ok stored w')
    (hown : (Judgement.fills d (.ofNode (c.apply .emptyObject)) d.properties o).Traces env s
      w₁ w₂) : (Judgement.stores d bases ⟨stored, true⟩).Traces env s w w' := by
  intro htended hJ hgranted hclaims haccounted
  have hclaimed := claims_of_claim hclaim
  obtain ⟨rfl, hscene⟩ := scene_of_putting hput
  rw [hscene, hlearns.scene] at hclaims
  have hkept : w₂.scene.claims <+: s.claims := hclaims
  have howns : (Walk.scene ⟨s, []⟩).Owns d :=
    ((hclaimed.owns (same_of_describes hw hJ.1 hJ.2.shape)).mono
      (claims_of_derives (derives_of_course hfills))).mono hkept
  obtain ⟨hentries, ho⟩ := hown (htended.of_claims hw hkeys hclaimed hJ.1 hJ.2) .fills
    ⟨hJ.1, hJ.2.shape, List.Subset.refl _, .of_not fun _ => Node.Shows.not_start⟩ hkept
    (haccounted.of_registry hclaimed.claimed.registry)
  have hover : (o.over bases).Originates env s := by
    intro p hp
    rcases hp.of_over with hp | ⟨b, hb, hp⟩
    · exact ho p hp
    · exact hgranted b hb p hp
  rw [hscene, hlearns.scene]
  exact hentries.putting ⟨⟨d, hJ.1, hJ.2, rfl, howns, fun h => absurd h hshape⟩, hover⟩

/-! ### What is built in place -/

/-- An array of compositions shows the properties of its base and its own. -/
theorem traces_composed (hderived : Derived env s d base c) (harray : c.array = true)
    (hdescribe : s.Settles (env.describe base) b)
    (hbase : Course env s s.instances k (.refers b node) w w₁)
    (hfills : Course env s s.instances k
      (.fills d ((ObjectParts.ofNode .emptyObject).requiring c.required) d.properties o)
      (w₁.visiting d) w₂) (hlearns : w₂.Learns env w₃)
    (hnode : (Judgement.refers b node).Traces env s w w₁)
    (hown : (Judgement.fills d ((ObjectParts.ofNode .emptyObject).requiring c.required)
      d.properties o).Traces env s (w₁.visiting d) w₂) :
    (Judgement.builds d ⟨Constraints.apply { c with required := [] }
      (.array {} (.composition [node, o.toNode] none none)), false⟩).Traces env s w
        (w₃.leaving d) := by
  intro htended hJ _ hclaims haccounted
  have hkept : w₂.scene.claims <+: s.claims := by
    rw [← hlearns.scene]
    exact hclaims
  have hkept₁ : (w₁.visiting d).scene.claims <+: w₂.scene.claims :=
    claims_of_derives (derives_of_course hfills)
  obtain ⟨hentries₁, hm⟩ :=
    hnode htended (.refers hdescribe) trivial (hkept₁.trans hkept) haccounted
  have hvisiting := (htended.of_derives hw hkeys (derives_of_course hbase)
    (.refers hdescribe)).visiting hw hkeys hJ (arrayed_of_derived hderived harray)
  have hstart :
      ((ObjectParts.ofNode .emptyObject).requiring c.required).toNode.Originates env s :=
    .of_not fun _ => Node.Shows.not_of_nil rfl rfl
  obtain ⟨hentries₂, ho⟩ := hown hvisiting .fills
    ⟨hJ, hderived.shape, List.Subset.refl _, hstart⟩ hkept hentries₁
  refine ⟨?_, fun p hp => ?_⟩
  · rw [← hlearns.scene] at hentries₂
    exact hentries₂
  · have hshown : (Constraints.apply { c with required := [] }
        (.array {} (.composition [node, o.toNode] none none))).Shows p := hp
    rcases hshown.of_composed with hp | hp
    · exact hm p hp
    · exact ho p hp

/-! ### What objects are filled with -/

/-- A property that takes all undeclared ones is not shown itself; what is shown of its type is. -/
theorem traces_rest (hdescribe : s.Settles (env.describe q.type) inner)
    (hheld : Course env s s.instances k (.refers inner node) w w₁)
    (hfills : Course env s s.instances k (.fills d (o.accepting c node) qs o') w₁ w')
    (hnode : (Judgement.refers inner node).Traces env s w w₁)
    (hothers : (Judgement.fills d (o.accepting c node) qs o').Traces env s w₁ w') :
    (Judgement.fills d o (q :: qs) o').Traces env s w w' := by
  intro htended _ hgranted hclaims haccounted
  obtain ⟨hd, hshape, hqs, ho⟩ := hgranted
  have hkept := claims_of_derives (derives_of_course hfills)
  obtain ⟨hentries, hm⟩ :=
    hnode htended (.refers hdescribe) trivial (hkept.trans hclaims) haccounted
  refine hothers (htended.of_derives hw hkeys (derives_of_course hheld) (.refers hdescribe)) .fills
    ⟨hd, hshape, (List.cons_subset.mp hqs).2, fun p hp => ?_⟩ hclaims hentries
  rcases hp.of_accepting with hp | hp
  · exact ho p hp
  · exact hm p hp

variable (hrecalls : s.Recalls env)
include hrecalls

/-- A property that is shown under its name comes from the type that has it.  This is where a
property comes in. -/
theorem traces_property {held : Node} (hcatchAll : q.catchAll = false)
    (hmerge : Constraints.merge q.annotations = .ok c)
    (hdescribe : s.Settles (env.describe q.type) inner)
    (hheld : Course env s s.instances k (.refers inner held) w w₁)
    (hdress : env.dress d q c held w₁ = .ok node w₂)
    (hinstances : w₂.session.instances <+: s.instances)
    (hfills : Course env s s.instances k (.fills d (o.adding q c node) qs o') w₂ w')
    (hnode : (Judgement.refers inner held).Traces env s w w₁)
    (hothers : (Judgement.fills d (o.adding q c node) qs o').Traces env s w₂ w') :
    (Judgement.fills d o (q :: qs) o').Traces env s w w' := by
  intro htended _ hgranted hclaims haccounted
  obtain ⟨hd, hshape, hqs, ho⟩ := hgranted
  have hderives := derives_of_course hheld
  have hlearns := (Environment.learns_dress _ _ _ _).ok hdress
  have hkept := claims_of_derives (derives_of_course hfills)
  rw [hlearns.scene] at hkept
  obtain ⟨hentries, hm⟩ :=
    hnode htended (.refers hdescribe) trivial (hkept.trans hclaims) haccounted
  have hdressed := dressed_of_dress hw hkeys hrecalls hd hshape hdress
    (List.IsPrefix.trans hlearns.session.instances hinstances)
  have horigin : Origin env s d q (q.name, node) :=
    ⟨hd, hshape, hqs List.mem_cons_self, hcatchAll, rfl, c, inner, held, hmerge, hdescribe,
      ⟨w.scene, w₁.scene, htended, hderives, hkept.trans hclaims⟩, hdressed⟩
  have htended₁ := htended.of_derives hw hkeys hderives (.refers hdescribe)
  rw [← hlearns.scene] at htended₁ hentries
  refine hothers htended₁ .fills ⟨hd, hshape, (List.cons_subset.mp hqs).2, fun p hp => ?_⟩ hclaims
    hentries
  rcases hp.of_adding with hp | rfl | hp
  · exact ho p hp
  · exact ⟨d, q, horigin⟩
  · exact hm p (hp.of_dress hdress)

/-! ### All courses -/

/-- **Every property that a synthesis shows comes from a property of a type**, and every entry that
it stores belongs to the type that has its name. -/
theorem provenance_of_course {J : Judgement} (h : Course env s s.instances k J w w') :
    J.Traces env s w w' := by
  induction h with
  | learns hlearns _ ih =>
    intro htended hJ hgranted hclaims haccounted
    rw [← hlearns.scene] at htended haccounted
    exact ih htended hJ hgranted hclaims haccounted
  | inPlace _ _ _ ih =>
    intro htended hJ _ hclaims haccounted
    exact ih htended hJ trivial hclaims haccounted
  | known _ _ hclaim =>
    intro _ _ _ _ haccounted
    exact ⟨haccounted.of_registry (claims_of_claim hclaim).claimed.registry, .refTo _⟩
  | awaited =>
    intro _ _ _ _ haccounted
    exact ⟨haccounted, .refTo _⟩
  | @fresh k d r w w' _ _ _ _ _ ih =>
    intro htended hJ _ hclaims haccounted
    obtain ⟨hentries, hnode⟩ := ih htended hJ trivial hclaims haccounted
    refine ⟨hentries, ?_⟩
    show (if r.stored then Node.refTo d.name else r.node).Originates env s
    split
    · exact .refTo _
    · exact hnode
  | plain hplain =>
    intro _ _ _ _ haccounted
    exact ⟨haccounted, .of_not fun _ => hplain.not_shows⟩
  | wrapped hwraps _ _ hinner _ ih =>
    intro htended _ _ hclaims haccounted
    obtain ⟨hentries, hnode⟩ := ih htended (.refers hinner) trivial hclaims haccounted
    exact ⟨hentries, Node.Originates.of_shows hnode fun _ => hwraps.shows⟩
  | @anyMap k d inner c w =>
    intro _ _ _ _ haccounted
    refine ⟨haccounted, .of_not fun p hp => ?_⟩
    have hshown : (c.apply (.object {} [] none (some true))).Shows p := hp
    exact Node.Shows.not_of_nil rfl rfl hshown.of_apply
  | cutArray | cut =>
    intro _ _ _ _ haccounted
    exact ⟨haccounted, .emptyObject⟩
  | root hshape hbase _ ih =>
    intro htended hJ _ hclaims haccounted
    exact ih htended ⟨hJ, published_of_root hshape hbase⟩ nofun hclaims haccounted
  | composed hderived harray _ _ hdescribe hbase _ _ hfills hlearns _ ihrefers ihfills =>
    exact traces_composed hw hkeys hderived harray hdescribe hbase hfills hlearns ihrefers ihfills
  | derived hderived harray hdescribe hbase hstores ihrefers ihstores =>
    intro htended hJ _ hclaims haccounted
    have hkept := claims_of_derives (derives_of_course hstores)
    obtain ⟨hentries, hm⟩ :=
      ihrefers htended (.refers hdescribe) trivial (hkept.trans hclaims) haccounted
    refine ihstores (htended.of_derives hw hkeys (derives_of_course hbase) (.refers hdescribe))
      ⟨hJ, published_of_derived hderived harray⟩ (fun b hb => ?_) hclaims hentries
    cases hb
    exact hm
  | existing _ hclaim hstored =>
    intro _ _ _ _ haccounted
    have hentries := haccounted.of_registry (claims_of_claim hclaim).claimed.registry
    have hget := Registry.mem_entries_of_get? hstored
    exact ⟨hentries, (hentries _ hget).originates⟩
  | enum _ hclaim _ _ hmerge hput => exact traces_enum hw hclaim hmerge hput
  | object _ hclaim _ hshape _ hfills hlearns _ hput ih =>
    exact traces_object hw hkeys hclaim hshape hfills hlearns hput ih
  | done =>
    intro _ _ hgranted _ haccounted
    exact ⟨haccounted, hgranted.2.2.2⟩
  | rest _ _ hdescribe hheld hfills ihrefers ihfills =>
    exact traces_rest hw hkeys hdescribe hheld hfills ihrefers ihfills
  | property hcatchAll hmerge hdescribe hheld hdress hinstances hfills ihrefers ihfills =>
    exact traces_property hw hkeys hrecalls hcatchAll hmerge hdescribe hheld hdress hinstances
      hfills ihrefers ihfills

end

end Schemata
