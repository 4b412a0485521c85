import Schemata.Proofs.Synthesis.Ownership

/-!
# What a synthesis explores

A synthesis goes through the graph of types like a depth-first search, and it stops early at types
that are stored, visited or claimed.  What it leaves out where it stops has been gone through
before, or will be when the types under construction are finished.

`Explored env s K E G σ` is the invariant.  The types in `E` have been entered; those in `G` among
them are still under construction.  What a finished type points at is in `E` too, and a finished
type that is published by name is stored.  The list `K` holds the names that were stored at the
start; everything published that was entered since then is visited.

`explores_of_derives` takes the invariant along a derivation: more types are entered, the subject
of the derivation among them, and none that it does not lead to.
-/

namespace Schemata

open Environment (mapInner ObjectParts)

variable {env : Environment} {s : Session} {d : Descriptor} {σ σ₁ σ₂ : Scene}
  {K : List String} {E R : Descriptor → Prop} {G : List Descriptor}

/-- A type is none of some types. -/
def Descriptor.Apart (d : Descriptor) (G : List Descriptor) : Prop :=
  ∀ g ∈ G, ¬ d.Kin g

/-- A set of types and one more. -/
def Joined (d : Descriptor) (E : Descriptor → Prop) (x : Descriptor) : Prop :=
  x = d ∨ E x

/-- What stands for a part of a type stands for a type in a set. -/
def Covers (env : Environment) (s : Session) (E : Descriptor → Prop) (t : Token) : Prop :=
  ∃ y, E y ∧ s.Settles (env.describe t) y

/-- **What has been explored.** -/
structure Explored (env : Environment) (s : Session) (K : List String) (E : Descriptor → Prop)
    (G : List Descriptor) (σ : Scene) : Prop where
  knows : ∀ {x}, E x → s.Knows env x
  owned : σ.Owned env s E
  parts : ∀ {x t}, E x → x.Apart G → PartOf env s x t → Covers env s E t
  stored : ∀ {x}, E x → x.Apart G → Published env s x → x.name ∈ σ.names
  visited : ∀ {x}, E x → Published env s x →
    x.name ∈ K ∨ ∃ y, E y ∧ x.Kin y ∧ y.key ∈ σ.visited

theorem Covers.mono {E' : Descriptor → Prop} {t : Token} (h : Covers env s E t)
    (hE : ∀ {x}, E x → E' x) : Covers env s E' t :=
  let ⟨y, hy, ht⟩ := h
  ⟨y, hE hy, ht⟩

theorem Descriptor.Apart.of_kin {x : Descriptor} (h : d.Apart G) (hkin : x.Kin d) : x.Apart G :=
  fun g hg hx => h g hg (hkin.symm.trans hx)

namespace Explored

theorem describes (h : Explored env s K E G σ) {x : Descriptor} (hx : E x) :
    s.Describes env x :=
  (h.knows hx).described

/-- Another type has been explored. -/
theorem join (h : Explored env s K E G σ) (hd : s.Knows env d)
    (hparts : d.Apart G → ∀ {t}, PartOf env s d t → Covers env s E t)
    (hstored : d.Apart G → Published env s d → d.name ∈ σ.names)
    (hvisited : Published env s d →
      d.name ∈ K ∨ ∃ y, E y ∧ d.Kin y ∧ y.key ∈ σ.visited) :
    Explored env s K (Joined d E) G σ where
  knows := by
    rintro x (rfl | hx)
    · exact hd
    · exact h.knows hx
  owned := h.owned.mono .inr
  parts := by
    rintro x t (rfl | hx) hapart ht
    · exact (hparts hapart ht).mono .inr
    · exact (h.parts hx hapart ht).mono .inr
  stored := by
    rintro x (rfl | hx) hapart hpub
    · exact hstored hapart hpub
    · exact h.stored hx hapart hpub
  visited := by
    rintro x (rfl | hx) hpub
    · rcases hvisited hpub with hname | ⟨y, hy, hkin, hk⟩
      · exact .inl hname
      · exact .inr ⟨y, .inr hy, hkin, hk⟩
    · rcases h.visited hx hpub with hname | ⟨y, hy, hkin, hk⟩
      · exact .inl hname
      · exact .inr ⟨y, .inr hy, hkin, hk⟩

/-- A type that is not published, and whose parts have been explored. -/
theorem join_passing (h : Explored env s K E G σ) (hd : s.Knows env d)
    (hparts : ∀ {t}, PartOf env s d t → Covers env s E t) (hpub : ¬ Published env s d) :
    Explored env s K (Joined d E) G σ :=
  h.join hd (fun _ => hparts) (fun _ h => absurd h hpub) fun h => absurd h hpub

/-- A type of any values leads nowhere. -/
theorem join_primitive (h : Explored env s K E G σ) (hd : s.Describes env d)
    (hshape : d.shape = .primitive) : Explored env s K (Joined d E) G σ := by
  have hinline : d.shape.isInline = true := by
    rw [hshape]
    rfl
  refine h.join_passing ⟨hd, fun hnamed => ?_⟩
    (fun ht => absurd ht (not_partOf_of_leaf (.inl hshape))) fun hpub => ?_
  · cases hinline.symm.trans hnamed
  · cases hinline.symm.trans hpub.shape

/-- A map leads to its values only. -/
theorem join_map (h : Explored env s K E G σ) (hd : s.Knows env d) (hshape : d.shape = .map)
    (hvalue : Covers env s E (mapInner d)) : Explored env s K (Joined d E) G σ := by
  have hinline : d.shape.isInline = true := by
    rw [hshape]
    rfl
  refine h.join_passing hd (fun ht => ?_) fun hpub => ?_
  · rcases partOf_inline hinline ht with ⟨h | h, _⟩ | ⟨_, rfl⟩
    · cases hshape.symm.trans h
    · cases hshape.symm.trans h
    · exact hvalue
  · cases hinline.symm.trans hpub.shape

/-- Another descriptor of a type that has been entered. -/
theorem join_kin (hw : s.WellRead env) (h : Explored env s K E G σ) (hd : s.Knows env d)
    {x : Descriptor} (hx : E x) (hkin : x.Kin d) : Explored env s K (Joined d E) G σ := by
  have hpublished (hpub : Published env s d) : Published env s x :=
    hkin.symm.alike.published hw hd (h.knows hx) hpub
  refine h.join hd (fun hapart t ht => ?_) (fun hapart hpub => ?_) fun hpub => ?_
  · exact h.parts hx (hapart.of_kin hkin) (hkin.symm.alike.partOf hw hd (h.knows hx) ht)
  · rw [hkin.alike.name]
    exact h.stored hx (hapart.of_kin hkin) (hpublished hpub)
  · rw [hkin.alike.name]
    rcases h.visited hx (hpublished hpub) with hname | ⟨y, hy, hxy, hk⟩
    · exact .inl hname
    · exact .inr ⟨y, hy, hkin.symm.trans hxy, hk⟩

/-- **A type is entered**: from now on it is under construction. -/
theorem enter (h : Explored env s K E G σ) (hd : s.Knows env d)
    (howned : σ₁.Owned env s (Joined d E)) (hnames : σ₁.names = σ.names)
    (hvisited : σ₁.visited = d.key :: σ.visited) :
    Explored env s K (Joined d E) (d :: G) σ₁ where
  knows := by
    rintro x (rfl | hx)
    · exact hd
    · exact h.knows hx
  owned := howned
  parts := by
    rintro x t (rfl | hx) hapart ht
    · exact absurd (.refl x) (hapart x List.mem_cons_self)
    · exact (h.parts hx (fun g hg => hapart g (List.mem_cons_of_mem _ hg)) ht).mono .inr
  stored := by
    rintro x (rfl | hx) hapart hpub
    · exact absurd (.refl x) (hapart x List.mem_cons_self)
    · rw [hnames]
      exact h.stored hx (fun g hg => hapart g (List.mem_cons_of_mem _ hg)) hpub
  visited := by
    rw [hvisited]
    rintro x (rfl | hx) hpub
    · exact .inr ⟨x, .inl rfl, .refl x, List.mem_cons_self⟩
    · rcases h.visited hx hpub with hname | ⟨y, hy, hkin, hk⟩
      · exact .inl hname
      · exact .inr ⟨y, .inr hy, hkin, List.mem_cons_of_mem _ hk⟩

theorem enter_of_claims (h : Explored env s K E G σ) (hd : s.Knows env d)
    (hclaims : (σ.visiting d).Claims d σ₁) (hpub : Published env s d) :
    Explored env s K (Joined d E) (d :: G) σ₁ := by
  have hc := hclaims.claimed
  refine h.enter hd ((h.owned.mono .inr).of_claims hclaims (.inl rfl) hpub) ?_ hc.visited
  rw [Scene.names, hc.registry]
  rfl

/-- A type that has been entered is visited once more. -/
theorem visit (h : Explored env s K E G σ) (howned : σ₁.Owned env s E)
    (hnames : σ₁.names = σ.names) (hvisited : σ₁.visited = d.key :: σ.visited) :
    Explored env s K E G σ₁ where
  knows := h.knows
  owned := howned
  parts := h.parts
  stored := by
    rw [hnames]
    exact h.stored
  visited := by
    intro x hx hpub
    rw [hvisited]
    rcases h.visited hx hpub with hname | ⟨y, hy, hkin, hk⟩
    · exact .inl hname
    · exact .inr ⟨y, hy, hkin, List.mem_cons_of_mem _ hk⟩

/-- **A type is finished**: its parts have been explored, and it is stored if it is published. -/
theorem leave (hw : s.WellRead env) (h : Explored env s K E (d :: G) σ) (hd : s.Knows env d)
    (hparts : ∀ {t}, PartOf env s d t → Covers env s E t) (howned : σ₁.Owned env s E)
    (hnames : σ.names ⊆ σ₁.names) (hstored : Published env s d → d.name ∈ σ₁.names)
    (hvisited : ∀ {y}, E y → Published env s y → y.key ∈ σ.visited → y.key ∈ σ₁.visited) :
    Explored env s K E G σ₁ where
  knows := h.knows
  owned := howned
  parts := by
    intro x t hx hapart ht
    by_cases hkin : x.Kin d
    · exact hparts (hkin.alike.partOf hw (h.knows hx) hd ht)
    · exact h.parts hx (List.forall_mem_cons.mpr ⟨hkin, hapart⟩) ht
  stored := by
    intro x hx hapart hpub
    by_cases hkin : x.Kin d
    · rw [← hkin.alike.name]
      exact hstored (hkin.alike.published hw (h.knows hx) hd hpub)
    · exact hnames (h.stored hx (List.forall_mem_cons.mpr ⟨hkin, hapart⟩) hpub)
  visited := by
    intro x hx hpub
    rcases h.visited hx hpub with hname | ⟨y, hy, hkin, hk⟩
    · exact .inl hname
    · have hpub' := hkin.alike.published hw (h.knows hx) (h.knows hy) hpub
      exact .inr ⟨y, hy, hkin, hvisited hy hpub' hk⟩

/-- A type that is published by name is finished when it is stored. -/
theorem leave_putting (hw : s.WellRead env) (h : Explored env s K E (d :: G) σ)
    (hd : s.Knows env d) (hpub : Published env s d) (n : Node) (hclaimed : d.name ∈ σ.claimed)
    (hbase : ∀ t, d.base = some t → Covers env s E t)
    (hproperties : d.shape = .object → ∀ q ∈ d.properties, Covers env s E q.type) :
    Explored env s K E G (σ.putting d.name n) := by
  refine h.leave hw hd (fun ht => ?_) (h.owned.putting n hclaimed)
    (fun name hname => Scene.mem_names_putting.mpr (.inl hname))
    (fun _ => Scene.mem_names_putting.mpr (.inr rfl)) (fun _ _ => id)
  rcases (partOf_named hpub.shape ht).2 with ht | ⟨hobject | harr, q, hq, rfl⟩
  · exact hbase _ ht
  · exact hproperties hobject q hq
  · exact absurd hpub harr.not_published

/-- A type that is composed in place is finished when it is no longer visited. -/
theorem leave_leaving (hw : s.WellRead env) (hkeys : env.KeysDistinct)
    (h : Explored env s K E (d :: G) σ) (hd : s.Knows env d) (harr : Arrayed env s d)
    (hbase : ∀ t, d.base = some t → Covers env s E t)
    (hproperties : ∀ q ∈ d.properties, Covers env s E q.type) :
    Explored env s K E G (σ.leaving d) := by
  refine h.leave hw hd (fun ht => ?_) (h.owned.leaving d) (fun _ => id)
    (fun hpub => absurd hpub harr.not_published) fun {y} hy hpub hk => ?_
  · rcases (partOf_named harr.shape ht).2 with ht | ⟨_, q, hq, rfl⟩
    · exact hbase _ ht
    · exact hproperties q hq
  · -- no longer visited is the type itself, and it is none of those published by name
    refine List.mem_filter.mpr ⟨hk, Bool.not_eq_true' _ ▸ Bool.eq_false_iff.mpr ?_⟩
    intro hsame
    have hkin := kin_of_same hw hkeys hd (h.knows hy) harr.shape hpub.shape hsame
    exact (hkin.alike.arrayed hw hd (h.knows hy) harr).not_published hpub

end Explored

/-! ## Derivations -/

/-- What has to be explored before a judgement. -/
def Judgement.Ready (env : Environment) (s : Session) (E : Descriptor → Prop) :
    Judgement → Prop
  | .refers d _ => s.Describes env d
  | .builds d _ => s.Knows env d
  | .stores d _ _ => s.Knows env d ∧ ∀ t, d.base = some t → Covers env s E t
  | .fills _ _ _ _ => True

/-- What has been explored after a judgement. -/
def Judgement.Reached (env : Environment) (s : Session) (E : Descriptor → Prop) :
    Judgement → Prop
  | .refers d _ => E d
  | .builds d _ => E d
  | .stores d _ _ => E d
  | .fills _ _ qs _ => ∀ q ∈ qs, Covers env s E q.type

/-- More types have been explored, all of them in a set. -/
structure Explores (env : Environment) (s : Session) (K : List String) (R : Descriptor → Prop)
    (E : Descriptor → Prop) (G : List Descriptor) (J : Judgement) (σ₁ : Scene)
    (E' : Descriptor → Prop) : Prop where
  kept : ∀ {x}, E x → E' x
  new : ∀ {x}, E' x → E x ∨ R x
  explored : Explored env s K E' G σ₁
  reached : J.Reached env s E'

namespace Explores

variable {E₁ E₂ : Descriptor → Prop} {G₁ : List Descriptor} {J J₁ : Judgement}

/-- One judgement has been derived after another. -/
theorem after (h₁ : Explores env s K R E G₁ J₁ σ₁ E₁) (h₂ : Explores env s K R E₁ G J σ₂ E₂) :
    Explores env s K R E G J σ₂ E₂ where
  kept hx := h₂.kept (h₁.kept hx)
  new hx := by
    rcases h₂.new hx with hx | hx
    · exact h₁.new hx
    · exact .inr hx
  explored := h₂.explored
  reached := h₂.reached

/-- What has been explored is what had to be. -/
theorem of_reached (h : Explores env s K R E G J₁ σ₁ E₁) (hreached : J.Reached env s E₁) :
    Explores env s K R E G J σ₁ E₁ :=
  ⟨h.kept, h.new, h.explored, hreached⟩

/-- A property has been added, and then the others. -/
theorem cons {inner : Descriptor} {n : Node} {o o' o₁ : ObjectParts} {q : Property}
    {qs : List Property} (hdescribe : s.Settles (env.describe q.type) inner)
    (h₁ : Explores env s K R E G (.refers inner n) σ₁ E₁)
    (h₂ : Explores env s K R E₁ G (.fills d o₁ qs o') σ₂ E₂) :
    Explores env s K R E G (.fills d o (q :: qs) o') σ₂ E₂ :=
  (h₁.after h₂).of_reached
    (List.forall_mem_cons.mpr ⟨⟨inner, h₂.kept h₁.reached, hdescribe⟩, h₂.reached⟩)

/-- A type has been entered, its parts have been explored, and it has been finished. -/
theorem finish (h : Explores env s K R (Joined d E) G₁ J₁ σ₁ E₁) (hd : R d)
    (hleft : Explored env s K E₁ G σ₂) (hreached : E₁ d → J.Reached env s E₁) :
    Explores env s K R E G J σ₂ E₁ where
  kept hx := h.kept (.inr hx)
  new hx := by
    rcases h.new hx with (rfl | hx) | hx
    · exact .inr hd
    · exact .inl hx
    · exact .inr hx
  explored := hleft
  reached := hreached (h.kept (.inl rfl))

/-- One more type has been explored. -/
theorem join (hE : Explored env s K (Joined d E) G σ) (hd : R d)
    (hreached : J.Reached env s (Joined d E)) : Explores env s K R E G J σ (Joined d E) where
  kept := .inr
  new := by
    rintro x (rfl | hx)
    · exact .inr hd
    · exact .inl hx
  explored := hE
  reached := hreached

end Explores

section

variable (hw : s.WellRead env) (hkeys : env.KeysDistinct)
include hw hkeys

/-- A type that is being visited has been entered. -/
theorem Explored.join_of_visits (h : Explored env s K E G σ) (hd : s.Knows env d)
    (hshape : d.shape.isInline = false) (hvisited : σ.visits d = true) :
    Explored env s K (Joined d E) G σ := by
  obtain ⟨x, hx, -, hkin, -⟩ := h.owned.kin_of_visits hw hkeys h.describes hd hshape hvisited
  exact h.join_kin hw hd hx hkin.symm

/-- A type whose name is claimed for it has been entered. -/
theorem Explored.join_of_claims (h : Explored env s K E G σ) (hd : s.Knows env d)
    (hshape : d.shape.isInline = false) {owner : Key}
    (howner : getKey? d.name σ.claims = some owner) (hsame : owner.same d.key = true) :
    Explored env s K (Joined d E) G σ := by
  obtain ⟨x, hx, hkin, -⟩ := h.owned.kin_of_claims hw hkeys h.describes hd hshape howner hsame
  exact h.join_kin hw hd hx hkin

/-! ### The rules -/

/-- **A judgement explores**: wherever what has to be has been explored before, its subject has been
explored after it. -/
def Judgement.Explores (env : Environment) (s : Session) (K : List String)
    (R : Descriptor → Prop) (σ σ₁ : Scene) (J : Judgement) : Prop :=
  ∀ ⦃E : Descriptor → Prop⦄ ⦃G : List Descriptor⦄, J.Within env s R → Explored env s K E G σ →
    J.Ready env s E → ∃ E', Schemata.Explores env s K R E G J σ₁ E'

section

variable {b inner : Descriptor} {base t : Token} {bases : Option Node} {q : Property}
  {qs : List Property} {c : Constraints} {o o' o₁ : ObjectParts} {n node : Node} {r : Built}
  (hR : Hereditary env s R)

omit hw hkeys in
/-- A property is explored, and then the others are. -/
theorem explores_cons (hdescribe : s.Settles (env.describe q.type) inner)
    (hrefers : (Judgement.refers inner n).Explores env s K R σ σ₁)
    (hothers : (Judgement.fills d o₁ qs o').Explores env s K R σ₁ σ₂) :
    (Judgement.fills d o (q :: qs) o').Explores env s K R σ σ₂ := by
  intro E G hJ hE _
  obtain ⟨E₁, h₁⟩ := hrefers (hJ q List.mem_cons_self _ hdescribe) hE ⟨_, hdescribe⟩
  obtain ⟨E₂, h₂⟩ := hothers (fun q hq => hJ q (List.mem_cons_of_mem _ hq)) h₁.explored trivial
  exact ⟨E₂, .cons hdescribe h₁ h₂⟩

/-- A type that is stored already and whose name is claimed for it has been entered before. -/
theorem explores_existing (hclaims : (σ.visiting d).Claims d σ₁)
    (hstored : σ₁.registry.get? d.name = some n) :
    (Judgement.stores d bases ⟨n, true⟩).Explores env s K R σ σ₁ := by
  intro E G hJ hE hready
  have hc := hclaims.claimed
  have hnames : σ₁.names = σ.names := by
    rw [Scene.names, hc.registry]
    rfl
  have hclaimed : d.name ∈ σ.claimed :=
    hE.owned.names (hnames ▸ Registry.mem_names_of_get? hstored)
  obtain ⟨owner, howner, hsame⟩ := hclaims.owner hclaimed
  have hjoined := hE.join_of_claims hw hkeys hready.1 hJ.2.shape howner hsame
  have hE' : Explored env s K (Joined d E) G σ₁ :=
    hjoined.visit (hjoined.owned.of_claims hclaims (.inl rfl) hJ.2) hnames hc.visited
  exact ⟨_, .join hE' hJ.1 (.inl rfl)⟩

include hR

omit hw hkeys in
/-- A map of values of any type leads to their type, which leads nowhere. -/
theorem explores_anyMap (hshape : d.shape = .map)
    (hinner : s.Settles (env.describe (mapInner d)) inner) (hany : inner.shape = .primitive) :
    (Judgement.builds d r).Explores env s K R σ σ := by
  intro E G hJ hE hready
  have hE₁ := hE.join_primitive ⟨_, hinner⟩ hany
  have hR₁ : R inner := hR hJ ⟨_, .value hshape, hinner⟩
  have h₁ : Explores env s K R E G (.refers inner default) σ _ := .join hE₁ hR₁ (.inl rfl)
  have hE₂ := hE₁.join_map hready hshape ⟨inner, .inl rfl, hinner⟩
  exact ⟨_, h₁.after (.join hE₂ hJ (.inl rfl))⟩

/-- An array of compositions is entered after its base, and left after its own properties. -/
theorem explores_composed (hderived : Derived env s d base c) (harray : c.array = true)
    (hdescribe : s.Settles (env.describe base) b)
    (hrefers : (Judgement.refers b n).Explores env s K R σ σ₁)
    (hown : (Judgement.fills d o d.properties o').Explores env s K R (σ₁.visiting d) σ₂) :
    (Judgement.builds d r).Explores env s K R σ (σ₂.leaving d) := by
  intro E G hJ hE hready
  have harr := arrayed_of_derived hderived harray
  have hpart : PartOf env s d base := .base hderived.shape hderived.kind hderived.base
  obtain ⟨E₁, h₁⟩ := hrefers (hR hJ ⟨base, hpart, hdescribe⟩) hE ⟨base, hdescribe⟩
  have hentered : Explored env s K (Joined d E₁) (d :: G) (σ₁.visiting d) :=
    h₁.explored.enter hready ((h₁.explored.owned.mono .inr).visiting (.inl rfl) harr) rfl rfl
  obtain ⟨E₂, h₂⟩ := hown
    (fun q hq x hx => hR hJ ⟨_, .property hderived.kind (.inr harr) hq, hx⟩) hentered trivial
  have hbase : ∀ t, d.base = some t → Covers env s E₂ t := by
    intro t ht
    cases hderived.base.symm.trans ht
    exact ⟨b, h₂.kept (.inr h₁.reached), hdescribe⟩
  have hleft := h₂.explored.leave_leaving hw hkeys hready harr hbase h₂.reached
  exact ⟨E₂, h₁.after (h₂.finish hJ hleft id)⟩

omit hw hkeys in
/-- A derived type is stored after its base has been explored. -/
theorem explores_derived (hderived : Derived env s d base c) (harray : c.array = false)
    (hdescribe : s.Settles (env.describe base) b)
    (hrefers : (Judgement.refers b n).Explores env s K R σ σ₁)
    (hstores : (Judgement.stores d (some n) r).Explores env s K R σ₁ σ₂) :
    (Judgement.builds d r).Explores env s K R σ σ₂ := by
  intro E G hJ hE hready
  have hpart : PartOf env s d base := .base hderived.shape hderived.kind hderived.base
  obtain ⟨E₁, h₁⟩ := hrefers (hR hJ ⟨base, hpart, hdescribe⟩) hE ⟨base, hdescribe⟩
  have hbase : ∀ t, d.base = some t → Covers env s E₁ t := by
    intro t ht
    cases hderived.base.symm.trans ht
    exact ⟨b, h₁.reached, hdescribe⟩
  obtain ⟨E₂, h₂⟩ :=
    hstores ⟨hJ, published_of_derived hderived harray⟩ h₁.explored ⟨hready, hbase⟩
  exact ⟨E₂, h₁.after (h₂.of_reached h₂.reached)⟩

omit hkeys in
/-- An object is entered when its name is claimed, and left when it is stored. -/
theorem explores_object (hclaims : (σ.visiting d).Claims d σ₁) (hshape : d.shape ≠ .enum)
    (hfills : Derives env s (.fills d o d.properties o') σ₁ σ₂)
    (hown : (Judgement.fills d o d.properties o').Explores env s K R σ₁ σ₂) :
    (Judgement.stores d bases ⟨node, true⟩).Explores env s K R σ
      (σ₂.putting d.name (o'.over bases)) := by
  intro E G hJ hE hready
  have hentered := hE.enter_of_claims hready.1 hclaims hJ.2
  have hobject := hJ.2.eq_object hshape
  obtain ⟨E', h⟩ := hown
    (fun q hq x hx => hR hJ.1 ⟨_, .property hJ.2.kind (.inl hobject) hq, hx⟩) hentered trivial
  have hclaimed : d.name ∈ σ₂.claimed := by
    have hadds :=
      (hentered.owned.mono hentered.describes).adds hereditary_describes .fills hfills
    exact hadds.claimed_subset hclaims.claimed.claimed
  have hleft := h.explored.leave_putting hw hready.1 hJ.2 (o'.over bases) hclaimed
    (fun t ht => (hready.2 t ht).mono fun hx => h.kept (.inr hx)) fun _ => h.reached
  exact ⟨E', h.finish hJ.1 hleft id⟩

/-- **A derivation explores** its subject and what the subject leads to. -/
theorem explores_of_derives {J : Judgement} (h : Derives env s J σ σ₁) :
    J.Explores env s K R σ σ₁ := by
  induction h with
  | @inPlace d r σ σ' hinline _ ih =>
    intro E G hJ hE hready
    obtain ⟨E', h⟩ := ih hJ hE (knows_of_isInline hready hinline)
    exact ⟨E', h.of_reached h.reached⟩
  | @fresh d r σ σ' hinline _ _ _ ih =>
    intro E G hJ hE hready
    obtain ⟨E', h⟩ := ih hJ hE (knows_of_isInline hready hinline)
    exact ⟨E', h.of_reached h.reached⟩
  | @known d σ σ' hinline hstored hclaims =>
    intro E G hJ hE hready
    have hd : s.Knows env d := knows_of_isInline hready hinline
    have hshape := (settles_isInline_false hinline).1
    have hclaimed := hE.owned.names hstored
    obtain ⟨owner, howner, hsame⟩ := hclaims.owner hclaimed
    rw [hclaims.eq_of_claimed hclaimed]
    exact ⟨_, .join (hE.join_of_claims hw hkeys hd hshape howner hsame) hJ (.inl rfl)⟩
  | @awaited d σ hinline hvisited _ =>
    intro E G hJ hE hready
    have hd : s.Knows env d := knows_of_isInline hready hinline
    have hshape := (settles_isInline_false hinline).1
    exact ⟨_, .join (hE.join_of_visits hw hkeys hd hshape hvisited) hJ (.inl rfl)⟩
  | plain hplain =>
    intro E G hJ hE hready
    have hE' := hE.join_passing hready (fun ht => absurd ht hplain.not_partOf)
      hplain.not_published
    exact ⟨_, .join hE' hJ (.inl rfl)⟩
  | @wrapped d inner t n node σ σ' hwraps hinner _ ih =>
    intro E G hJ hE hready
    obtain ⟨E₁, h₁⟩ := ih (hR hJ ⟨t, hwraps.partOf, hinner⟩) hE ⟨t, hinner⟩
    have hE' := h₁.explored.join_passing hready (fun ht => ?_) hwraps.not_published.1
    · exact ⟨_, h₁.after (.join hE' hJ (.inl rfl))⟩
    · rw [hwraps.eq_of_partOf ht]
      exact ⟨inner, h₁.reached, hinner⟩
  | anyMap hshape hinner hany _ => exact explores_anyMap hR hshape hinner hany
  | cutArray hshape hvisited _ =>
    intro E G hJ hE hready
    exact ⟨_, .join (hE.join_of_visits hw hkeys hready hshape hvisited) hJ (.inl rfl)⟩
  | root hshape hbase _ ih =>
    intro E G hJ hE hready
    have hbase' : ∀ t, _ = some t → Covers env s E t := fun t ht => by
      cases hbase.symm.trans ht
    obtain ⟨E', h⟩ := ih ⟨hJ, published_of_root hshape hbase⟩ hE ⟨hready, hbase'⟩
    exact ⟨E', h.of_reached h.reached⟩
  | composed hderived harray hdescribe _ _ ihrefers ihfills =>
    exact explores_composed hw hkeys hR hderived harray hdescribe ihrefers ihfills
  | derived hderived harray hdescribe _ _ ihrefers ihstores =>
    exact explores_derived hR hderived harray hdescribe ihrefers ihstores
  | cut hvisited =>
    intro E G hJ hE hready
    exact ⟨_, .join (hE.join_of_visits hw hkeys hready.1 hJ.2.shape hvisited) hJ.1 (.inl rfl)⟩
  | existing _ hclaims hstored => exact explores_existing hw hkeys hclaims hstored
  | @enum d base c n σ σ₁ _ hclaims _ hshape _ _ =>
    intro E G hJ hE hready
    have hentered := hE.enter_of_claims hready.1 hclaims hJ.2
    have hE' := hentered.leave_putting hw hready.1 hJ.2 n hclaims.claimed.claimed
      (fun t ht => (hready.2 t ht).mono .inr)
      fun hobject => by cases hshape.symm.trans hobject
    exact ⟨_, .join hE' hJ.1 (.inl rfl)⟩
  | object _ hclaims _ hshape _ hfills ih => exact explores_object hw hR hclaims hshape hfills ih
  | done => exact fun E G _ hE _ => ⟨E, id, .inl, hE, fun _ hq => absurd hq List.not_mem_nil⟩
  | rest _ _ hdescribe _ _ ihrefers ihfills => exact explores_cons hdescribe ihrefers ihfills
  | property _ _ hdescribe _ _ _ ihrefers ihfills =>
    exact explores_cons hdescribe ihrefers ihfills

end

end

/-! ## Finished explorations -/

theorem Descriptor.apart_nil (d : Descriptor) : d.Apart [] :=
  fun _ hg => absurd hg List.not_mem_nil

namespace Explored

/-- When nothing is under construction, what has been explored leads nowhere else. -/
theorem hereditary (h : Explored env s K E [] σ) : Hereditary env s E := by
  rintro x x' hx ⟨t, ht, hx'⟩
  obtain ⟨y, hy, hy'⟩ := h.parts hx x.apart_nil ht
  rwa [hx'.unique hy']

/-- When nothing is under construction, nothing has to be visited either. -/
theorem rest (h : Explored env s K E [] σ) :
    Explored env s σ.names E [] { σ with visited := [] } where
  knows := h.knows
  owned := ⟨h.owned.claims, nofun, h.owned.names⟩
  parts := h.parts
  stored := h.stored
  visited hx hpub := .inl (h.stored hx (Descriptor.apart_nil _) hpub)

/-- A stored name is the name of a type that has been explored and is published. -/
theorem exists_of_mem_names (h : Explored env s K E G σ) {name : String} (hname : name ∈ σ.names) :
    ∃ x, E x ∧ Published env s x ∧ x.name = name ∧ (name, x.key) ∈ σ.claims := by
  obtain ⟨c, hc, rfl⟩ := List.mem_map.mp (h.owned.names hname)
  obtain ⟨x, hx, hpub, rfl⟩ := h.owned.claims c hc
  exact ⟨x, hx, hpub, rfl, hc⟩

end Explored

/-- **What is stored after an exploration**: what was stored before, and all that the subject leads
to and that is published by name. -/
theorem Explores.mem_names_iff {J : Judgement} {E' : Descriptor → Prop}
    (hE : Explored env s K E [] σ) (h : Explores env s K (Reaches env s d) E [] J σ₁ E')
    (hd : E' d) (hnames : σ.names ⊆ σ₁.names) (name : String) : name ∈ σ₁.names ↔
      name ∈ σ.names ∨ ∃ x, Reaches env s d x ∧ Published env s x ∧ x.name = name := by
  constructor
  · intro hname
    obtain ⟨x, hx, hpub, rfl, _⟩ := h.explored.exists_of_mem_names hname
    rcases h.new hx with hx | hx
    · exact .inl (hE.stored hx x.apart_nil hpub)
    · exact .inr ⟨x, hx, hpub, rfl⟩
  · rintro (hname | ⟨x, hx, hpub, rfl⟩)
    · exact hnames hname
    · exact h.explored.stored (Hereditary.of_reaches h.explored.hereditary hd hx) x.apart_nil hpub

end Schemata
