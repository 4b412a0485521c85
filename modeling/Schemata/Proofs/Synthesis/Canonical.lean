import Schemata.Proofs.Synthesis.Publication
import Schemata.Proofs.Synthesis.Positions
import Schemata.Proofs.Synthesis.Resumption

/-!
# What is stored is what the declaration is published as

Every new entry is what the declaration of its type is published as (`publishes_of_course`, from
what each rule makes of what its parts make), with two exceptions.

* A derived type whose base leads back to it (`SelfBased`) has an empty object stand in for it
  where it is taken up again.
* A type that is composed in place is cut off inside its own properties.  If these lead to a type
  that is published by name and that leads back to the array (`SelfHeld`), then that type is stored
  as it is seen from inside the array, or as it is seen from elsewhere, whichever comes first.

Where no type is of either sort, a type that is published by name is never stored while an array
that it leads to is open (`Walk.ClearOf`).  What holds all along is that the arrays that are being
visited are the open ones (`Walk.Opens`).  Both are kept in `Walk.Ready`: they hold for what is left
to do after a part has been built (`Walk.Ready.of_resumes`), for what a type published by name leads
to, with no array open (`Walk.Ready.reaches`), and inside an array that is opened
(`Walk.Ready.visiting`).
-/

namespace Schemata

open Environment (ObjectParts)

variable {env : Environment} {s : Session} {d y : Descriptor} {n m : Nat}
  {J : Judgement} {w w₁ w' : Walk} {R R' : Descriptor → Prop} {opened : List Key}

/-! ## Types that lead back to themselves -/

section

variable (env : Environment) (s : Session)

/-- An array of compositions whose own properties lead to a type that is published by name and
leads back to the array. -/
def SelfHeld (d : Descriptor) : Prop :=
  Arrayed env s d ∧ ∃ q ∈ d.properties, ∃ y x a, s.Settles (env.describe q.type) y ∧
    Reaches env s y x ∧ Published env s x ∧ Reaches env s x a ∧ Arrayed env s a ∧
    a.key.same d.key = true

/-- **A set of types in which none leads back to itself in a way that shows**, and that leads
nowhere else. -/
structure Straight (R : Descriptor → Prop) : Prop where
  hereditary : Hereditary env s R
  describes : ∀ {x}, R x → s.Describes env x
  based : ∀ {x}, R x → Published env s x → ¬ SelfBased env s x
  held : ∀ {x}, R x → ¬ SelfHeld env s x

/-- What the types of some properties lead to. -/
def Below (qs : List Property) (x : Descriptor) : Prop :=
  ∃ q ∈ qs, ∃ y, s.Settles (env.describe q.type) y ∧ Reaches env s y x

/-- No array that a type published by name leads to is being visited. -/
def Walk.ClearOf (R : Descriptor → Prop) (w : Walk) : Prop :=
  ∀ x y, R x → Published env s x → Reaches env s x y → Arrayed env s y → w.visits y = false

/-- The arrays that are being visited are those that are open. -/
def Walk.Opens (R : Descriptor → Prop) (opened : List Key) (w : Walk) : Prop :=
  ∀ y, R y → Arrayed env s y → w.visits y = y.key.isAmong opened

end

theorem hereditary_below (qs : List Property) : Hereditary env s (Below env s qs) := by
  rintro x x' ⟨q, hq, y, hy, hx⟩ hpoints
  exact ⟨q, hq, y, hy, hx.tail hpoints⟩

theorem Hereditary.below (hR : Hereditary env s R) (hd : R d) (harr : Arrayed env s d)
    (hy : Below env s d.properties y) : R y := by
  obtain ⟨q, hq, x, hx, hreaches⟩ := hy
  have hpart : R x := hR hd ⟨_, .property harr.kind (.inr harr) hq, hx⟩
  exact Hereditary.of_reaches hR hpart hreaches

theorem Straight.mono (h : Straight env s R) (hR' : Hereditary env s R')
    (hsub : ∀ {x}, R' x → R x) : Straight env s R' where
  hereditary := hR'
  describes hx := h.describes (hsub hx)
  based hx := h.based (hsub hx)
  held hx := h.held (hsub hx)

/-! ## Walks that are ready -/

/-- **A walk from which the types of a set are built as they are declared**, with some arrays
open. -/
structure Walk.Ready (env : Environment) (s : Session) (R : Descriptor → Prop)
    (opened : List Key) (w : Walk) : Prop where
  straight : Straight env s R
  owned : w.scene.Owned env s (s.Describes env)
  clear : w.ClearOf env s R
  opens : w.Opens env s R opened

namespace Walk.Ready

theorem deeper (h : w.Ready env s R opened) : w.deeper.Ready env s R opened :=
  ⟨h.straight, h.owned, h.clear, h.opens⟩

/-- A walk is ready for what is left to do. -/
theorem of_resumes (h : w.Ready env s R opened) (hresumes : w.Resumes env s w₁) :
    w₁.Ready env s R opened where
  straight := h.straight
  owned := hresumes.owned
  clear x y hx hpub hxy harr := by
    have hy := h.straight.describes (Hereditary.of_reaches h.straight.hereditary hx hxy)
    rw [hresumes.visits y hy harr]
    exact h.clear x y hx hpub hxy harr
  opens y hy harr := by
    rw [hresumes.visits y (h.straight.describes hy) harr]
    exact h.opens y hy harr

/-- What a type published by name leads to is seen with no array open. -/
theorem reaches (h : w.Ready env s R opened) (hd : R d) (hpub : Published env s d) :
    w.Ready env s (Reaches env s d) [] := by
  have hsub {x : Descriptor} (hx : Reaches env s d x) : R x :=
    Hereditary.of_reaches h.straight.hereditary hd hx
  exact ⟨h.straight.mono (hereditary_reaches d) hsub, h.owned, fun x y hx => h.clear x y (hsub hx),
    fun y hy harr => h.clear d y hd hpub hy harr⟩

/-- An array is opened, and no type below it that is published by name leads back to it. -/
theorem visiting (h : w.Ready env s R opened) (hd : R d) (harr : Arrayed env s d) :
    (w.visiting d).Ready env s (Below env s d.properties) (d.key :: opened) := by
  have hsub {x : Descriptor} (hx : Below env s d.properties x) : R x :=
    Hereditary.below h.straight.hereditary hd harr hx
  refine ⟨h.straight.mono (hereditary_below d.properties) hsub,
    h.owned.visiting (h.straight.describes hd) harr, fun x y hx hpub hxy hy => ?_,
    fun y hy harr' => congrArg (y.key.same d.key || ·) (h.opens y (hsub hy) harr')⟩
  show (y.key.same d.key || w.visits y) = false
  rw [h.clear x y (hsub hx) hpub hxy hy, Bool.or_false]
  refine Bool.eq_false_iff.mpr fun hsame => ?_
  obtain ⟨q, hq, z, hz, hzx⟩ := hx
  exact h.straight.held hd ⟨harr, q, hq, z, x, y, hz, hzx, hpub, hxy, hy, hsame⟩

end Walk.Ready

/-! ## Publications -/

/-- An entry that is what the declaration of a type in a set is published as, and whose name is
claimed for the type. -/
def PublishedAs (env : Environment) (s : Session) (R : Descriptor → Prop)
    (claims : List (String × Key)) (e : String × Node) : Prop :=
  ∃ x k, R x ∧ Published env s x ∧ x.name = e.1 ∧ (e.1, k) ∈ claims ∧ k.same x.key = true ∧
    (env.toldBy s.readings).publish env.levels x = some e.2

/-- All new entries are what the declarations of types in a set are published as. -/
def Scene.Publishes (env : Environment) (s : Session) (R : Descriptor → Prop) (σ σ' : Scene) :
    Prop :=
  ∀ e ∈ σ'.registry.entries, e ∈ σ.registry.entries ∨ PublishedAs env s R σ'.claims e

namespace Scene.Publishes

variable {σ σ₁ σ₂ : Scene}

theorem refl (σ : Scene) : σ.Publishes env s R σ :=
  fun _ => .inl

theorem mono (h : σ.Publishes env s R' σ₁) (hsub : ∀ {x}, R' x → R x) :
    σ.Publishes env s R σ₁ := by
  intro e he
  rcases h e he with he | ⟨x, k, hx, hentry⟩
  · exact .inl he
  · exact .inr ⟨x, k, hsub hx, hentry⟩

theorem trans (h₁ : σ.Publishes env s R σ₁) (h₂ : σ₁.Publishes env s R σ₂)
    (hkept : σ₁.claims <+: σ₂.claims) : σ.Publishes env s R σ₂ := by
  intro e he
  rcases h₂ e he with he | hentry
  · rcases h₁ e he with he | ⟨x, k, hx, hpub, hname, hclaim, hentry⟩
    · exact .inl he
    · exact .inr ⟨x, k, hx, hpub, hname, hkept.subset hclaim, hentry⟩
  · exact .inr hentry

/-- What only claims and visits publishes nothing. -/
theorem of_registry (h : σ₁.registry = σ.registry) : σ.Publishes env s R σ₁ := by
  intro e he
  rw [h] at he
  exact .inl he

/-- A type is stored as what it is published as. -/
theorem putting {m : Node} {k : Key} (hd : R d) (hpub : Published env s d)
    (hclaim : (d.name, k) ∈ σ.claims) (hsame : k.same d.key = true)
    (hm : (env.toldBy s.readings).publish env.levels d = some m) :
    σ.Publishes env s R (σ.putting d.name m) := by
  intro e he
  cases hget : σ.registry.get? d.name with
  | some stored =>
    rw [Scene.putting, Registry.put_of_get? hget] at he
    exact .inl he
  | none =>
    rw [Scene.putting, Registry.put_of_free hget, (Registry.grown_store hget).entries] at he
    rcases List.mem_append.mp he with he | he
    · exact .inl he
    · rw [List.mem_singleton.mp he]
      exact .inr ⟨d, k, hd, hpub, rfl, hclaim, hsame, hm⟩

end Scene.Publishes

/-- A name that has been claimed is claimed for the type. -/
theorem Scene.Claims.exists_mem {σ σ₁ : Scene} (h : σ.Claims d σ₁)
    (hself : d.key.same d.key = true) : ∃ k, (d.name, k) ∈ σ₁.claims ∧ k.same d.key = true := by
  rcases h with ⟨owner, howner, hsame, rfl⟩ | ⟨-, rfl⟩
  · exact ⟨owner, mem_of_getKey? howner, hsame⟩
  · exact ⟨d.key, List.mem_append_right _ (List.mem_singleton_self _), hself⟩

/-- Where a judgement is made that does not cut off a type published by name. -/
def Judgement.Due (env : Environment) (s : Session) (w : Walk) : Judgement → Prop
  | .refers _ _ => True
  | .builds d _ => Published env s d → w.visits d = false
  | .stores d base _ => w.visits d = false ∧
    d.base.mapM ((env.toldBy s.readings).standIn
      ((env.toldBy s.readings).inPlace env.levels [])) = some base
  | .fills d _ _ _ => s.Describes env d ∧ d.shape.isInline = false

theorem Judgement.Due.learns (h : J.Due env s w) (hlearns : w.Learns env w₁) : J.Due env s w₁ := by
  cases J with
  | refers | fills => exact h
  | builds d r => exact fun hpub => (hlearns.visits d).trans (h hpub)
  | stores d base r => exact ⟨(hlearns.visits d).trans h.1, h.2⟩

/-- **What a judgement makes is what the declarations say**, with a number of levels left and some
arrays open. -/
def Judgement.Told (env : Environment) (s : Session) (m : Nat) (opened : List Key) :
    Judgement → Prop
  | .refers d node => (env.toldBy s.readings).standFor
    ((env.toldBy s.readings).inPlace m opened) d = some node
  | .builds d r => if r.stored then Published env s d else
    (env.toldBy s.readings).publishes? d = some false ∧
      (env.toldBy s.readings).inPlace (m + 1) opened d = some r.node
  | .stores _ _ r => r.stored = true
  | .fills d o qs o' => ∃ ms, (env.toldBy s.readings).members
    ((env.toldBy s.readings).inPlace m opened) d qs = some ms ∧ o' = o.holding ms

/-- A reference stands for what is stored, and what is built in place for anything else. -/
theorem Judgement.Told.refers {r : Built} (h : (Judgement.builds d r).Told env s m opened) :
    (Judgement.refers d (if r.stored then .refTo d.name else r.node)).Told env s (m + 1)
      opened := by
  have hr : if r.stored then Published env s d else
    (env.toldBy s.readings).publishes? d = some false ∧
      (env.toldBy s.readings).inPlace (m + 1) opened d = some r.node := h
  by_cases hstored : r.stored = true
  · rw [if_pos hstored] at hr ⊢
    exact Lexicon.standFor_of_published _ (Environment.publishes?_of_published hr)
  · rw [if_neg hstored] at hr ⊢
    exact (Lexicon.standFor_of_not hr.1).trans hr.2

/-- What is built in place stands for a type that is not published by name. -/
theorem Judgement.Told.in_place {r : Built} (h : (Judgement.builds d r).Told env s m opened)
    (hpub : ¬ Published env s d) : (Judgement.refers d r.node).Told env s (m + 1) opened := by
  have hr := h.refers
  by_cases hstored : r.stored = true
  · exact absurd ((if_pos hstored).mp h) hpub
  · rwa [if_neg hstored] at hr

/-- A property that takes all undeclared ones comes first. -/
theorem Judgement.Told.rest {inner : Descriptor} {o o' : ObjectParts} {q : Property}
    {qs : List Property} {c : Constraints} {node : Node} (hcatchAll : q.catchAll = true)
    (hmerge : Constraints.merge q.annotations = .ok c)
    (hdescribe : s.Settles (env.describe q.type) inner)
    (hrefers : (Judgement.refers inner node).Told env s m opened)
    (hfills : (Judgement.fills d (o.accepting c node) qs o').Told env s m opened) :
    (Judgement.fills d o (q :: qs) o').Told env s m opened := by
  obtain ⟨ms, hms, rfl⟩ := hfills
  have hstand := (Environment.standIn_of_describe _ hdescribe).trans hrefers
  have hmember : (env.toldBy s.readings).member
      ((env.toldBy s.readings).inPlace m opened) d q = some ⟨q, c, node⟩ := by
    rw [Lexicon.member, hmerge, hstand]
    exact if_pos hcatchAll
  refine ⟨⟨q, c, node⟩ :: ms, Lexicon.members_cons hmember hms, ?_⟩
  exact (ObjectParts.holding_cons_of_catchAll o (m := ⟨q, c, node⟩) ms hcatchAll).symm

/-- A property that is shown under its name comes first. -/
theorem Judgement.Told.property {inner : Descriptor} {o o' : ObjectParts} {q : Property}
    {qs : List Property} {c : Constraints} {held node : Node} (hcatchAll : q.catchAll = false)
    (hmerge : Constraints.merge q.annotations = .ok c)
    (hdescribe : s.Settles (env.describe q.type) inner)
    (hrefers : (Judgement.refers inner held).Told env s m opened)
    (hdressed : q.dressed env.captureDefaults d.made c held = .ok node)
    (hfills : (Judgement.fills d (o.adding q c node) qs o').Told env s m opened) :
    (Judgement.fills d o (q :: qs) o').Told env s m opened := by
  obtain ⟨ms, hms, rfl⟩ := hfills
  have hstand := (Environment.standIn_of_describe _ hdescribe).trans hrefers
  have hmember : (env.toldBy s.readings).member
      ((env.toldBy s.readings).inPlace m opened) d q = some ⟨q, c, node⟩ := by
    rw [Lexicon.member, hmerge, hstand]
    dsimp only [bind, Option.bind, Except.toOption]
    rw [if_neg (by rw [hcatchAll]; exact Bool.false_ne_true), Environment.toldBy, hdressed]
    rfl
  refine ⟨⟨q, c, node⟩ :: ms, Lexicon.members_cons hmember hms, ?_⟩
  exact (ObjectParts.holding_cons_of_own o (m := ⟨q, c, node⟩) ms hcatchAll).symm

/-- **A judgement makes what the declarations say** on its way from one walk to another, and all
that it stores on the way is what the declarations are published as. -/
def Judgement.Makes (env : Environment) (s : Session) (n : Nat) (w w' : Walk) (J : Judgement) :
    Prop :=
  ∀ ⦃R : Descriptor → Prop⦄ ⦃opened : List Key⦄, w.Ready env s R opened → J.Within env s R →
    n ≤ env.levels → J.Due env s w →
      w.scene.Publishes env s R w'.scene ∧ ∀ m, n ≤ m → J.Told env s m opened

section

variable {b inner : Descriptor} {base : Token} {q : Property} {qs : List Property}
  {c : Constraints} {o o' : ObjectParts} {node stored : Node} {r : Built} {w₂ w₃ : Walk}
  (hw : s.WellRead env) (hkeys : env.KeysDistinct)
include hw hkeys

/-! ### What is built in place -/

/-- An array of compositions: its own properties are built with the array open. -/
theorem makes_composed (hderived : Derived env s d base c) (harray : c.array = true)
    (hfresh : w.visits d = true → s.Settles (env.publishesArray d) false)
    (hdescribe : s.Settles (env.describe base) b)
    (hbase : Course env s s.instances n (.refers b node) w w₁)
    (hfills : Course env s s.instances n
      (.fills d ((ObjectParts.ofNode .emptyObject).requiring c.required) d.properties o)
      (w₁.visiting d) w₂) (hlearns : w₂.Learns env w₃)
    (hnode : (Judgement.refers b node).Makes env s n w w₁)
    (hown : (Judgement.fills d ((ObjectParts.ofNode .emptyObject).requiring c.required)
      d.properties o).Makes env s n (w₁.visiting d) w₂) :
    (Judgement.builds d ⟨Constraints.apply { c with required := [] }
      (.array {} (.composition [node, o.toNode] none none)), false⟩).Makes env s n w
        (w₃.leaving d) := by
  intro R opened hready hJ hn _
  have harr := arrayed_of_derived hderived harray
  have hb : R b := hready.straight.hereditary hJ
    ⟨base, .base hderived.shape hderived.kind hderived.base, hdescribe⟩
  obtain ⟨hnew₁, htold₁⟩ := hnode hready hb hn trivial
  have hready₁ := hready.of_resumes (.of_course hw hkeys hbase (.refers hdescribe) hready.owned)
  obtain ⟨hnew₂, htold₂⟩ := hown (hready₁.visiting hJ harr)
    (fun q hq x hx => ⟨q, hq, x, hx, .refl⟩) hn ⟨hready.straight.describes hJ, hderived.shape⟩
  have hkept := claims_of_derives (derives_of_course hfills)
  have hnew₃ : w₁.scene.Publishes env s R w₂.scene :=
    hnew₂.mono (Hereditary.below hready.straight.hereditary hJ harr)
  rw [← hlearns.scene] at hkept hnew₃
  refine ⟨hnew₁.trans hnew₃ hkept, fun m hm => ?_⟩
  obtain ⟨ms, hms, rfl⟩ := htold₂ m hm
  have hopened := (hready.opens d hJ harr).symm.trans (harr.not_visited hfresh)
  exact ⟨Environment.publishes?_of_arrayed harr,
    Environment.inPlace_of_derived hderived hopened hdescribe (htold₁ m hm) hms⟩

/-! ### What is stored -/

/-- A derived type: what stands for its base is made first, and it is not the type itself. -/
theorem makes_derived (hderived : Derived env s d base c) (harray : c.array = false)
    (hdescribe : s.Settles (env.describe base) b)
    (hbase : Course env s s.instances n (.refers b node) w w₁)
    (hstores : Course env s s.instances n (.stores d (some node) r) w₁ w₂)
    (hnode : (Judgement.refers b node).Makes env s n w w₁)
    (hstored : (Judgement.stores d (some node) r).Makes env s n w₁ w₂) :
    (Judgement.builds d r).Makes env s n w w₂ := by
  intro R opened hready hJ hn hdue
  have hpub := published_of_derived hderived harray
  have hd := hready.straight.describes hJ
  have hpart : Reaches env s d b :=
    .single ⟨base, .base hderived.shape hderived.kind hderived.base, hdescribe⟩
  obtain ⟨hnew₁, htold₁⟩ := hnode (hready.reaches hJ hpub) hpart hn trivial
  -- the base does not lead back to the type, so the type is not visited yet
  have hnot : w₁.visits d = false := by
    refine Bool.eq_false_iff.mpr fun hvisits => hready.straight.based hJ hpub ?_
    exact selfBased_of_visits hw hkeys hd hpub hderived.base hdescribe
      (derives_of_course hbase) hready.owned.names (hdue hpub) hvisits
  have hstand : d.base.mapM ((env.toldBy s.readings).standIn
      ((env.toldBy s.readings).inPlace env.levels [])) = some (some node) := by
    rw [hderived.base, Option.mapM_some, Environment.standIn_of_describe _ hdescribe,
      htold₁ env.levels hn]
    rfl
  have hready₁ := hready.of_resumes (.of_course hw hkeys hbase (.refers hdescribe) hready.owned)
  obtain ⟨hnew₂, htold₂⟩ := hstored hready₁ ⟨hJ, hpub⟩ hn ⟨hnot, hstand⟩
  have hnew₁ := hnew₁.mono (Hereditary.of_reaches hready.straight.hereditary hJ)
  exact ⟨hnew₁.trans hnew₂ (claims_of_derives (derives_of_course hstores)),
    fun m hm => (if_pos (htold₂ m hm)).mpr hpub⟩

omit hkeys in
/-- An enumeration is stored as its members. -/
theorem makes_enum {bases : Option Node} (hclaim : env.claim d.name d (w.visiting d) = .ok () w₁)
    (hshape : d.shape = .enum) (hmerge : Constraints.merge d.annotations = .ok c)
    (hput : (Registry.putting d.name
      (c.apply (.leaf { choices := d.members.map .text } (some .string))) : Build Node) w₁ =
        .ok stored w') : (Judgement.stores d bases ⟨stored, true⟩).Makes env s n w w' := by
  intro R opened hready hJ _ _
  have hclaims := claims_of_claim hclaim
  obtain ⟨k, hk, hsame⟩ := hclaims.exists_mem
    (same_of_describes hw (hready.straight.describes hJ.1) hJ.2.shape)
  obtain ⟨-, hscene⟩ := scene_of_putting hput
  refine ⟨?_, fun _ _ => rfl⟩
  rw [hscene]
  exact (Scene.Publishes.of_registry hclaims.claimed.registry).trans
    (.putting hJ.1 hJ.2 hk hsame (Environment.publish_of_enum hshape hmerge))
    (List.prefix_refl _)

/-- An object is stored with its properties over what stands for its base. -/
theorem makes_object {bases : Option Node}
    (hclaim : env.claim d.name d (w.visiting d) = .ok () w₁) (hshape : d.shape ≠ .enum)
    (hmerge : Constraints.merge d.annotations = .ok c)
    (hfills : Course env s s.instances n
      (.fills d (.ofNode (c.apply .emptyObject)) d.properties o) w₁ w₂)
    (hlearns : w₂.Learns env w₃)
    (hput : (Registry.putting d.name (o.over bases) : Build Node) w₃ = .ok stored w')
    (hown : (Judgement.fills d (.ofNode (c.apply .emptyObject)) d.properties o).Makes env s n
      w₁ w₂) : (Judgement.stores d bases ⟨stored, true⟩).Makes env s n w w' := by
  intro R opened hready hJ hn hdue
  have hd := hready.straight.describes hJ.1
  have hclaims := claims_of_claim hclaim
  obtain ⟨k, hk, hsame⟩ := hclaims.exists_mem (same_of_describes hw hd hJ.2.shape)
  have hobject := hJ.2.eq_object hshape
  have hready₁ := (hready.reaches hJ.1 hJ.2).of_resumes
    (.of_claim hw hkeys hclaim hready.owned hd hJ.2)
  obtain ⟨hnew, htold⟩ := hown hready₁
    (fun q hq x hx => .single ⟨_, .property hJ.2.kind (.inl hobject) hq, hx⟩) hn ⟨hd, hJ.2.shape⟩
  obtain ⟨ms, hms, rfl⟩ := htold env.levels hn
  have hkept := claims_of_derives (derives_of_course hfills)
  obtain ⟨-, hscene⟩ := scene_of_putting hput
  refine ⟨?_, fun _ _ => rfl⟩
  rw [hscene, hlearns.scene]
  have hfilled := (Scene.Publishes.of_registry hclaims.claimed.registry).trans
    (hnew.mono (Hereditary.of_reaches hready.straight.hereditary hJ.1)) hkept
  exact hfilled.trans (.putting hJ.1 hJ.2 (hkept.subset hk) hsame
    (Environment.publish_of_object hshape hmerge hdue.2 hms)) (List.prefix_refl _)

/-! ### What objects are filled with -/

/-- A property that takes all undeclared ones, and then the others. -/
theorem makes_rest (hcatchAll : q.catchAll = true)
    (hmerge : Constraints.merge q.annotations = .ok c)
    (hdescribe : s.Settles (env.describe q.type) inner)
    (hheld : Course env s s.instances n (.refers inner node) w w₁)
    (hfills : Course env s s.instances n (.fills d (o.accepting c node) qs o') w₁ w')
    (hnode : (Judgement.refers inner node).Makes env s n w w₁)
    (hothers : (Judgement.fills d (o.accepting c node) qs o').Makes env s n w₁ w') :
    (Judgement.fills d o (q :: qs) o').Makes env s n w w' := by
  intro R opened hready hJ hn hdue
  obtain ⟨hnew₁, htold₁⟩ := hnode hready (hJ q List.mem_cons_self _ hdescribe) hn trivial
  have hready₁ := hready.of_resumes (.of_course hw hkeys hheld (.refers hdescribe) hready.owned)
  obtain ⟨hnew₂, htold₂⟩ :=
    hothers hready₁ (fun q hq => hJ q (List.mem_cons_of_mem _ hq)) hn hdue
  exact ⟨hnew₁.trans hnew₂ (claims_of_derives (derives_of_course hfills)),
    fun m hm => .rest hcatchAll hmerge hdescribe (htold₁ m hm) (htold₂ m hm)⟩

variable (hrecalls : s.Recalls env)
include hrecalls

/-- A property that is shown under its name, and then the others. -/
theorem makes_property {held : Node} (hcatchAll : q.catchAll = false)
    (hmerge : Constraints.merge q.annotations = .ok c)
    (hdescribe : s.Settles (env.describe q.type) inner)
    (hheld : Course env s s.instances n (.refers inner held) w w₁)
    (hdress : env.dress d q c held w₁ = .ok node w₂)
    (hinstances : w₂.session.instances <+: s.instances)
    (hfills : Course env s s.instances n (.fills d (o.adding q c node) qs o') w₂ w')
    (hnode : (Judgement.refers inner held).Makes env s n w w₁)
    (hothers : (Judgement.fills d (o.adding q c node) qs o').Makes env s n w₂ w') :
    (Judgement.fills d o (q :: qs) o').Makes env s n w w' := by
  intro R opened hready hJ hn hdue
  obtain ⟨hnew₁, htold₁⟩ := hnode hready (hJ q List.mem_cons_self _ hdescribe) hn trivial
  have hready₁ := hready.of_resumes (.of_course hw hkeys hheld (.refers hdescribe) hready.owned)
  have hlearns := (Environment.learns_dress _ _ _ _).ok hdress
  obtain ⟨hnew₂, htold₂⟩ := hothers (hready₁.of_resumes (.of_learns hlearns hready₁.owned))
    (fun q hq => hJ q (List.mem_cons_of_mem _ hq)) hn hdue
  have hkept := claims_of_derives (derives_of_course hfills)
  rw [hlearns.scene] at hnew₂ hkept
  have hdressed := dressed_of_dress hw hkeys hrecalls hdue.1 hdue.2 hdress
    (List.IsPrefix.trans hlearns.session.instances hinstances)
  exact ⟨hnew₁.trans hnew₂ hkept,
    fun m hm => .property hcatchAll hmerge hdescribe (htold₁ m hm) hdressed (htold₂ m hm)⟩

/-! ### All courses -/

/-- **What is stored is what the declaration is published as**, where no type leads back to itself
in a way that shows.  What is made on the way is what the declarations say, if types can be built
that deep. -/
theorem publishes_of_course (h : Course env s s.instances n J w w') : J.Makes env s n w w' := by
  induction h with
  | learns hlearns _ ih =>
    intro R opened hready hJ hn hdue
    rw [← hlearns.scene]
    exact ih (hready.of_resumes (.of_learns hlearns hready.owned)) hJ hn (hdue.learns hlearns)
  | @inPlace n d r w w' hinline _ _ ih =>
    intro R opened hready hJ hn _
    have hpub := not_published_of_inline hinline
    obtain ⟨hnew, htold⟩ := ih hready.deeper hJ (Nat.le_of_succ_le hn) fun h => absurd h hpub
    refine ⟨hnew, fun m hm => ?_⟩
    obtain ⟨m, rfl⟩ : ∃ k, m = k + 1 := ⟨m - 1, by omega⟩
    exact (htold m (Nat.le_of_succ_le_succ hm)).in_place hpub
  | @fresh n d r w w' _ _ hvisited _ _ ih =>
    intro R opened hready hJ hn _
    obtain ⟨hnew, htold⟩ := ih hready.deeper hJ (Nat.le_of_succ_le hn) fun hpub =>
      hpub.not_visited hvisited
    refine ⟨hnew, fun m hm => ?_⟩
    obtain ⟨m, rfl⟩ : ∃ k, m = k + 1 := ⟨m - 1, by omega⟩
    exact (htold m (Nat.le_of_succ_le_succ hm)).refers
  | known hinline hstored hclaim =>
    intro R opened hready hJ _ _
    have hclaims := claims_of_claim hclaim
    have hpub := hready.owned.published_of_known hw hkeys id (hready.straight.describes hJ) hinline
      hstored hclaims
    exact ⟨.of_registry hclaims.claimed.registry,
      fun _ _ => Lexicon.standFor_of_published _ (Environment.publishes?_of_published hpub)⟩
  | awaited hinline hvisited harray =>
    intro R opened hready hJ _ _
    have hpub := (hready.owned.published_of_awaited hw hkeys id (hready.straight.describes hJ)
      hinline hvisited harray).1
    exact ⟨.refl _, fun _ _ =>
      Lexicon.standFor_of_published _ (Environment.publishes?_of_published hpub)⟩
  | plain hplain _ =>
    intro R opened _ _ _ _
    exact ⟨.refl _, fun _ _ => Environment.inPlace_of_plain hplain⟩
  | wrapped hwraps _ hvalue hinner _ ih =>
    intro R opened hready hJ hn _
    obtain ⟨hnew, htold⟩ := ih hready
      (hready.straight.hereditary hJ ⟨_, hwraps.partOf, hinner⟩) hn trivial
    exact ⟨hnew, fun m hm => Environment.inPlace_of_wraps hwraps hvalue hinner (htold m hm)⟩
  | anyMap hshape hinner hany hmerge =>
    intro R opened _ _ _ _
    exact ⟨.refl _, fun _ _ => Environment.inPlace_of_anyMap hshape hinner hany hmerge⟩
  | cutArray hshape _ hvisited harray =>
    intro R opened hready hJ _ _
    have harr := (settles_publishesArray harray hshape).mp rfl
    have hopened := (hready.opens _ hJ harr).symm.trans hvisited
    exact ⟨.refl _, fun _ _ =>
      ⟨Environment.publishes?_of_arrayed harr, Environment.inPlace_of_opened harr hopened⟩⟩
  | @root n d r w w' hshape hbase _ ih =>
    intro R opened hready hJ hn hdue
    have hpub : Published env s d := published_of_root hshape hbase
    have hbase' : d.base.mapM ((env.toldBy s.readings).standIn
        ((env.toldBy s.readings).inPlace env.levels [])) =
        some none := by
      rw [hbase]
      rfl
    obtain ⟨hnew, htold⟩ := ih hready ⟨hJ, hpub⟩ hn ⟨hdue hpub, hbase'⟩
    exact ⟨hnew, fun m hm => (if_pos (htold m hm)).mpr hpub⟩
  | composed hderived harray _ hfresh hdescribe hbase _ _ hfills hlearns _ ihrefers ihfills =>
    exact makes_composed hw hkeys hderived harray hfresh hdescribe hbase hfills hlearns ihrefers
      ihfills
  | derived hderived harray hdescribe hbase hstores ihrefers ihstores =>
    exact makes_derived hw hkeys hderived harray hdescribe hbase hstores ihrefers ihstores
  | cut hvisited =>
    intro R opened _ _ _ hdue
    cases hdue.1.symm.trans hvisited
  | existing _ hclaim _ =>
    intro R opened _ _ _ _
    exact ⟨.of_registry (claims_of_claim hclaim).claimed.registry, fun _ _ => rfl⟩
  | enum _ hclaim _ hshape hmerge hput => exact makes_enum hw hclaim hshape hmerge hput
  | object _ hclaim _ hshape hmerge hfills hlearns _ hput ih =>
    exact makes_object hw hkeys hclaim hshape hmerge hfills hlearns hput ih
  | done =>
    intro R opened _ _ _ _
    exact ⟨.refl _, fun _ _ => ⟨[], rfl, (ObjectParts.holding_nil _).symm⟩⟩
  | rest hcatchAll hmerge hdescribe hheld hfills ihrefers ihfills =>
    exact makes_rest hw hkeys hcatchAll hmerge hdescribe hheld hfills ihrefers ihfills
  | property hcatchAll hmerge hdescribe hheld hdress hinstances hfills ihrefers ihfills =>
    exact makes_property hw hkeys hrecalls hcatchAll hmerge hdescribe hheld hdress hinstances
      hfills ihrefers ihfills

end

end Schemata
