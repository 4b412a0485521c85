import Schemata.Proofs.Synthesis.Canonical
import Mathlib.Data.Nat.Find

/-!
# What a type unfolds to

What stands for a type is made of what stands for others.  `Unfolds` tells which, as far as they are
made in place: a type that is published by name is only referred to, and unfolds to nothing else.

A synthesis comes to every type that its subject unfolds to.  It would not come to a type whose name
is stored if the type could have an entry by its shape and has none, since the name would not be its
own; so where it succeeds, the names of all those types are free (`free_of_course`).

That it comes to all of them is not quite plain, since an array of compositions is cut off inside
its own properties.  So a type is looked for on a way that is as short as possible
(`Near`).  No open array is on such a way: it would have been shorter to set out from the array.
-/

namespace Schemata

open Environment (ObjectParts mapInner)

variable {env : Environment} {s : Session} {g : List (Key × Option Value)} {d x y : Descriptor}
  {k n : Nat} {J : Judgement} {w w' : Walk} {opened opened' : List Key} {K : List String}

section

variable (env : Environment) (s : Session)

/-- What stands for a type is made of what stands for another: no type that is published by name
lies in between. -/
def Unfolds (d x : Descriptor) : Prop :=
  Relation.ReflTransGen (fun y z => ¬ Published env s y ∧ Points env s y z) d x

/-- The names are free of all types that a type unfolds to and that could have an entry by their
shape, but have none. -/
def NamesFree (d : Descriptor) : Prop :=
  ∀ x, Unfolds env s d x → s.Settles (env.isInline x) false → ¬ Published env s x →
    x.name ∉ s.registry.names

variable (x : Descriptor)

/-- A type unfolds to another, or to one of its descriptors, in so many steps. -/
inductive UnfoldsIn : Nat → Descriptor → Prop
  | here {d : Descriptor} (hkin : d.Kin x) : UnfoldsIn 0 d
  | step {k : Nat} {d y : Descriptor} (hnot : ¬ Published env s d) (hpoints : Points env s d y)
      (h : UnfoldsIn k y) : UnfoldsIn (k + 1) d

/-- **A way that is as short as possible**, and on which no open array is left behind. -/
structure Near (opened : List Key) (k : Nat) (d : Descriptor) : Prop where
  way : UnfoldsIn env s x k d
  least : ∀ j < k, ¬ UnfoldsIn env s x j d
  clear : ∀ a, s.Describes env a → Arrayed env s a → a.key.isAmong opened = true →
    ∀ j ≤ k, ¬ UnfoldsIn env s x j a

end

theorem Unfolds.reaches (h : Unfolds env s d x) : Reaches env s d x :=
  Relation.ReflTransGen.mono (fun _ _ hstep => hstep.2) _ _ h

/-! ## What is known of a type stays known -/

section

variable {s' : Session} (hs : s.Below s')
include hs

theorem Arrayed.mono (h : Arrayed env s d) : Arrayed env s' d :=
  ⟨h.shape, h.kind.mono hs, h.base, h.properties, h.array⟩

theorem Published.mono (h : Published env s d) : Published env s' d :=
  ⟨h.shape, h.kind.mono hs, h.base⟩

theorem PartOf.mono {t : Token} (h : PartOf env s d t) : PartOf env s' d t := by
  cases h with
  | inner hshape => exact .inner hshape
  | value hshape => exact .value hshape
  | base hshape hkind hbase => exact .base hshape (hkind.mono hs) hbase
  | property hkind hobject hq =>
    exact .property (hkind.mono hs) (hobject.imp_right (Arrayed.mono hs)) hq

theorem Points.mono (h : Points env s d x) : Points env s' d x :=
  let ⟨t, ht, hx⟩ := h
  ⟨t, ht.mono hs, hx.mono hs⟩

theorem Reaches.mono (h : Reaches env s d x) : Reaches env s' d x :=
  Relation.ReflTransGen.mono (fun _ _ => Points.mono hs) _ _ h

/-- A type whose bases are known does not come to be published by name. -/
theorem Published.of_below (h : Published env s' d) (hknows : s.Knows env d) :
    Published env s d := by
  obtain ⟨kind, hkind⟩ := hknows.asked h.shape
  obtain rfl := (hkind.mono hs).unique h.kind
  exact ⟨h.shape, hkind, h.base⟩

/-- A type unfolds to what it has unfolded to, if all that it leads to is known. -/
theorem Unfolds.mono (hknows : ∀ {y}, Reaches env s d y → s.Knows env y)
    (h : Unfolds env s d x) : Reaches env s d x ∧ Unfolds env s' d x := by
  induction h with
  | refl => exact ⟨.refl, .refl⟩
  | tail _ hstep ih =>
    obtain ⟨hreaches, hunfolds⟩ := ih
    refine ⟨hreaches.tail hstep.2, hunfolds.tail ⟨fun hpub => ?_, hstep.2.mono hs⟩⟩
    exact hstep.1 (hpub.of_below hs (hknows hreaches))

end

/-! ## Ways -/

theorem Unfolds.exists_unfoldsIn (h : Unfolds env s d x) : ∃ k, UnfoldsIn env s x k d := by
  induction h using Relation.ReflTransGen.head_induction_on with
  | refl => exact ⟨0, .here (.refl x)⟩
  | head hstep _ ih =>
    obtain ⟨k, hk⟩ := ih
    exact ⟨k + 1, .step hstep.1 hstep.2 hk⟩

/-- Where nothing is open, there is a shortest way. -/
theorem Unfolds.exists_near (h : Unfolds env s d x) : ∃ k, Near env s x [] k d := by
  classical
  have hway := h.exists_unfoldsIn
  exact ⟨Nat.find hway, Nat.find_spec hway, fun _ => Nat.find_min hway,
    fun _ _ _ hopen => absurd hopen Bool.false_ne_true⟩

/-- A way from one descriptor of an array is a way from every other. -/
theorem UnfoldsIn.of_kin (hw : s.WellRead env) (hd : s.Describes env d) (hy : s.Describes env y)
    (harr : Arrayed env s d) (harr' : Arrayed env s y) (hkin : d.Kin y)
    (h : UnfoldsIn env s x k d) : UnfoldsIn env s x k y := by
  cases h with
  | here hx => exact .here (hkin.symm.trans hx)
  | step _ hpoints h =>
    obtain ⟨t, ht, hz⟩ := hpoints
    have ht' := hkin.alike.partOf hw (harr.knows hd) (harr'.knows hy) ht
    exact .step harr'.not_published ⟨t, ht', hz⟩ h

/-- No way to a type that is not published by name sets out from one that is. -/
theorem UnfoldsIn.not_published (h : UnfoldsIn env s x k d) (hw : s.WellRead env)
    (hx : s.Knows env x) (hnot : ¬ Published env s x) (hd : s.Describes env d) :
    ¬ Published env s d := by
  intro hpub
  cases h with
  | here hkin => exact hnot (hkin.alike.published hw (hpub.knows hd) hx hpub)
  | step hstep => exact hstep hpub

namespace Near

/-- The next step of the way. -/
theorem next (h : Near env s x opened (k + 1) d) : ¬ Published env s d ∧ ∃ t y, PartOf env s d t ∧
    s.Settles (env.describe t) y ∧ Near env s x opened k y := by
  obtain ⟨way, least, clear⟩ := h
  cases way with
  | @step _ _ y hnot hpoints way =>
    obtain ⟨t, ht, hy⟩ := hpoints
    refine ⟨hnot, t, y, ht, hy, way, fun j hj hshort => ?_, fun a ha harr hopen j hj => ?_⟩
    · exact least (j + 1) (Nat.succ_lt_succ hj) (.step hnot ⟨t, ht, hy⟩ hshort)
    · exact clear a ha harr hopen j (Nat.le_succ_of_le hj)

/-- What matters of the types that are visited is which of them are composed in place. -/
theorem of_visits (h : Near env s x opened k d) (hvisits : ∀ a, s.Describes env a →
    Arrayed env s a → a.key.isAmong opened' = a.key.isAmong opened) :
    Near env s x opened' k d :=
  ⟨h.way, h.least, fun a ha harr hopen => h.clear a ha harr (hvisits a ha harr ▸ hopen)⟩

/-- An array that has been opened is left behind. -/
theorem enter (h : Near env s x opened k y) (hw : s.WellRead env) (hkeys : env.KeysDistinct)
    (hd : s.Describes env d) (harr : Arrayed env s d) (hd' : Near env s x opened (k + 1) d) :
    Near env s x (d.key :: opened) k y := by
  refine ⟨h.way, h.least, fun a ha harr' hopen j hj hway => ?_⟩
  rcases Bool.or_eq_true _ _ ▸ hopen with hsame | hopen
  · have hkin := kin_of_described hw hkeys ha hd harr'.shape harr.shape hsame
    exact hd'.least j (Nat.lt_succ_of_le hj) (hway.of_kin hw ha hd harr' harr hkin)
  · exact h.clear a ha harr' hopen j hj hway

end Near

/-! ## What a synthesis comes to -/

/-- **A judgement comes to a type** only where something is true. -/
def Judgement.Comes (env : Environment) (s : Session) (x : Descriptor) (opened : List Key)
    (P : Prop) : Judgement → Prop
  | .refers d _ => ∀ {k}, Near env s x opened k d → P
  | .builds d _ => ∀ {k}, Near env s x opened (k + 1) d → P
  | .stores _ _ _ => True
  | .fills _ _ qs _ => ∀ q ∈ qs, ∀ y, s.Settles (env.describe q.type) y →
    ∀ {k}, Near env s x opened k y → P

/-- **A judgement comes to a type only if its name is free**, where some names are stored. -/
def Judgement.Minds (env : Environment) (s : Session) (x : Descriptor) (K : List String) (w : Walk)
    (J : Judgement) : Prop :=
  J.Within env s (s.Describes env) → w.scene.Owned env s (s.Describes env) → K ⊆ w.scene.names →
    J.Comes env s x w.visited (x.name ∉ K)

section

variable {b inner : Descriptor} {base : Token} {q : Property} {qs : List Property}
  {c : Constraints} {o o' : ObjectParts} {m : Node} {r : Built} {w₁ : Walk}

/-- A map of values of any type comes to no other type. -/
theorem minds_anyMap (hshapex : x.shape.isInline = false) (hshape : d.shape = .map)
    (hinner : s.Settles (env.describe (mapInner d)) inner) (hany : inner.shape = .primitive) :
    (Judgement.builds d r).Minds env s x K w := by
  intro _ _ _ k hnear
  obtain ⟨-, t, y, ht, hy, hnear⟩ := hnear.next
  have hmap : d.shape.isInline = true := by
    rw [hshape]
    rfl
  obtain rfl : t = mapInner d := by
    rcases partOf_inline hmap ht with ⟨h | h, -⟩ | ⟨-, rfl⟩
    · cases hshape.symm.trans h
    · cases hshape.symm.trans h
    · rfl
  obtain rfl := hy.unique hinner
  cases hnear.way with
  | here hkin =>
    rw [hkin.alike.shape, hany] at hshapex
    cases hshapex
  | step _ hpoints _ =>
    obtain ⟨t, ht, -⟩ := hpoints
    exact absurd ht (not_partOf_of_leaf (.inl hany))

/-- A property is come to, and then the others are, in a walk that resumes. -/
theorem minds_cons (hdescribe : s.Settles (env.describe q.type) inner)
    (hresumes : w.scene.Owned env s (s.Describes env) → w.Resumes env s w₁)
    (hrefers : (Judgement.refers inner m).Minds env s x K w)
    (hothers : (Judgement.fills d o' qs o).Minds env s x K w₁) :
    (Judgement.fills d o' (q :: qs) o).Minds env s x K w := by
  intro _ howned hK p hp y hy k hnear
  rcases List.mem_cons.mp hp with rfl | hp
  · obtain rfl := hy.unique hdescribe
    exact hrefers (.refers hdescribe) howned hK hnear
  · have hresumes := hresumes howned
    exact hothers .fills hresumes.owned (List.Subset.trans hK hresumes.names) p hp y hy
      (hnear.of_visits hresumes.visits)

variable (hw : s.WellRead env) (hkeys : env.KeysDistinct)
include hw

/-- What is inline is none of the types that could have an entry. -/
theorem minds_inPlace (hx : s.Knows env x) (hshapex : x.shape.isInline = false)
    (hkindx : s.Settles (env.primitiveKind x) none) (hinline : s.Settles (env.isInline d) true)
    (h : (Judgement.builds d r).Minds env s x K w.deeper) :
    (Judgement.refers d r.node).Minds env s x K w := by
  intro hJ howned hK k hnear
  cases k with
  | zero =>
    cases hnear.way with
    | here hkin =>
      have hshape : d.shape.isInline = false := hkin.alike.shape ▸ hshapex
      obtain ⟨kind, hkind⟩ := Environment.exists_settles_primitiveKind hinline hshape
      have hknows := knows_of_isInline hJ hinline
      have hkind' := hkin.alike.primitiveKind hw hknows hx hshape hkind
      cases hkind'.unique hkindx
  | succ k => exact h hJ howned hK hnear

include hkeys

/-- An array of compositions comes to its base, and to its properties with the array open. -/
theorem minds_composed (hderived : Derived env s d base c) (harray : c.array = true)
    (hdescribe : s.Settles (env.describe base) b) (hbase : Course env s g n (.refers b m) w w₁)
    (hrefers : (Judgement.refers b m).Minds env s x K w)
    (hown : (Judgement.fills d o d.properties o').Minds env s x K (w₁.visiting d)) :
    (Judgement.builds d r).Minds env s x K w := by
  intro hJ howned hK k hnear
  have harr := arrayed_of_derived hderived harray
  have hresumes := Walk.Resumes.of_course hw hkeys hbase (.refers hdescribe) howned
  obtain ⟨-, t, y, ht, hy, hnear'⟩ := hnear.next
  rcases (partOf_named hderived.shape ht).2 with hbase' | ⟨-, q, hq, rfl⟩
  · cases hderived.base.symm.trans hbase'
    obtain rfl := hy.unique hdescribe
    exact hrefers (.refers hdescribe) howned hK hnear'
  · have hentered : Near env s x (d.key :: w₁.visited) k y :=
      (hnear'.enter hw hkeys hJ harr hnear).of_visits fun a ha harr' =>
        congrArg (a.key.same d.key || ·) (hresumes.visits a ha harr')
    exact hown .fills (hresumes.owned.visiting hJ harr)
      (List.Subset.trans hK hresumes.names) q hq y hy hentered

/-- **A synthesis that succeeds finds the names free** of all types that it makes in place and that
could have had an entry. -/
theorem free_of_course (hx : s.Describes env x) (hinlinex : s.Settles (env.isInline x) false)
    (hnot : ¬ Published env s x) (h : Course env s g n J w w') : J.Minds env s x K w := by
  obtain ⟨hshapex, hkindx⟩ := settles_isInline_false hinlinex
  have hknowsx := knows_of_isInline hx hinlinex
  induction h with
  | learns hlearns _ ih =>
    intro hJ howned hK
    rw [← hlearns.scene] at howned hK
    rw [← hlearns.visited]
    exact ih hJ howned hK
  | inPlace hinline _ _ ih => exact minds_inPlace hw hknowsx hshapex hkindx hinline ih
  | known hinline hname hclaim =>
    intro hJ howned _ k hnear
    have hpub := howned.published_of_known hw hkeys id hJ hinline hname (claims_of_claim hclaim)
    exact absurd hpub (hnear.way.not_published hw hknowsx hnot hJ)
  | awaited hinline hvisited harray =>
    intro hJ howned _ k hnear
    have hpub := (howned.published_of_awaited hw hkeys id hJ hinline hvisited harray).1
    exact absurd hpub (hnear.way.not_published hw hknowsx hnot hJ)
  | @fresh n d r w w' hinline hfree _ _ _ ih =>
    intro hJ howned hK k hnear
    cases k with
    | zero =>
      cases hnear.way with
      | here hkin =>
        rw [hkin.alike.name]
        exact fun hname => hfree (hK hname)
    | succ k => exact ih hJ howned hK hnear
  | plain hplain _ =>
    intro _ _ _ k hnear
    obtain ⟨-, t, y, ht, -⟩ := hnear.next
    exact absurd ht hplain.not_partOf
  | wrapped hwraps _ _ hinner _ ih =>
    intro _ howned hK k hnear
    obtain ⟨-, t, y, ht, hy, hnear⟩ := hnear.next
    obtain rfl := hwraps.eq_of_partOf ht
    obtain rfl := hy.unique hinner
    exact ih (.refers hinner) howned hK hnear
  | anyMap hshape hinner hany _ => exact minds_anyMap hshapex hshape hinner hany.1
  | @cutArray n d w hshape _ hvisited harray =>
    intro hJ _ _ k hnear
    have harr := (settles_publishesArray harray hshape).mp rfl
    exact absurd hnear.way (hnear.clear d hJ harr hvisited (k + 1) (Nat.le_refl _))
  | root hshape hbase _ _ =>
    intro _ _ _ k hnear
    exact absurd (published_of_root hshape hbase) hnear.next.1
  | composed hderived harray _ _ hdescribe hbase _ _ _ _ _ ihrefers ihfills =>
    exact minds_composed hw hkeys hderived harray hdescribe hbase ihrefers ihfills
  | derived hderived harray _ _ _ _ _ =>
    intro _ _ _ k hnear
    exact absurd (published_of_derived hderived harray) hnear.next.1
  | cut | existing | enum | object => exact fun _ _ _ => trivial
  | done => exact fun _ _ _ _ hq => absurd hq List.not_mem_nil
  | rest _ _ hdescribe hheld _ ihrefers ihfills =>
    exact minds_cons hdescribe (.of_course hw hkeys hheld (.refers hdescribe)) ihrefers ihfills
  | property _ _ hdescribe hheld hdress _ _ ihrefers ihfills =>
    refine minds_cons hdescribe (fun howned => ?_) ihrefers ihfills
    have hresumes := Walk.Resumes.of_course hw hkeys hheld (.refers hdescribe) howned
    have hlearns := (Environment.learns_dress _ _ _ _).ok hdress
    exact hresumes.trans (.of_learns hlearns hresumes.owned)

end

end Schemata
