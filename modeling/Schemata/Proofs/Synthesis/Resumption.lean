import Schemata.Proofs.Descriptor.Reading
import Schemata.Proofs.Synthesis.Ownership

/-!
# Going on after a part

A synthesis goes through the parts of a type one after another, and what is left to do after one of
them starts from the walk that it has left behind.  That walk is told here from the one before it,
whatever the part was (`Walk.Resumes`): names and claims have only been added to, claims and visits
still belong to described types, and the arrays that are being visited are the same.

The last is what takes an argument (`visits_of_course`), since types that are published by name stay
visited.  Such a type has another key than an array; and an array is left when it has been composed,
which takes back the visit and no other, as it was not visited before.
-/

namespace Schemata

open Environment (ObjectParts)

variable {env : Environment} {s : Session} {g : List (Key × Option Value)} {d y : Descriptor}
  {n : Nat} {J : Judgement} {w w₁ w₂ w' : Walk}

/-! ## Arrays that are visited -/

section

variable (hw : s.WellRead env) (hkeys : env.KeysDistinct)
include hw

/-- A type that is visited is visited under all of its descriptors. -/
theorem visits_of_kin {σ : Scene} (howned : σ.Owned env s (s.Describes env))
    (hd : s.Describes env d) (hy : s.Describes env y) (hshape : d.shape.isInline = false)
    (hkin : d.Kin y) (hkeys : env.KeysDistinct) (h : σ.visits d = true) : σ.visits y = true := by
  obtain ⟨k, hk, hsame⟩ := List.any_eq_true.mp h
  obtain ⟨x, hx, rfl, hkind⟩ := howned.visited k hk
  have hshape' : x.shape.isInline = false := by
    rcases hkind with ⟨hpub, -⟩ | harr
    · exact hpub.shape
    · exact harr.shape
  have hyshape : y.shape.isInline = false := by rw [hkin.alike.shape, hshape]
  have hdx := kin_of_described hw hkeys hd hx hshape hshape' hsame
  refine List.any_eq_true.mpr ⟨x.key, hk, ?_⟩
  exact same_of_kin (same_of_describes hw hy hyshape) (.refl y) (hkin.symm.trans hdx)

include hkeys

/-- An array of compositions has another key than a type published by name. -/
theorem same_eq_false_of_published (hy : s.Describes env y) (harr : Arrayed env s y)
    (hd : s.Describes env d) (hpub : Published env s d) : y.key.same d.key = false := by
  refine Bool.eq_false_iff.mpr fun hsame => ?_
  have hkin := kin_of_described hw hkeys hy hd harr.shape hpub.shape hsame
  exact (hkin.alike.arrayed hw (harr.knows hy) (hpub.knows hd) harr).not_published hpub

/-- Visiting a type that is published by name visits no array. -/
theorem visits_visiting_of_published (hy : s.Describes env y) (harr : Arrayed env s y)
    (hd : s.Describes env d) (hpub : Published env s d)
    (hvisited : w'.visited = d.key :: w.visited) :
    w'.visits y = w.visits y := by
  rw [Walk.visits, hvisited, Key.isAmong, List.any_cons,
    same_eq_false_of_published hw hkeys hy harr hd hpub, Bool.false_or]
  rfl

/-- An array that was not visited before is not visited after its properties have been filled, and
any other type is if it was. -/
theorem visits_leaving (hy : s.Describes env y) (harr : Arrayed env s y)
    (hd : s.Describes env d) (harr' : Arrayed env s d) (hfresh : w.visits d = false)
    (howned : w.scene.Owned env s (s.Describes env))
    (howned' : w'.scene.Owned env s (s.Describes env))
    (h : w'.visits y = (w.visiting d).visits y) : (w'.leaving d).visits y = w.visits y := by
  have hself {k : Key} {x : Descriptor} (hx : s.Describes env x) (hkin : d.Kin x) (hk : k = x.key) :
      d.key.same k = true := by
    rw [hk]
    exact same_of_kin (same_of_describes hw hd harr'.shape) (.refl d) hkin
  have howner {k : Key} (hk : k ∈ w'.visited) :
      ∃ x, s.Describes env x ∧ x.shape.isInline = false ∧ k = x.key := by
    obtain ⟨x, hx, rfl, ⟨hpub, -⟩ | harr⟩ := howned'.visited k hk
    · exact ⟨x, hx, hpub.shape, rfl⟩
    · exact ⟨x, hx, harr.shape, rfl⟩
  by_cases hsame : y.key.same d.key = true
  · have hkin := kin_of_described hw hkeys hy hd harr.shape harr'.shape hsame
    have hbefore : w.visits y = false := by
      refine Bool.eq_false_iff.mpr fun hvisits => ?_
      have hvisits' : w.visits d = true := visits_of_kin (σ := w.scene) hw howned hy hd harr.shape
        hkin hkeys hvisits
      cases hfresh.symm.trans hvisits'
    rw [hbefore]
    refine Bool.eq_false_iff.mpr fun hvisits => ?_
    obtain ⟨k, hk, hsame'⟩ := List.any_eq_true.mp hvisits
    obtain ⟨hk, hleft⟩ := List.mem_filter.mp hk
    obtain ⟨x, hx, hxshape, hkx⟩ := howner hk
    have hyx := kin_of_described hw hkeys hy hx harr.shape hxshape (hkx ▸ hsame')
    rw [hself hx (hkin.symm.trans hyx) hkx] at hleft
    cases hleft
  · rw [Bool.not_eq_true] at hsame
    have hvisiting : (w.visiting d).visits y = w.visits y := by
      show (y.key.same d.key || y.key.isAmong w.visited) = y.key.isAmong w.visited
      rw [hsame, Bool.false_or]
    rw [← hvisiting, ← h]
    refine Bool.eq_iff_iff.mpr ⟨fun hvisits => ?_, fun hvisits => ?_⟩
    · obtain ⟨k, hk, hsame'⟩ := List.any_eq_true.mp hvisits
      exact List.any_eq_true.mpr ⟨k, (List.mem_filter.mp hk).1, hsame'⟩
    · obtain ⟨k, hk, hsame'⟩ := List.any_eq_true.mp hvisits
      refine List.any_eq_true.mpr ⟨k, List.mem_filter.mpr ⟨hk, ?_⟩, hsame'⟩
      refine Bool.not_eq_true' _ ▸ Bool.eq_false_iff.mpr fun hleft => ?_
      obtain ⟨x, hx, hxshape, rfl⟩ := howner hk
      have hyx := kin_of_described hw hkeys hy hx harr.shape hxshape hsame'
      have hdx := kin_of_described hw hkeys hd hx harr'.shape hxshape hleft
      have hself' := same_of_kin (same_of_describes hw hy harr.shape) (.refl y)
        (hyx.trans hdx.symm)
      cases hsame.symm.trans hself'

/-- **A synthesis leaves the arrays that are visited as it found them.** -/
theorem visits_of_course (h : Course env s g n J w w') (hJ : J.Within env s (s.Describes env))
    (howned : w.scene.Owned env s (s.Describes env)) :
    ∀ y, s.Describes env y → Arrayed env s y → w'.visits y = w.visits y := by
  have hrefers {b : Descriptor} {t : Token} {m : Node} {n : Nat} {w w₁ : Walk}
      (hb : s.Settles (env.describe t) b) (howned : w.scene.Owned env s (s.Describes env))
      (h : Course env s g n (.refers b m) w w₁) : w₁.scene.Owned env s (s.Describes env) :=
    howned.of_derives hereditary_describes (.refers hb) (derives_of_course h)
  induction h with
  | learns hlearns _ ih =>
    exact fun y hy harr => (ih hJ (hlearns.scene ▸ howned) y hy harr).trans (hlearns.visits y)
  | inPlace _ _ _ ih | fresh _ _ _ _ _ ih => exact ih hJ howned
  | known _ _ hclaim =>
    exact fun y _ _ => congrArg y.key.isAmong (claims_of_claim hclaim).claimed.visited
  | awaited | plain | anyMap | cutArray | cut | done => exact fun _ _ _ => rfl
  | wrapped _ _ _ hinner _ ih => exact ih (.refers hinner) howned
  | root hshape hbase _ ih => exact ih ⟨hJ, published_of_root hshape hbase⟩ howned
  | @composed n d b base c m o w w₁ w₂ w₃ hderived harray _ hfresh hdescribe hbase _ _ hfills
      hlearns _ ihrefers ihfills =>
    have harr := arrayed_of_derived hderived harray
    have howned₁ := hrefers hdescribe howned hbase
    have hvisits₁ := ihrefers (.refers hdescribe) howned
    have hvisiting : (w₁.visiting d).scene.Owned env s (s.Describes env) :=
      howned₁.visiting hJ harr
    have howned₃ : w₃.scene.Owned env s (s.Describes env) := by
      rw [hlearns.scene]
      exact hvisiting.of_derives hereditary_describes .fills (derives_of_course hfills)
    have hnot : w₁.visits d = false :=
      (hvisits₁ d hJ harr).trans (harr.not_visited hfresh)
    intro y hy harr'
    rw [visits_leaving hw hkeys hy harr' hJ harr hnot howned₁ howned₃
      ((hlearns.visits y).trans (ihfills .fills hvisiting y hy harr')), hvisits₁ y hy harr']
  | derived hderived harray hdescribe hbase _ ihrefers ihstores =>
    intro y hy harr
    rw [ihstores ⟨hJ, published_of_derived hderived harray⟩ (hrefers hdescribe howned hbase)
      y hy harr, ihrefers (.refers hdescribe) howned y hy harr]
  | existing _ hclaim _ =>
    exact fun y hy harr => visits_visiting_of_published hw hkeys hy harr hJ.1 hJ.2
      (claims_of_claim hclaim).claimed.visited
  | enum _ hclaim _ _ _ hput =>
    obtain ⟨-, rfl⟩ := Environment.putting_eq_ok.mp hput
    exact fun y hy harr => visits_visiting_of_published hw hkeys hy harr hJ.1 hJ.2
      (claims_of_claim hclaim).claimed.visited
  | object _ hclaim _ _ _ hfills hlearns _ hput ih =>
    obtain ⟨-, rfl⟩ := Environment.putting_eq_ok.mp hput
    have howned₁ := howned.of_claims (claims_of_claim hclaim) hJ.1 hJ.2
    intro y hy harr
    refine ((hlearns.visits y).trans (ih .fills howned₁ y hy harr)).trans ?_
    exact visits_visiting_of_published hw hkeys hy harr hJ.1 hJ.2
      (claims_of_claim hclaim).claimed.visited
  | rest _ _ hdescribe hheld _ ihrefers ihfills =>
    intro y hy harr
    rw [ihfills .fills (hrefers hdescribe howned hheld) y hy harr,
      ihrefers (.refers hdescribe) howned y hy harr]
  | property _ _ hdescribe hheld hdress _ _ ihrefers ihfills =>
    have hlearns := (Environment.learns_dress _ _ _ _).ok hdress
    have howned₁ := hrefers hdescribe howned hheld
    intro y hy harr
    rw [ihfills .fills (hlearns.scene ▸ howned₁) y hy harr, hlearns.visits y,
      ihrefers (.refers hdescribe) howned y hy harr]

end

/-! ## Walks that go on -/

/-- **A walk after a part has been built**, as it concerns what is left to do. -/
structure Walk.Resumes (env : Environment) (s : Session) (w w' : Walk) : Prop where
  owned : w'.scene.Owned env s (s.Describes env)
  names : w.scene.names ⊆ w'.scene.names
  claims : w.scene.claims <+: w'.scene.claims
  visits : ∀ y, s.Describes env y → Arrayed env s y → w'.visits y = w.visits y

namespace Walk.Resumes

theorem of_course (hw : s.WellRead env) (hkeys : env.KeysDistinct) (h : Course env s g n J w w')
    (hJ : J.Within env s (s.Describes env)) (howned : w.scene.Owned env s (s.Describes env)) :
    w.Resumes env s w' := by
  have hderives := derives_of_course h
  have hadds := howned.adds hereditary_describes hJ hderives
  exact ⟨howned.of_adds hadds, hadds.names, claims_of_derives hderives,
    visits_of_course hw hkeys h hJ howned⟩

theorem of_learns (h : w.Learns env w₁) (howned : w.scene.Owned env s (s.Describes env)) :
    w.Resumes env s w₁ where
  owned := h.scene ▸ howned
  names := h.scene ▸ List.Subset.refl _
  claims := h.scene ▸ List.prefix_refl _
  visits y _ _ := h.visits y

/-- A type that is published by name is visited, and its name is claimed. -/
theorem of_claim (hw : s.WellRead env) (hkeys : env.KeysDistinct) {u : Unit}
    (h : env.claim d.name d (w.visiting d) = .ok u w₁)
    (howned : w.scene.Owned env s (s.Describes env)) (hd : s.Describes env d)
    (hpub : Published env s d) : w.Resumes env s w₁ := by
  have hclaims := claims_of_claim h
  refine ⟨howned.of_claims hclaims hd hpub, ?_, hclaims.prefix, fun y hy harr => ?_⟩
  · rw [Scene.names, Scene.names, hclaims.claimed.registry]
    exact List.Subset.refl _
  · exact visits_visiting_of_published hw hkeys hy harr hd hpub hclaims.claimed.visited

theorem trans (h₁ : w.Resumes env s w₁) (h₂ : w₁.Resumes env s w₂) : w.Resumes env s w₂ where
  owned := h₂.owned
  names := List.Subset.trans h₁.names h₂.names
  claims := List.IsPrefix.trans h₁.claims h₂.claims
  visits y hy harr := (h₂.visits y hy harr).trans (h₁.visits y hy harr)

end Walk.Resumes

end Schemata
