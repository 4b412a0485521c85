import Schemata.Proofs.Synthesis.References
import Schemata.Proofs.Synthesis.Tenure

/-!
# What is told of a synthesis

A derivation says what a synthesis starts from and what it ends in.  For which type an entry was
stored, or a reference handed out, it does not say: what remains of both is a name.  So a
derivation is told once more, with the list of what was done on the way and for whom.  A `Deed` is
a thing that is done, and `Chronicle env s J σ σ' deeds` is a derivation with its deeds.  Every
derivation has a chronicle (`exists_chronicle`) and every chronicle is that of a derivation
(`Chronicle.derives`), with rules that are the same.

A reference is handed out in three ways.  The name is stored, and is claimed for the type; or the
type is visited, and may be awaited; or the type has just been built and stored.  Whichever it is,
in the end the name belongs to the type (`Chronicle.rightful`): a name that is stored is claimed,
and only its owner can claim it again, and the name of a visited type is its own.  Since only the
owner of a name can have stored an entry under it, too, what the reference leads to is the entry
of that type and no other.
-/

namespace Schemata

open Environment (ObjectParts mapInner)

/-! ## Deeds -/

/-- Something that is done about a type. -/
inductive Deed where
  /-- A type is met where a schema is expected, and is referred to or built in place. -/
  | meets (d : Descriptor)
  /-- A reference to its own name is handed out for a type. -/
  | cites (d : Descriptor)
  /-- An entry is stored for a type, under its name. -/
  | stores (d : Descriptor) (n : Node)

namespace Deed

/-- The entry that is stored. -/
def entry? : Deed → Option (String × Node)
  | stores d n => some (d.name, n)
  | _ => none

end Deed

/-- What it takes to store a node for a type: nothing is done where its name is taken. -/
def Scene.entering (σ : Scene) (d : Descriptor) (n : Node) : List Deed :=
  if d.name ∈ σ.names then [] else [.stores d n]

/-! ## Chronicles -/

section

variable (env : Environment) (s : Session)

/-- **A derivation with its deeds**, in the order in which they are done. -/
inductive Chronicle : Judgement → Scene → Scene → List Deed → Prop
  | inPlace {d : Descriptor} {r : Built} {σ σ' : Scene} {ds : List Deed}
      (hinline : s.Settles (env.isInline d) true) (hbuilds : Chronicle (.builds d r) σ σ' ds) :
      Chronicle (.refers d r.node) σ σ' (ds ++ [.meets d])
  | known {d : Descriptor} {σ σ' : Scene} (hinline : s.Settles (env.isInline d) false)
      (hstored : d.name ∈ σ.names) (hclaims : σ.Claims d σ') :
      Chronicle (.refers d (.refTo d.name)) σ σ' [.cites d, .meets d]
  | awaited {d : Descriptor} {σ : Scene} (hinline : s.Settles (env.isInline d) false)
      (hvisited : σ.visits d = true) (harray : s.Settles (env.publishesArray d) false) :
      Chronicle (.refers d (.refTo d.name)) σ σ [.cites d, .meets d]
  | fresh {d : Descriptor} {r : Built} {σ σ' : Scene} {ds : List Deed}
      (hinline : s.Settles (env.isInline d) false) (hfree : d.name ∉ σ.names)
      (hvisited : σ.visits d = true → s.Settles (env.publishesArray d) true)
      (hbuilds : Chronicle (.builds d r) σ σ' ds) :
      Chronicle (.refers d (if r.stored then .refTo d.name else r.node)) σ σ'
        (ds ++ if r.stored then [.cites d, .meets d] else [.meets d])
  | plain {d : Descriptor} {n : Node} {σ : Scene} (hplain : Plain env s d n) :
      Chronicle (.builds d ⟨n, false⟩) σ σ []
  | wrapped {d inner : Descriptor} {t : Token} {n node : Node} {σ σ' : Scene} {ds : List Deed}
      (hwraps : Wraps env s d t n node) (hinner : s.Settles (env.describe t) inner)
      (hrefers : Chronicle (.refers inner n) σ σ' ds) :
      Chronicle (.builds d ⟨node, false⟩) σ σ' ds
  | anyMap {d inner : Descriptor} {c : Constraints} {σ : Scene} (hshape : d.shape = .map)
      (hinner : s.Settles (env.describe (mapInner d)) inner)
      (hany : inner.shape = .primitive) (hmerge : Constraints.merge d.annotations = .ok c) :
      Chronicle (.builds d ⟨c.apply (.object {} [] none (some true)), false⟩) σ σ []
  | cutArray {d : Descriptor} {σ : Scene} (hshape : d.shape.isInline = false)
      (hvisited : σ.visits d = true) (harray : s.Settles (env.publishesArray d) true) :
      Chronicle (.builds d ⟨.emptyObject, false⟩) σ σ []
  | root {d : Descriptor} {r : Built} {σ σ' : Scene} {ds : List Deed}
      (hshape : d.shape.isInline = false) (hbase : d.base = none)
      (hstores : Chronicle (.stores d none r) σ σ' ds) : Chronicle (.builds d r) σ σ' ds
  | composed {d b : Descriptor} {base : Token} {c : Constraints} {n : Node} {o : ObjectParts}
      {σ σ₁ σ₂ : Scene} {ds₁ ds₂ : List Deed} (hderived : Derived env s d base c)
      (harray : c.array = true) (hdescribe : s.Settles (env.describe base) b)
      (hrefers : Chronicle (.refers b n) σ σ₁ ds₁)
      (hfills : Chronicle (.fills d ((ObjectParts.ofNode .emptyObject).requiring c.required)
        d.properties o) (σ₁.visiting d) σ₂ ds₂) :
      Chronicle (.builds d ⟨Constraints.apply { c with required := [] }
        (.array {} (.composition [n, o.toNode] none none)), false⟩) σ (σ₂.leaving d) (ds₁ ++ ds₂)
  | derived {d b : Descriptor} {base : Token} {c : Constraints} {n : Node} {r : Built}
      {σ σ₁ σ₂ : Scene} {ds₁ ds₂ : List Deed} (hderived : Derived env s d base c)
      (harray : c.array = false) (hdescribe : s.Settles (env.describe base) b)
      (hrefers : Chronicle (.refers b n) σ σ₁ ds₁)
      (hstores : Chronicle (.stores d (some n) r) σ₁ σ₂ ds₂) :
      Chronicle (.builds d r) σ σ₂ (ds₁ ++ ds₂)
  | cut {d : Descriptor} {base : Option Node} {σ : Scene} (hvisited : σ.visits d = true) :
      Chronicle (.stores d base ⟨.emptyObject, false⟩) σ σ []
  | existing {d : Descriptor} {base : Option Node} {n : Node} {σ σ' : Scene}
      (hvisited : σ.visits d = false) (hclaims : (σ.visiting d).Claims d σ')
      (hstored : σ'.registry.get? d.name = some n) :
      Chronicle (.stores d base ⟨n, true⟩) σ σ' []
  | enum {d : Descriptor} {base : Option Node} {c : Constraints} {n : Node} {σ σ₁ : Scene}
      (hvisited : σ.visits d = false) (hclaims : (σ.visiting d).Claims d σ₁)
      (hfree : d.name ∉ σ₁.names) (hshape : d.shape = .enum)
      (hmerge : Constraints.merge d.annotations = .ok c)
      (hn : n = c.apply (.leaf { choices := d.members.map .text } (some .string))) :
      Chronicle (.stores d base ⟨(σ₁.registry.put d.name n).1, true⟩) σ (σ₁.putting d.name n)
        (σ₁.entering d n)
  | object {d : Descriptor} {base : Option Node} {c : Constraints} {o : ObjectParts}
      {σ σ₁ σ₂ : Scene} {ds : List Deed} (hvisited : σ.visits d = false)
      (hclaims : (σ.visiting d).Claims d σ₁) (hfree : d.name ∉ σ₁.names)
      (hshape : d.shape ≠ .enum) (hmerge : Constraints.merge d.annotations = .ok c)
      (hfills : Chronicle (.fills d (.ofNode (c.apply .emptyObject)) d.properties o) σ₁ σ₂ ds) :
      Chronicle (.stores d base ⟨(σ₂.registry.put d.name (o.over base)).1, true⟩) σ
        (σ₂.putting d.name (o.over base)) (ds ++ σ₂.entering d (o.over base))
  | done {d : Descriptor} {o : ObjectParts} {σ : Scene} : Chronicle (.fills d o [] o) σ σ []
  | rest {d inner : Descriptor} {o o' : ObjectParts} {q : Property} {qs : List Property}
      {c : Constraints} {n : Node} {σ σ₁ σ₂ : Scene} {ds₁ ds₂ : List Deed}
      (hcatchAll : q.catchAll = true) (hmerge : Constraints.merge q.annotations = .ok c)
      (hdescribe : s.Settles (env.describe q.type) inner)
      (hrefers : Chronicle (.refers inner n) σ σ₁ ds₁)
      (hfills : Chronicle (.fills d (o.accepting c n) qs o') σ₁ σ₂ ds₂) :
      Chronicle (.fills d o (q :: qs) o') σ σ₂ (ds₁ ++ ds₂)
  | property {d inner : Descriptor} {o o' : ObjectParts} {q : Property} {qs : List Property}
      {c : Constraints} {n node : Node} {w w' : Walk} {σ σ₁ σ₂ : Scene} {ds₁ ds₂ : List Deed}
      (hcatchAll : q.catchAll = false) (hmerge : Constraints.merge q.annotations = .ok c)
      (hdescribe : s.Settles (env.describe q.type) inner)
      (hrefers : Chronicle (.refers inner n) σ σ₁ ds₁) (hdress : env.dress d q c n w = .ok node w')
      (hfills : Chronicle (.fills d (o.adding q c node) qs o') σ₁ σ₂ ds₂) :
      Chronicle (.fills d o (q :: qs) o') σ σ₂ (ds₁ ++ ds₂)

end

variable {env : Environment} {s : Session} {d : Descriptor} {σ σ₁ : Scene} {J : Judgement}
  {ds : List Deed}

/-- A chronicle is that of a derivation. -/
theorem Chronicle.derives (h : Chronicle env s J σ σ₁ ds) : Derives env s J σ σ₁ := by
  induction h with
  | inPlace hinline _ ih => exact .inPlace hinline ih
  | known hinline hstored hclaims => exact .known hinline hstored hclaims
  | awaited hinline hvisited harray => exact .awaited hinline hvisited harray
  | fresh hinline hfree hvisited _ ih => exact .fresh hinline hfree hvisited ih
  | plain hplain => exact .plain hplain
  | wrapped hwraps hinner _ ih => exact .wrapped hwraps hinner ih
  | anyMap hshape hinner hany hmerge => exact .anyMap hshape hinner hany hmerge
  | cutArray hshape hvisited harray => exact .cutArray hshape hvisited harray
  | root hshape hbase _ ih => exact .root hshape hbase ih
  | composed hderived harray hdescribe _ _ ihrefers ihfills =>
    exact .composed hderived harray hdescribe ihrefers ihfills
  | derived hderived harray hdescribe _ _ ihrefers ihstores =>
    exact .derived hderived harray hdescribe ihrefers ihstores
  | cut hvisited => exact .cut hvisited
  | existing hvisited hclaims hstored => exact .existing hvisited hclaims hstored
  | enum hvisited hclaims hfree hshape hmerge hn =>
    exact .enum hvisited hclaims hfree hshape hmerge hn
  | object hvisited hclaims hfree hshape hmerge _ ih =>
    exact .object hvisited hclaims hfree hshape hmerge ih
  | done => exact .done
  | rest hcatchAll hmerge hdescribe _ _ ihrefers ihfills =>
    exact .rest hcatchAll hmerge hdescribe ihrefers ihfills
  | property hcatchAll hmerge hdescribe _ hdress _ ihrefers ihfills =>
    exact .property hcatchAll hmerge hdescribe ihrefers hdress ihfills

/-- **Every derivation can be told.** -/
theorem exists_chronicle (h : Derives env s J σ σ₁) : ∃ ds, Chronicle env s J σ σ₁ ds := by
  induction h with
  | inPlace hinline _ ih =>
    obtain ⟨_, hbuilds⟩ := ih
    exact ⟨_, .inPlace hinline hbuilds⟩
  | known hinline hstored hclaims => exact ⟨_, .known hinline hstored hclaims⟩
  | awaited hinline hvisited harray => exact ⟨_, .awaited hinline hvisited harray⟩
  | fresh hinline hfree hvisited _ ih =>
    obtain ⟨_, hbuilds⟩ := ih
    exact ⟨_, .fresh hinline hfree hvisited hbuilds⟩
  | plain hplain => exact ⟨_, .plain hplain⟩
  | wrapped hwraps hinner _ ih =>
    obtain ⟨_, hrefers⟩ := ih
    exact ⟨_, .wrapped hwraps hinner hrefers⟩
  | anyMap hshape hinner hany hmerge => exact ⟨_, .anyMap hshape hinner hany hmerge⟩
  | cutArray hshape hvisited harray => exact ⟨_, .cutArray hshape hvisited harray⟩
  | root hshape hbase _ ih =>
    obtain ⟨_, hstores⟩ := ih
    exact ⟨_, .root hshape hbase hstores⟩
  | composed hderived harray hdescribe _ _ ihrefers ihfills =>
    obtain ⟨_, hrefers⟩ := ihrefers
    obtain ⟨_, hfills⟩ := ihfills
    exact ⟨_, .composed hderived harray hdescribe hrefers hfills⟩
  | derived hderived harray hdescribe _ _ ihrefers ihstores =>
    obtain ⟨_, hrefers⟩ := ihrefers
    obtain ⟨_, hstores⟩ := ihstores
    exact ⟨_, .derived hderived harray hdescribe hrefers hstores⟩
  | cut hvisited => exact ⟨_, .cut hvisited⟩
  | existing hvisited hclaims hstored => exact ⟨_, .existing hvisited hclaims hstored⟩
  | enum hvisited hclaims hfree hshape hmerge hn =>
    exact ⟨_, .enum hvisited hclaims hfree hshape hmerge hn⟩
  | object hvisited hclaims hfree hshape hmerge _ ih =>
    obtain ⟨_, hfills⟩ := ih
    exact ⟨_, .object hvisited hclaims hfree hshape hmerge hfills⟩
  | done => exact ⟨_, .done⟩
  | rest hcatchAll hmerge hdescribe _ _ ihrefers ihfills =>
    obtain ⟨_, hrefers⟩ := ihrefers
    obtain ⟨_, hfills⟩ := ihfills
    exact ⟨_, .rest hcatchAll hmerge hdescribe hrefers hfills⟩
  | property hcatchAll hmerge hdescribe _ hdress _ ihrefers ihfills =>
    obtain ⟨_, hrefers⟩ := ihrefers
    obtain ⟨_, hfills⟩ := ihfills
    exact ⟨_, .property hcatchAll hmerge hdescribe hrefers hdress hfills⟩

/-! ## Entries -/

theorem Scene.entries_putting (σ : Scene) (d : Descriptor) (n : Node) :
    (σ.putting d.name n).registry.entries =
      σ.registry.entries ++ (σ.entering d n).filterMap Deed.entry? := by
  unfold Scene.putting Scene.entering
  split
  next htaken =>
    obtain ⟨stored, hget⟩ := Option.isSome_iff_exists.mp (Registry.isSome_get?_iff.mpr htaken)
    rw [Registry.put_of_get? hget]
    exact (List.append_nil _).symm
  next hfree =>
    have hget : σ.registry.get? d.name = none :=
      Option.not_isSome_iff_eq_none.mp fun h => hfree (Registry.isSome_get?_iff.mp h)
    rw [Registry.put_of_free hget]
    exact (Registry.grown_store hget).entries

/-- **The entries are those that were stored**, in the order in which they were. -/
theorem Chronicle.entries (h : Chronicle env s J σ σ₁ ds) :
    σ₁.registry.entries = σ.registry.entries ++ ds.filterMap Deed.entry? := by
  induction h with
  | inPlace _ _ ih =>
    rw [ih, List.filterMap_append]
    exact congrArg _ (List.append_nil _).symm
  | known _ _ hclaims =>
    rw [hclaims.claimed.registry]
    exact (List.append_nil _).symm
  | awaited | plain | anyMap | cutArray | cut | done => exact (List.append_nil _).symm
  | @fresh _ r _ _ _ _ _ _ _ ih =>
    rw [ih, List.filterMap_append]
    cases r.stored <;> exact congrArg _ (List.append_nil _).symm
  | wrapped _ _ _ ih | root _ _ _ ih => exact ih
  | composed _ _ _ _ _ ihrefers ihfills =>
    show Registry.entries (Scene.registry _) = _
    rw [Scene.leaving, ihfills, Scene.visiting, ihrefers, List.append_assoc,
      List.filterMap_append]
  | derived _ _ _ _ _ ihrefers ih | rest _ _ _ _ _ ihrefers ih
  | property _ _ _ _ _ _ ihrefers ih =>
    rw [ih, ihrefers, List.append_assoc, List.filterMap_append]
  | existing _ hclaims _ =>
    rw [hclaims.claimed.registry]
    exact (List.append_nil _).symm
  | enum _ hclaims _ _ _ _ =>
    rw [Scene.entries_putting, hclaims.claimed.registry]
    rfl
  | object _ hclaims _ _ _ _ ih =>
    rw [Scene.entries_putting, ih, hclaims.claimed.registry, List.append_assoc,
      List.filterMap_append]
    rfl

/-! ## Owners -/

/-- **A deed is done for the owner of the name** that it is about. -/
def Deed.Rightful (env : Environment) (s : Session) (σ : Scene) : Deed → Prop
  | meets d => s.Describes env d ∧ (Published env s d → σ.Owns d)
  | cites d => s.Describes env d ∧ Published env s d ∧ σ.Owns d
  | stores d _ => s.Describes env d ∧ Published env s d ∧ σ.Owns d

theorem Deed.Rightful.mono {deed : Deed} (h : deed.Rightful env s σ)
    (hclaims : σ.claims <+: σ₁.claims) : deed.Rightful env s σ₁ := by
  cases deed with
  | meets d => exact ⟨h.1, fun hpub => (h.2 hpub).mono hclaims⟩
  | cites d | stores d n => exact ⟨h.1, h.2.1, h.2.2.mono hclaims⟩

theorem Scene.claims_putting (σ : Scene) (name : String) (n : Node) :
    σ.claims <+: (σ.putting name n).claims :=
  List.prefix_refl _

/-- What is stored is published by name. -/
theorem published_of_stored {r : Built} (h : Derives env s (.builds d r) σ σ₁)
    (hstored : r.stored = true) : Published env s d := by
  cases h with
  | plain | wrapped | anyMap | cutArray | composed => cases hstored
  | root hshape hbase _ => exact published_of_root hshape hbase
  | derived hderived harray _ _ _ => exact published_of_derived hderived harray

section

variable (hw : s.WellRead env) (hkeys : env.KeysDistinct)
include hw hkeys

/-- A type that is referred to by name is cited rightfully, and one that is met any other way is
met so. -/
theorem rightful_of_refers {n : Node} (htended : σ.Tended env s) (hd : s.Describes env d)
    (h : Derives env s (.refers d n) σ σ₁) : (Deed.meets d).Rightful env s σ₁ ∧
      (Published env s d → (Deed.cites d).Rightful env s σ₁) := by
  have howns := fun hpub => owns_of_refers hw hkeys htended hd hpub h
  exact ⟨⟨hd, howns⟩, fun hpub => ⟨hd, hpub, howns hpub⟩⟩

omit hw hkeys in
theorem rightful_of_entering {n : Node} {deed : Deed} (hd : s.Describes env d)
    (hpub : Published env s d) (howns : σ₁.Owns d) (hdeed : deed ∈ σ.entering d n) :
    deed.Rightful env s σ₁ := by
  unfold Scene.entering at hdeed
  split at hdeed
  · cases hdeed
  · rw [List.mem_singleton.mp hdeed]
    exact ⟨hd, hpub, howns⟩

/-- **Whatever is done about a name is done for its owner.** -/
theorem Chronicle.rightful (h : Chronicle env s J σ σ₁ ds) (htended : σ.Tended env s)
    (hJ : J.Within env s (s.Describes env)) : ∀ deed ∈ ds, deed.Rightful env s σ₁ := by
  induction h with
  | @inPlace d r σ σ' ds hinline hbuilds ih =>
    have hmeets := (rightful_of_refers hw hkeys htended hJ (.inPlace hinline hbuilds.derives)).1
    exact List.forall_mem_append.mpr
      ⟨ih htended hJ, List.forall_mem_singleton.mpr hmeets⟩
  | known hinline hstored hclaims =>
    have hpub := htended.owned.published_of_known hw hkeys id hJ hinline hstored hclaims
    obtain ⟨hmeets, hcites⟩ :=
      rightful_of_refers hw hkeys htended hJ (.known hinline hstored hclaims)
    exact List.forall_mem_cons.mpr ⟨hcites hpub, List.forall_mem_singleton.mpr hmeets⟩
  | awaited hinline hvisited harray =>
    have hpub := (htended.owned.published_of_awaited hw hkeys id hJ hinline hvisited harray).1
    obtain ⟨hmeets, hcites⟩ :=
      rightful_of_refers hw hkeys htended hJ (.awaited hinline hvisited harray)
    exact List.forall_mem_cons.mpr ⟨hcites hpub, List.forall_mem_singleton.mpr hmeets⟩
  | @fresh d r σ σ' ds hinline hfree hvisited hbuilds ih =>
    obtain ⟨hmeets, hcites⟩ :=
      rightful_of_refers hw hkeys htended hJ (.fresh hinline hfree hvisited hbuilds.derives)
    refine List.forall_mem_append.mpr ⟨ih htended hJ, ?_⟩
    split
    next hstored =>
      exact List.forall_mem_cons.mpr ⟨hcites (published_of_stored hbuilds.derives hstored),
        List.forall_mem_singleton.mpr hmeets⟩
    next => exact List.forall_mem_singleton.mpr hmeets
  | plain | anyMap | cutArray | cut | existing | done =>
    exact fun _ hdeed => absurd hdeed List.not_mem_nil
  | wrapped _ hinner _ ih => exact ih htended (.refers hinner)
  | root hshape hbase _ ih => exact ih htended ⟨hJ, published_of_root hshape hbase⟩
  | @composed d b base c n o σ σ₁ σ₂ ds₁ ds₂ hderived harray hdescribe hrefers hfills ihrefers
      ihfills =>
    have htended₁ := htended.of_derives hw hkeys hrefers.derives (.refers hdescribe)
    have hvisiting := htended₁.visiting hw hkeys hJ (arrayed_of_derived hderived harray)
    have hfilled : (σ₁.visiting d).claims <+: σ₂.claims := claims_of_derives hfills.derives
    have hleft : σ₂.claims <+: (σ₂.leaving d).claims := List.prefix_refl _
    refine List.forall_mem_append.mpr ⟨fun deed hdeed => ?_, fun deed hdeed => ?_⟩
    · exact (ihrefers htended (.refers hdescribe) deed hdeed).mono (hfilled.trans hleft)
    · exact (ihfills hvisiting .fills deed hdeed).mono hleft
  | derived hderived harray hdescribe hrefers hstores ihrefers ihstores =>
    have htended₁ := htended.of_derives hw hkeys hrefers.derives (.refers hdescribe)
    refine List.forall_mem_append.mpr ⟨fun deed hdeed => ?_, ?_⟩
    · exact (ihrefers htended (.refers hdescribe) deed hdeed).mono
        (claims_of_derives hstores.derives)
    · exact ihstores htended₁ ⟨hJ, published_of_derived hderived harray⟩
  | enum _ hclaims _ _ _ _ =>
    have howns := hclaims.owns (same_of_describes hw hJ.1 hJ.2.shape)
    exact fun _ hdeed =>
      (rightful_of_entering hJ.1 hJ.2 howns hdeed).mono (Scene.claims_putting _ _ _)
  | object _ hclaims _ _ _ hfills ih =>
    have howns := (hclaims.owns (same_of_describes hw hJ.1 hJ.2.shape)).mono
      (claims_of_derives hfills.derives)
    have hclaimed := htended.of_claims hw hkeys hclaims hJ.1 hJ.2
    refine List.forall_mem_append.mpr ⟨fun deed hdeed => ?_, fun deed hdeed => ?_⟩
    · exact (ih hclaimed .fills deed hdeed).mono (Scene.claims_putting _ _ _)
    · exact (rightful_of_entering hJ.1 hJ.2 howns hdeed).mono (Scene.claims_putting _ _ _)
  | rest _ _ hdescribe hrefers hfills ihrefers ihfills
  | property _ _ hdescribe hrefers _ hfills ihrefers ihfills =>
    have htended₁ := htended.of_derives hw hkeys hrefers.derives (.refers hdescribe)
    refine List.forall_mem_append.mpr ⟨fun deed hdeed => ?_, ihfills htended₁ .fills⟩
    exact (ihrefers htended (.refers hdescribe) deed hdeed).mono
      (claims_of_derives hfills.derives)

end

/-! ## References -/

/-- All references in what a judgement shows lead to one of some names. -/
def Judgement.Shows (names : List String) : Judgement → Prop
  | .refers _ n => n.MentionsOnly names
  | .builds _ r => r.node.MentionsOnly names
  | .stores _ _ r => r.node.MentionsOnly names
  | .fills _ _ _ o => o.toNode.MentionsOnly names

/-- **Every reference in a schema has been handed out for a type.** -/
theorem Chronicle.shows {names : List String} (h : Chronicle env s J σ σ₁ ds)
    (hcites : ∀ d, Deed.cites d ∈ ds → d.name ∈ names) (hshows : σ.Shows names)
    (hgiven : J.Given names) : σ₁.Shows names ∧ J.Shows names := by
  induction h with
  | inPlace _ _ ih =>
    obtain ⟨hentries, hnode⟩ := ih
      (fun d hd => hcites d (List.mem_append_left _ hd)) hshows trivial
    exact ⟨hentries, hnode⟩
  | known _ _ hclaims =>
    refine ⟨fun e he => ?_, Node.mentionsOnly_refTo (hcites _ List.mem_cons_self)⟩
    rw [hclaims.claimed.registry] at he
    exact hshows e he
  | awaited => exact ⟨hshows, Node.mentionsOnly_refTo (hcites _ List.mem_cons_self)⟩
  | @fresh d r σ σ' ds _ _ _ _ ih =>
    obtain ⟨hentries, hnode⟩ := ih
      (fun d hd => hcites d (List.mem_append_left _ hd)) hshows trivial
    refine ⟨hentries, ?_⟩
    show (if r.stored = true then Node.refTo d.name else r.node).MentionsOnly names
    split
    next hstored =>
      refine Node.mentionsOnly_refTo (hcites d (List.mem_append_right _ ?_))
      rw [if_pos hstored]
      exact List.mem_cons_self
    next => exact hnode
  | plain hplain => exact ⟨hshows, fun _ hname => absurd hname hplain.not_mentions⟩
  | wrapped hwraps _ _ ih =>
    obtain ⟨hentries, hnode⟩ := ih hcites hshows trivial
    exact ⟨hentries, fun _ hname => hnode _ (hwraps.mentions hname)⟩
  | anyMap =>
    refine ⟨hshows, fun _ hname => ?_⟩
    exact absurd (Node.mentions_of_apply hname) Node.not_mentions_bare
  | cutArray | cut =>
    exact ⟨hshows, fun _ hname => absurd hname Node.not_mentions_emptyObject⟩
  | root _ _ _ ih => exact ih hcites hshows nofun
  | composed _ _ _ _ _ ihrefers ihfills =>
    obtain ⟨hentries₁, hn⟩ := ihrefers
      (fun d hd => hcites d (List.mem_append_left _ hd)) hshows trivial
    obtain ⟨hentries₂, ho⟩ := ihfills (fun d hd => hcites d (List.mem_append_right _ hd))
      hentries₁ fun _ h => absurd h Node.not_mentions_bare
    refine ⟨hentries₂, fun name hname => ?_⟩
    obtain ⟨x, hx, hmentions⟩ := Node.mentions_composition.mp
      (Node.mentions_array.mp (Node.mentions_of_apply hname))
    rcases List.mem_cons.mp hx with rfl | hx
    · exact hn name hmentions
    · rw [List.mem_singleton.mp hx] at hmentions
      exact ho name hmentions
  | derived _ _ _ _ _ ihrefers ihstores =>
    obtain ⟨hentries₁, hn⟩ := ihrefers
      (fun d hd => hcites d (List.mem_append_left _ hd)) hshows trivial
    refine ihstores (fun d hd => hcites d (List.mem_append_right _ hd)) hentries₁ fun b hb => ?_
    cases hb
    exact hn
  | existing _ hclaims hstored =>
    have hentries := hshows.of_claims hclaims
    exact ⟨hentries, hentries _ (Registry.mem_entries_of_get? hstored)⟩
  | enum _ hclaims _ _ _ hn =>
    subst hn
    exact (hshows.of_claims hclaims).putting _ fun name hname =>
      absurd (Node.mentions_of_apply hname) Node.not_mentions_leaf
  | object _ hclaims _ _ _ _ ih =>
    obtain ⟨hentries, ho⟩ := ih (fun d hd => hcites d (List.mem_append_left _ hd))
      (hshows.of_claims hclaims) fun _ h => absurd h not_mentions_start
    exact hentries.putting _ (mentionsOnly_over ho hgiven)
  | done => exact ⟨hshows, hgiven⟩
  | rest _ _ _ _ _ ihrefers ihfills =>
    obtain ⟨hentries, hn⟩ := ihrefers
      (fun d hd => hcites d (List.mem_append_left _ hd)) hshows trivial
    exact ihfills (fun d hd => hcites d (List.mem_append_right _ hd)) hentries
      (mentionsOnly_accepting hgiven hn)
  | property _ _ _ _ hdress _ ihrefers ihfills =>
    obtain ⟨hentries, hn⟩ := ihrefers
      (fun d hd => hcites d (List.mem_append_left _ hd)) hshows trivial
    exact ihfills (fun d hd => hcites d (List.mem_append_right _ hd)) hentries
      (mentionsOnly_adding hgiven fun name hname => hn name (mentions_of_dress hdress hname))

end Schemata
