import Schemata.Proofs.Schema.Json
import Schemata.Proofs.Synthesis.Capture

/-!
# What a synthesis makes of types of JSON

A schema is put together from what the types say that it is made of.  So if what they say is of
JSON --- the annotations of the types and of their properties, and the defaults that are published
--- then so are all schemas, those that are given and those that are stored on the way
(`json_of_course`).

The types are those of a set.  It has to hold all parts of its types, and their bases too where
these end at a leaf: the leaf is not a part of such a type, but the annotations of all its bases are
laid on it.
-/

namespace Schemata

open Environment (ObjectParts)

/-- The value that a type has for a property, if it has one. -/
def Descriptor.heldFor (d : Descriptor) (q : Property) : Option Value :=
  d.made.bind fun v => v.held? q.accessorName

/-- **A set of types that say nothing but what is of JSON**, with all that they lead to. -/
structure Session.OfJson (env : Environment) (s : Session) (E : Descriptor → Prop) : Prop where
  leads : Hereditary env s E
  bases : ∀ {d b t}, E d → d.base = some t → s.Settles (env.describe t) b → E b
  described : ∀ {d}, E d → s.Describes env d
  annotations : ∀ {d}, E d → ∀ r ∈ d.annotations, r.IsJson
  properties : ∀ {d}, E d → ∀ q ∈ d.properties, ∀ r ∈ q.annotations, r.IsJson
  defaults : env.captureDefaults = true → ∀ {d}, E d → ∀ q ∈ d.properties, ∀ v ∈ d.heldFor q,
    v.isFiniteDefault = true

/-- Everything that is stored is of JSON. -/
def Scene.IsJson (σ : Scene) : Prop :=
  ∀ e ∈ σ.registry.entries, e.2.IsJson

/-- What a judgement gives is of JSON. -/
def Judgement.IsJson : Judgement → Prop
  | .refers _ n => n.IsJson
  | .builds _ r => r.node.IsJson
  | .stores _ _ r => r.node.IsJson
  | .fills _ _ _ o => o.toNode.IsJson

/-- What a judgement starts from is of JSON: a base, or an object and the properties that are to be
added. -/
def Judgement.StartsOfJson (E : Descriptor → Prop) : Judgement → Prop
  | .stores _ base _ => ∀ b ∈ base, b.IsJson
  | .fills d o qs _ => E d ∧ d.shape.isInline = false ∧ qs ⊆ d.properties ∧ o.toNode.IsJson
  | _ => True

variable {env : Environment} {s : Session} {E : Descriptor → Prop} {d : Descriptor} {n m : Node}
  {σ σ₁ : Scene} {c : Constraints}

namespace Scene.IsJson

theorem of_registry (h : σ.IsJson) (heq : σ₁.registry = σ.registry) : σ₁.IsJson := by
  intro e he
  rw [heq] at he
  exact h e he

/-- What is stored is what is put or what was there before. -/
theorem putting (h : σ.IsJson) (hn : n.IsJson) (name : String) :
    (σ.putting name n).IsJson ∧ (σ.registry.put name n).1.IsJson := by
  cases hget : σ.registry.get? name with
  | some stored =>
    unfold Scene.putting
    rw [Registry.put_of_get? hget]
    exact ⟨h, h _ (Registry.mem_entries_of_get? hget)⟩
  | none =>
    refine ⟨fun e he => ?_, ?_⟩
    · rw [Scene.putting, Registry.put_of_free hget, (Registry.grown_store hget).entries] at he
      rcases List.mem_append.mp he with he | he
      · exact h e he
      · rwa [List.mem_singleton.mp he]
    · rw [Registry.put_of_free hget]
      exact hn

end Scene.IsJson

/-- **The node of a property is of JSON** if its constraints are, what holds its type is, and the
doubles in its default are finite. -/
theorem Property.isJson_of_dressed {q : Property} {capturing : Bool} {made : Option Value}
    (h : q.dressed capturing made c m = .ok n) (hm : m.IsJson) (hc : c.content.IsJson)
    (hdefault : capturing = true → ∀ v ∈ made.bind fun v => v.held? q.accessorName,
      v.isFiniteDefault = true) : n.IsJson := by
  unfold dressed at h
  split at h
  next hcapturing =>
    obtain ⟨v, hv, h⟩ := exists_of_bind_eq_ok h
    cases h
    refine (hm.laidOn hc).withDefault fun w hw => ?_
    cases hw
    obtain ⟨x, hx, hliteral⟩ := literal_of_defaultOn hv
    exact Value.isJson_of_literal hliteral
      (hdefault (Bool.and_eq_true _ _ ▸ hcapturing).1 x hx)
  next =>
    cases h
    exact hm.laidOn hc

namespace Session.OfJson

variable (hE : s.OfJson env E)
include hE

theorem merge (hd : E d) (h : Constraints.merge d.annotations = .ok c) : c.content.IsJson :=
  Constraints.isJson_of_merge (hE.annotations hd) h

/-- The bases of a type are types of the set. -/
theorem mem_of_basesFrom {fuel : Nat} {seen : List Identity} {bases : List Descriptor} {w w' : Walk}
    (hd : E d) (h : env.basesFrom fuel seen d w = .ok bases w') (hs : w'.session.Below s) :
    ∀ b ∈ bases, E b := by
  induction fuel generalizing seen d bases w with
  | zero =>
    obtain ⟨rfl, -⟩ := pure_eq_ok.mp h
    exact List.forall_mem_nil _
  | succ fuel ih =>
    cases hbase : d.base with
    | none =>
      rw [Environment.basesFrom, hbase] at h
      obtain ⟨rfl, -⟩ := pure_eq_ok.mp h
      exact List.forall_mem_nil _
    | some t =>
      rw [basesFrom_succ hbase] at h
      obtain ⟨b, w₁, hb, h⟩ := bind_eq_ok.mp h
      have hsettles (hbelow : w₁.session.Below s) : E b :=
        hE.bases hd hbase ((Environment.reads_describe t).settles_of_below hb hbelow)
      split at h
      · obtain ⟨rfl, rfl⟩ := pure_eq_ok.mp h
        exact List.forall_mem_nil _
      split at h
      · obtain ⟨rfl, rfl⟩ := pure_eq_ok.mp h
        exact List.forall_mem_singleton.mpr (hsettles hs)
      · obtain ⟨bases', w₂, hmore, h⟩ := bind_eq_ok.mp h
        obtain ⟨rfl, rfl⟩ := pure_eq_ok.mp h
        have hb := hsettles
          (((Environment.reads_basesFrom fuel _ b).learns.ok hmore).below.trans hs)
        exact List.forall_mem_cons.mpr ⟨hb, ih hb hmore⟩

theorem isJson_of_plain (hd : E d) (h : Plain env s d n) : n.IsJson := by
  cases h with
  | primitive _ hmerge => exact (Node.isJson_schema _).apply (hE.merge hd hmerge)
  | unknown _ hmerge =>
    have huntyped : Node.untyped.IsJson := .leaf Content.isJson_empty
    exact huntyped.apply (hE.merge hd hmerge)
  | @named kind n _ _ hleaf =>
    have hrun := hleaf ⟨s, []⟩ (.refl s)
    obtain ⟨bases, w₁, hbases, h⟩ := bind_eq_ok.mp hrun
    obtain ⟨c, w₂, hlift, hnode⟩ := bind_eq_ok.mp h
    obtain ⟨hmerge, hw₂⟩ := Build.lift_eq_ok.mp hlift
    have hend : w₂ = ⟨s, []⟩ ∧ ((c.apply kind.schema).IsJson → n.IsJson) := by
      cases hlaid : c.apply kind.schema with
      | leaf k type =>
        rw [hlaid] at hnode
        obtain ⟨rfl, hw⟩ := pure_eq_ok.mp hnode
        refine ⟨hw.symm, fun h => ?_⟩
        split
        · exact Node.isJson_arrayOf h.content
        · exact h
      | object | array | ref | composition | union =>
        rw [hlaid] at hnode
        obtain ⟨rfl, hw⟩ := pure_eq_ok.mp hnode
        exact ⟨hw.symm, id⟩
    have hbelow : w₁.session.Below s := by
      rw [← hw₂, hend.1]
      exact .refl s
    refine hend.2 ((Node.isJson_schema kind).apply (Constraints.isJson_of_merge ?_ hmerge))
    refine List.forall_mem_append.mpr ⟨fun r hr => ?_, hE.annotations hd⟩
    obtain ⟨b, hb, hr⟩ := List.mem_flatMap.mp hr
    exact hE.annotations (hE.mem_of_basesFrom hd hbases hbelow b (List.mem_reverse.mp hb)) r hr

theorem isJson_of_wraps {t : Token} (hd : E d) (h : Wraps env s d t m n) (hm : m.IsJson) :
    n.IsJson := by
  cases h with
  | nullable => exact hm.makeNullable
  | array _ hmerge =>
    have harray : (Node.array { uniqueItems := d.uniqueItems } m).IsJson :=
      .array Content.isJson_empty hm
    exact harray.apply (hE.merge hd hmerge)
  | map _ hmerge =>
    have hmap : (Node.object {} [] (some m) none).IsJson :=
      .object Content.isJson_empty (List.forall_mem_nil _) fun a ha => Option.some.inj ha ▸ hm
    exact hmap.apply (hE.merge hd hmerge)
  | renamed _ _ _ hmerge _ =>
    refine Node.IsJson.apply ?_ (hE.merge hd hmerge)
    split
    · exact .array (k := {}) Content.isJson_empty hm
    · exact hm

end Session.OfJson

section

variable (hw : s.WellRead env) (hkeys : env.KeysDistinct) (hrecalls : s.Recalls env)
  (hE : s.OfJson env E)
include hw hkeys hrecalls hE

/-- **A synthesis gives and stores what is of JSON**, if the types are that it is about. -/
theorem json_of_course {k : Nat} {J : Judgement} {w w' : Walk}
    (h : Course env s s.instances k J w w') (hJ : J.Within env s E) (hstart : J.StartsOfJson E)
    (hscene : w.scene.IsJson) : w'.scene.IsJson ∧ J.IsJson := by
  induction h with
  | learns hlearns _ ih =>
    rw [← hlearns.scene] at hscene
    exact ih hJ hstart hscene
  | inPlace _ _ _ ih => exact ih hJ trivial hscene
  | known _ _ hclaim =>
    exact ⟨hscene.of_registry (claims_of_claim hclaim).claimed.registry, .refTo _⟩
  | awaited => exact ⟨hscene, .refTo _⟩
  | @fresh k d r w w' _ _ _ _ _ ih =>
    obtain ⟨hentries, hnode⟩ := ih hJ trivial hscene
    refine ⟨hentries, ?_⟩
    show (if r.stored then Node.refTo d.name else r.node).IsJson
    split
    · exact .refTo _
    · exact hnode
  | plain hplain => exact ⟨hscene, hE.isJson_of_plain hJ hplain⟩
  | wrapped hwraps _ _ hinner _ ih =>
    obtain ⟨hentries, hm⟩ := ih (hE.leads hJ ⟨_, hwraps.partOf, hinner⟩) trivial hscene
    exact ⟨hentries, hE.isJson_of_wraps hJ hwraps hm⟩
  | anyMap _ _ _ hmerge =>
    have hmap : (Node.object {} [] none (some true)).IsJson :=
      .object Content.isJson_empty (List.forall_mem_nil _) nofun
    exact ⟨hscene, hmap.apply (hE.merge hJ hmerge)⟩
  | cutArray | cut => exact ⟨hscene, .emptyObject⟩
  | root hshape hbase _ ih => exact ih ⟨hJ, published_of_root hshape hbase⟩ nofun hscene
  | @composed k d b base c m o w w₁ w₂ w₃ hderived harray _ _ hdescribe _ _ _ _ hlearns _ ihrefers
      ihfills =>
    have harr := arrayed_of_derived hderived harray
    have hc := hE.merge hJ hderived.merge
    obtain ⟨hentries₁, hm⟩ := ihrefers (hE.bases hJ hderived.base hdescribe) trivial hscene
    obtain ⟨hentries₂, ho⟩ := ihfills
      (fun q hq x hx => hE.leads hJ ⟨_, .property hderived.kind (.inr harr) hq, hx⟩)
      ⟨hJ, hderived.shape, List.Subset.refl _,
        ObjectParts.isJson_requiring (o := .ofNode .emptyObject) .emptyObject hc.required⟩ hentries₁
    rw [← hlearns.scene] at hentries₂
    refine ⟨hentries₂, ?_⟩
    have hitems : (Node.composition [m, o.toNode] none none).IsJson :=
      .intro Content.isJson_empty
        (List.forall_mem_cons.mpr ⟨hm, List.forall_mem_singleton.mpr ho⟩)
    have harray : (Node.array {} (.composition [m, o.toNode] none none)).IsJson :=
      .array Content.isJson_empty hitems
    exact harray.apply { hc with required := List.forall_mem_nil _ }
  | derived hderived harray hdescribe _ _ ihrefers ihstores =>
    obtain ⟨hentries, hm⟩ := ihrefers (hE.bases hJ hderived.base hdescribe) trivial hscene
    refine ihstores ⟨hJ, published_of_derived hderived harray⟩ (fun b hb => ?_) hentries
    cases hb
    exact hm
  | existing _ hclaim hstored =>
    have hentries := hscene.of_registry (claims_of_claim hclaim).claimed.registry
    exact ⟨hentries, hentries _ (Registry.mem_entries_of_get? hstored)⟩
  | @enum k d base c stored w w₁ w' _ hclaim _ _ hmerge hput =>
    obtain ⟨rfl, heq⟩ := scene_of_putting hput
    have hmembers : (Node.leaf { choices := d.members.map .text } (some .string)).IsJson :=
      .leaf { Content.isJson_empty with choices := List.forall_mem_map.mpr fun _ _ => rfl }
    rw [heq]
    exact (hscene.of_registry (claims_of_claim hclaim).claimed.registry).putting
      (hmembers.apply (hE.merge hJ.1 hmerge)) d.name
  | @object k d base c o stored w w₁ w₂ w₃ w' _ hclaim _ hshape hmerge _ hlearns _ hput ih =>
    obtain ⟨rfl, heq⟩ := scene_of_putting hput
    obtain ⟨hentries, ho⟩ := ih
      (fun q hq x hx =>
        hE.leads hJ.1 ⟨_, .property hJ.2.kind (.inl (hJ.2.eq_object hshape)) hq, hx⟩)
      ⟨hJ.1, hJ.2.shape, List.Subset.refl _, ObjectParts.isJson_start (hE.merge hJ.1 hmerge)⟩
      (hscene.of_registry (claims_of_claim hclaim).claimed.registry)
    rw [heq, hlearns.scene]
    exact hentries.putting (ObjectParts.isJson_over ho hstart) d.name
  | done => exact ⟨hscene, hstart.2.2.2⟩
  | rest _ hmerge hdescribe _ _ ihrefers ihfills =>
    obtain ⟨hd, hshape, hqs, ho⟩ := hstart
    obtain ⟨hq, hqs⟩ := List.cons_subset.mp hqs
    obtain ⟨hentries, hm⟩ := ihrefers (hJ _ List.mem_cons_self _ hdescribe) trivial hscene
    have hc := Constraints.isJson_of_merge (hE.properties hd _ hq) hmerge
    exact ihfills (fun q hq => hJ q (List.mem_cons_of_mem _ hq))
      ⟨hd, hshape, hqs, ObjectParts.isJson_accepting ho hc hm⟩ hentries
  | @property k d inner o o' q qs c held node w w₁ w₂ w' _ hmerge hdescribe _ hdress hinstances _
      ihrefers ihfills =>
    obtain ⟨hd, hshape, hqs, ho⟩ := hstart
    obtain ⟨hq, hqs⟩ := List.cons_subset.mp hqs
    obtain ⟨hentries, hm⟩ := ihrefers (hJ _ List.mem_cons_self _ hdescribe) trivial hscene
    have hc := Constraints.isJson_of_merge (hE.properties hd _ hq) hmerge
    have hlearns := (Environment.learns_dress _ _ _ _).ok hdress
    have hdressed := dressed_of_dress hw hkeys hrecalls (hE.described hd) hshape hdress
      (List.IsPrefix.trans hlearns.session.instances hinstances)
    have hnode := Property.isJson_of_dressed hdressed hm hc
      fun hcapturing => hE.defaults hcapturing hd q hq
    rw [← hlearns.scene] at hentries
    exact ihfills (fun q hq => hJ q (List.mem_cons_of_mem _ hq))
      ⟨hd, hshape, hqs, ObjectParts.isJson_adding ho hnode⟩ hentries

end

end Schemata
