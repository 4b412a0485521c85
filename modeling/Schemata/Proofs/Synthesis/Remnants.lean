import Schemata.Proofs.Synthesis.Heeding
import Schemata.Proofs.Synthesis.Instances
import Schemata.Proofs.Synthesis.Unfolding

/-!
# What a dropped group leaves behind

A group of writes that is dropped takes back what it has written, and nothing else.  Readings and
instances are kept, and so are claims, though nothing is stored under their names any more.  Does
this show in what is published later?

Readings and instances do not show.  A type that has been read before is the same as one that is
read now, and an instance is the same whenever it is made (`made_of_instanceOf`).  Claims may: a
name that is claimed for one type is refused to all others.

So two walks are compared that have read the same, visit the same and store the same, the second of
which is `Walk.Laden` with claims that are left over.  They go on evenly (`Evenly`): the second
gives what the first gives, or fails as the first does --- unless it comes to a type that is
published by name, and whose name is left over for another type (`Hindrance`).
-/

namespace Schemata

open Environment (ObjectParts mapInner)

variable {env : Environment} {B S S' : Session} {L : List (String × Key)}
  {root d x y : Descriptor} {w v : Walk}

/-! ## Owners -/

/-- Descriptors of one type have keys that are the same as the same keys. -/
theorem same_congr (hw : S.WellRead env) (hkeys : env.KeysDistinct) (hx : S.Describes env x)
    (hy : S.Describes env y) (hd : S.Describes env d) (hshape : x.shape.isInline = false)
    (hshape' : d.shape.isInline = false) (hkin : x.Kin y) :
    x.key.same d.key = y.key.same d.key := by
  have himp {x y : Descriptor} (hx : S.Describes env x) (hy : S.Describes env y)
      (hshape : x.shape.isInline = false) (hkin : x.Kin y) (hsame : x.key.same d.key = true) :
      y.key.same d.key = true := by
    have hxd := kin_of_described hw hkeys hx hd hshape hshape' hsame
    have hself := same_of_describes hw hy (by rw [hkin.alike.shape, hshape])
    exact same_of_kin hself (.refl y) (hkin.symm.trans hxd)
  exact Bool.eq_iff_iff.mpr
    ⟨himp hx hy hshape hkin, himp hy hx (by rw [hkin.alike.shape, hshape]) hkin.symm⟩

/-- Owners that are descriptors of one type are told alike. -/
theorem ownerText_congr (p : Program) (hkin : x.Kin y) : p.ownerText x.key = p.ownerText y.key := by
  have hsource : y.source = x.source := hkin.source_eq
  unfold Program.ownerText Descriptor.key
  cases hx : x.source with
  | none =>
    simp only [hx, hsource]
    rcases hkin.key with hid | ⟨t, ht, -⟩
    · rw [hid]
    · cases hx.symm.trans ht
  | some t => simp only [hx, hsource]

/-- **Who has a name in two walks**: descriptors of one type, or nobody, or nobody in the one and
whom it was left over for in the other. -/
inductive Tenants (env : Environment) (S : Session) (L : List (String × Key)) (name : String) :
    Option Key → Option Key → Prop
  | kin {x y : Descriptor} (hx : S.Describes env x) (hy : S.Describes env y)
      (hshape : x.shape.isInline = false) (hkin : x.Kin y) :
      Tenants env S L name (some x.key) (some y.key)
  | nobody : Tenants env S L name none none
  | left {y : Descriptor} (hy : S.Describes env y) (hshape : y.shape.isInline = false)
      (hleft : getKey? name L = some y.key) : Tenants env S L name none (some y.key)

theorem Tenants.mono {name : String} {o o' : Option Key} (h : Tenants env S L name o o')
    (hS : S.Below S') : Tenants env S' L name o o' := by
  cases h with
  | kin hx hy hshape hkin => exact .kin (hx.mono hS) (hy.mono hS) hshape hkin
  | nobody => exact .nobody
  | left hy hshape hleft => exact .left (hy.mono hS) hshape hleft

/-- **One walk is another with claims that are left over**, and with instances of its own. -/
structure Walk.Laden (env : Environment) (B : Session) (L : List (String × Key)) (w v : Walk) :
    Prop where
  abreast : w.Abreast v
  registry : v.session.registry = w.session.registry
  depth : v.session.depth = w.session.depth
  owners : ∀ name, Tenants env w.session L name (getKey? name w.session.claims)
    (getKey? name v.session.claims)
  names : w.session.registry.names ⊆ w.session.claimed
  wellRead : w.session.WellRead env
  recalls : w.session.Recalls env
  recalls' : v.session.Recalls env
  /-- All that was known at first is known. -/
  below : B.Below w.session

namespace Walk.Laden

/-- Two walks that learn the same. -/
theorem of_learns {w' v' : Walk} (h : w.Laden env B L v) (hw : w.Learns env w')
    (hv : v.Learns env v') (habreast : w'.Abreast v')
    (hi : w'.session.Recalls env) (hi' : v'.session.Recalls env) : w'.Laden env B L v' where
  abreast := habreast
  registry := by rw [hv.session.registry, hw.session.registry, h.registry]
  depth := by rw [hv.session.depth, hw.session.depth, h.depth]
  owners name := by
    rw [hv.session.claims, hw.session.claims]
    exact (h.owners name).mono hw.below
  names := by
    rw [hw.session.registry, Session.claimed, hw.session.claims]
    exact h.names
  wellRead := hw.session.wellRead h.wellRead
  recalls := hi
  recalls' := hi'
  below := h.below.trans hw.below

/-- What is visited does not matter. -/
theorem visiting (h : w.Laden env B L v) (f : List Key → List Key) :
    Walk.Laden env B L { w with visited := f w.visited } { v with visited := f v.visited } :=
  ⟨⟨h.abreast.readings, congrArg f h.abreast.visited⟩, h.registry, h.depth, h.owners, h.names,
    h.wellRead, h.recalls, h.recalls', h.below⟩

theorem atDepth (h : w.Laden env B L v) (n : Nat) : (w.atDepth n).Laden env B L (v.atDepth n) :=
  ⟨⟨h.abreast.readings, h.abreast.visited⟩, h.registry, rfl,
    fun name => (h.owners name).mono (.refl _), h.names, h.wellRead, h.recalls, h.recalls', h.below⟩

/-- What instances there are does not matter, as long as they are those of their types. -/
theorem recalling (h : w.Laden env B L v) {l l' : List (Key × Option Value)}
    (hl : Session.Recalls env { w.session with instances := l })
    (hl' : Session.Recalls env { v.session with instances := l' }) :
    Walk.Laden env B L { w with session := { w.session with instances := l } }
      { v with session := { v.session with instances := l' } } :=
  ⟨⟨h.abreast.readings, h.abreast.visited⟩, h.registry, h.depth,
    fun name => (h.owners name).mono (.refl _), h.names, h.wellRead, hl, hl', h.below⟩

theorem wellRead' (h : w.Laden env B L v) : v.session.WellRead env := by
  unfold Session.WellRead
  rw [h.abreast.readings]
  exact h.wellRead

/-- A question about types is answered alike. -/
theorem tallies_of_reads {α : Type} {x : Build α} {Z : Fault → Prop} (h : w.Laden env B L v)
    (hx : Build.Heeds x) (hr : Build.Reads env x) : Tallies (Walk.Laden env B L) Z (x w) (x v) := by
  have hrecalls {u : Walk} (hu : u.session.Recalls env) : (after x u).session.Recalls env :=
    hu.of_eq (hr.learns u).below (hr.instances u)
  refine (hx.tallies h.abreast).of_after fun habreast => ?_
  exact h.of_learns (hr.learns w) (hr.learns v) habreast (hrecalls h.recalls) (hrecalls h.recalls')

end Walk.Laden

/-! ## Going on evenly -/

/-- **What stands in the way.**  A type leads to another that is published by name and whose name is
left over for neither of its descriptors; it is refused for this reason. -/
def Hindrance (env : Environment) (B : Session) (L : List (String × Key)) (root : Descriptor)
    (e : Fault) : Prop :=
  ∃ S x k first second, B.Below S ∧ S.WellRead env ∧ Reaches env S root x ∧
    Published env S x ∧ getKey? x.name L = some k ∧ k.same x.key = false ∧
    e = .duplicateName x.name first second

/-- A computation goes on evenly from two walks. -/
def Evenly {α : Type} (env : Environment) (B : Session) (L : List (String × Key))
    (root : Descriptor) (x : Build α) (w v : Walk) : Prop :=
  w.Laden env B L v → Tallies (Walk.Laden env B L) (Hindrance env B L root) (x w) (x v)

namespace Evenly

open Build

variable {α β : Type} {x : Build α}

theorem pure (a : α) : Evenly env B L root (pure a) w v :=
  fun h => .ok h

theorem throw (e : Fault) : Evenly env B L root (throw e : Build α) w v :=
  fun h => .error h

theorem lift (r : Except Fault α) : Evenly env B L root (lift r) w v :=
  fun h => tallies_lift r h

theorem bind {f : α → Build β} (hx : Evenly env B L root x w v)
    (hf : ∀ {a w₁ v₁}, x w = .ok a w₁ → Evenly env B L root (f a) w₁ v₁) :
    Evenly env B L root (x >>= f) w v :=
  fun h => (hx h).bind fun hok _ h₁ => hf hok h₁

theorem ite {c : Prop} [Decidable c] {y : Build α} (hx : c → Evenly env B L root x w v)
    (hy : ¬ c → Evenly env B L root y w v) : Evenly env B L root (if c then x else y) w v := by
  split
  next hc => exact hx hc
  next hc => exact hy hc

theorem of_reads (hx : Heeds x) (hr : Reads env x) : Evenly env B L root x w v :=
  fun h => h.tallies_of_reads hx hr

theorem isVisited (k : Key) : Evenly env B L root (isVisited k) w v :=
  fun h => tallies_isVisited k h.abreast.visited.symm h

theorem visit (k : Key) : Evenly env B L root (visit k) w v :=
  fun h => .ok (h.visiting (k :: ·))

theorem stored? (name : String) : Evenly env B L root (stored? name) w v :=
  fun h => tallies_asks (by rw [h.registry]) h

theorem whileVisiting {k : Key}
    (h : Evenly env B L root x { w with visited := k :: w.visited }
      { v with visited := k :: v.visited }) : Evenly env B L root (whileVisiting k x) w v := by
  intro hladen
  have hrun (u : Walk) : Build.whileVisiting k x u =
      ending (fun u => { u with visited := k.without u.visited })
        (x { u with visited := k :: u.visited }) := by
    unfold Build.whileVisiting
    cases x { u with visited := k :: u.visited } <;> rfl
  rw [hrun w, hrun v]
  exact (h (hladen.visiting (k :: ·))).ending fun h' => h'.visiting k.without

end Evenly

/-! ## The basic steps of the synthesis -/

/-- A name gets an owner in both walks, or in one. -/
theorem Walk.Laden.claiming (h : w.Laden env B L v) {claims claims' : List (String × Key)}
    {name : String} (hkept : w.session.claims ⊆ claims)
    (hname : Tenants env w.session L name (getKey? name claims) (getKey? name claims'))
    (hothers : ∀ other, name ≠ other → getKey? other claims = getKey? other w.session.claims ∧
      getKey? other claims' = getKey? other v.session.claims) :
    Walk.Laden env B L { w with session := { w.session with claims := claims } }
      { v with session := { v.session with claims := claims' } } := by
  refine ⟨⟨h.abreast.readings, h.abreast.visited⟩, h.registry, h.depth, fun other => ?_,
    fun _ hname => List.map_subset Prod.fst hkept (h.names hname), h.wellRead,
    h.recalls.of_eq (.refl _) rfl, h.recalls'.of_eq (.refl _) rfl, h.below⟩
  refine Tenants.mono (S := w.session) ?_ (.refl _)
  by_cases heq : name = other
  · exact heq ▸ hname
  · show Tenants env w.session L other (getKey? other claims) (getKey? other claims')
    rw [(hothers other heq).1, (hothers other heq).2]
    exact h.owners other

namespace Evenly

section

variable (hkeys : env.KeysDistinct) (hd : w.session.Describes env d)
  (hshape : d.shape.isInline = false)
include hkeys hd hshape

/-- **A name is claimed evenly**, unless it is left over for another type that is published by
name. -/
theorem claim (hreaches : Reaches env w.session root d)
    (hfree : d.name ∈ w.session.registry.names ∨ Published env w.session d) :
    Evenly env B L root (env.claim d.name d) w v := by
  intro h
  have howners := h.owners d.name
  generalize hw : getKey? d.name w.session.claims = ow,
    hv : getKey? d.name v.session.claims = ov at howners
  cases howners with
  | @kin x y hx hy hxshape hkin =>
    have hsame := same_congr h.wellRead hkeys hx hy hd hxshape hshape hkin
    by_cases howns : x.key.same d.key = true
    · have hok : env.claim d.name d w = .ok () w :=
        Environment.claim_eq_ok.mpr (.inl ⟨_, hw, howns, rfl⟩)
      have hok' : env.claim d.name d v = .ok () v :=
        Environment.claim_eq_ok.mpr (.inl ⟨_, hv, hsame ▸ howns, rfl⟩)
      rw [hok, hok']
      exact .ok h
    · rw [Environment.claim_of_other hw howns, Environment.claim_of_other hv (hsame ▸ howns),
        ownerText_congr _ hkin]
      exact .error h
  | nobody =>
    have hok : env.claim d.name d w = .ok () _ := Environment.claim_eq_ok.mpr (.inr ⟨hw, rfl⟩)
    have hok' : env.claim d.name d v = .ok () _ := Environment.claim_eq_ok.mpr (.inr ⟨hv, rfl⟩)
    rw [hok, hok']
    refine .ok (h.claiming (List.subset_append_left _ _) ?_ fun other hne =>
      ⟨getKey?_concat_of_ne hne, getKey?_concat_of_ne hne⟩)
    rw [getKey?_concat_self hw, getKey?_concat_self hv]
    exact .kin hd hd hshape (.refl d)
  | @left y hy hyshape hleft =>
    by_cases howns : y.key.same d.key = true
    · have hok : env.claim d.name d w = .ok () _ := Environment.claim_eq_ok.mpr (.inr ⟨hw, rfl⟩)
      have hok' : env.claim d.name d v = .ok () v :=
        Environment.claim_eq_ok.mpr (.inl ⟨_, hv, howns, rfl⟩)
      rw [hok, hok']
      have hkin := kin_of_described h.wellRead hkeys hy hd hyshape hshape howns
      have htenants : Tenants env w.session L d.name
          (getKey? d.name (w.session.claims ++ [(d.name, d.key)]))
          (getKey? d.name v.session.claims) := by
        rw [getKey?_concat_self hw, hv]
        exact .kin hd hy hshape hkin.symm
      exact .ok (h.claiming (List.subset_append_left _ _) htenants fun other hne =>
        ⟨getKey?_concat_of_ne hne, rfl⟩)
    · rw [Environment.claim_of_other hv howns]
      refine .cut ⟨w.session, d, y.key, _, _, h.below, h.wellRead, hreaches, ?_, hleft,
        Bool.not_eq_true _ ▸ howns, rfl⟩
      rcases hfree with hstored | hpub
      · exact absurd (h.names hstored) (getKey?_eq_none_iff.mp hw)
      · exact hpub

/-- **Instances are the same** whenever they are made. -/
theorem instanceOf : Evenly env B L root (Build.instanceOf d) w v := by
  intro h
  cases hcheck : d.key.check with
  | error e =>
    have hfails (u : Walk) : Build.instanceOf d u = .error e u :=
      bind_eq_error.mpr (.inl (by rw [hcheck]; rfl))
    rw [hfails w, hfails v]
    exact .error h
  | ok =>
    obtain ⟨made, l, hok⟩ := Build.exists_instanceOf w hcheck
    obtain ⟨made', l', hok'⟩ := Build.exists_instanceOf v hcheck
    have hd' := hd.mono h.abreast.below
    have hmade : made = d.made :=
      made_of_instanceOf h.wellRead hkeys h.recalls hd hshape hok (List.prefix_refl _)
    have hmade' : made' = d.made :=
      made_of_instanceOf h.wellRead' hkeys h.recalls' hd' hshape hok' (List.prefix_refl _)
    have hrecalls := (Build.recollects_instanceOf hd hshape).recalls h.recalls
    have hrecalls' := (Build.recollects_instanceOf hd' hshape).recalls h.recalls'
    rw [after_of_ok hok] at hrecalls
    rw [after_of_ok hok'] at hrecalls'
    rw [hok, hok', hmade, hmade']
    exact .ok (h.recalling hrecalls hrecalls')

theorem dress (q : Property) (c : Constraints) (held : Node) :
    Evenly env B L root (env.dress d q c held) w v := by
  rw [Environment.dress_eq]
  refine .ite (fun _ => .bind ?_ fun _ => .pure _) fun _ => .pure _
  unfold Build.capture
  refine .bind (.instanceOf hkeys hd hshape) fun {made _ _} _ => ?_
  split
  · exact .pure _
  · exact .bind (.lift _) fun _ => .ite (fun _ => .pure _) fun _ => .pure _

end

theorem annotate (records : List Record) (n : Node) :
    Evenly env B L root (Environment.annotate records n) w v :=
  .bind (.lift _) fun _ => .pure _

/-- The same is stored under a name that is claimed. -/
theorem putting {name : String} (n : Node) (hname : name ∈ w.session.claimed) :
    Evenly env B L root (Registry.putting name n) w v := by
  intro h
  have hput : (Registry.putting name n : Build Node) v = .ok (w.session.registry.put name n).1
      { v with session := { v.session with registry := (w.session.registry.put name n).2 } } := by
    rw [← h.registry]
    rfl
  rw [hput]
  refine .ok ⟨⟨h.abreast.readings, h.abreast.visited⟩, rfl, h.depth, fun name' =>
    (h.owners name').mono (.refl _), fun name' hname' => ?_, h.wellRead,
    h.recalls.of_eq (.refl _) rfl, h.recalls'.of_eq (.refl _) rfl, h.below⟩
  obtain ⟨new, hgrown, hnew⟩ := Registry.grown_put w.session.registry name n
  change name' ∈ (w.session.registry.put name n).2.names at hname'
  rw [hgrown.names] at hname'
  rcases List.mem_append.mp hname' with hold | hnew'
  · exact h.names hold
  · obtain ⟨e, he, rfl⟩ := List.mem_map.mp hnew'
    rw [hnew e he]
    exact hname

theorem deepening {α : Type} {x : Build α} (d : Descriptor)
    (hx : Evenly env B L root x w.deeper v.deeper) :
    Evenly env B L root (env.deepening d x) w v := by
  intro h
  have hrun (u : Walk) : env.deepening d x u = ending Walk.shallower
      (if env.maxDepth < u.deeper.session.depth then
        .error (.tooDeep d.name env.maxDepth) u.deeper else x u.deeper) := by
    unfold Environment.deepening Walk.deeper
    by_cases hdepth : env.maxDepth < (u.atDepth (u.session.depth + 1)).session.depth
    · simp only [if_pos hdepth]
      rfl
    · simp only [if_neg hdepth]
      cases x (u.atDepth (u.session.depth + 1)) <;> rfl
  have hdeeper : w.deeper.Laden env B L v.deeper := by
    unfold Walk.deeper
    rw [h.depth]
    exact h.atDepth _
  rw [hrun w, hrun v, hdeeper.depth]
  refine Tallies.ending (R := Walk.Laden env B L) ?_ fun {w' v'} h' => ?_
  · split
    · exact .error hdeeper
    · exact hx hdeeper
  · unfold Walk.shallower
    rw [h'.depth]
    exact h'.atDepth _

theorem isAwaited (d : Descriptor) : Evenly env B L root (env.isAwaited d) w v :=
  .bind (.isVisited _) fun _ => .ite (fun _ =>
    .bind (.of_reads (Environment.heeds_publishesArray d) (Environment.reads_publishesArray d))
      fun _ => .pure _) fun _ => .pure _

theorem isArrayVisited (d : Descriptor) : Evenly env B L root (env.isArrayVisited d) w v :=
  .bind (.isVisited _) fun _ => .ite (fun _ =>
    .of_reads (Environment.heeds_publishesArray d) (Environment.reads_publishesArray d))
      fun _ => .pure _

end Evenly

/-! ## What a type leads to -/

/-- A type leads to whatever a token stands for. -/
def Leads (env : Environment) (S : Session) (d : Descriptor) (t : Token) : Prop :=
  ∃ x, Reaches env S d x ∧ PartOf env S x t

theorem Leads.mono {t : Token} (h : Leads env S d t) (hS : S.Below S') : Leads env S' d t :=
  let ⟨x, hx, ht⟩ := h
  ⟨x, hx.mono hS, ht.mono hS⟩

theorem Leads.reaches {t : Token} (h : Leads env S d t) (hx : S.Settles (env.describe t) x) :
    Reaches env S d x :=
  let ⟨_, hy, ht⟩ := h
  hy.tail ⟨t, ht, hx⟩

theorem Reaches.describes (h : Reaches env S root d) (hroot : S.Describes env root) :
    S.Describes env d :=
  hereditary_describes.of_reaches hroot h

/-- The types of the properties of an object that is published by name. -/
theorem Leads.property {q : Property} (hd : Reaches env S root d) (hpub : Published env S d)
    (hshape : d.shape ≠ .enum) (hq : q ∈ d.properties) : Leads env S root q.type :=
  ⟨d, hd, .property hpub.kind (.inl (hpub.eq_object hshape)) hq⟩

/-- What is to be combined with the object of a type is left to types that are published by
name. -/
theorem published_of_inherit {builder : Descriptor → Build Built}
    (hk : ∀ d, Keeps (Walk.Grows env) (builder d)) {base : Token} {node : Node} {w' : Walk}
    (hshape : d.shape.isInline = false) (h : env.inherit builder d base w = .ok (.base node) w') :
    Published env w'.session d := by
  obtain ⟨kind, w₁, hkind, hthen⟩ := bind_eq_ok.mp h
  cases kind with
  | some kind =>
    obtain ⟨leaf, w₂, -, hend⟩ := bind_eq_ok.mp hthen
    cases (pure_eq_ok.mp hend).1
  | none =>
    obtain ⟨c, w₂, hlift, hrest⟩ := bind_eq_ok.mp hthen
    obtain ⟨hmerge, rfl⟩ := Build.lift_eq_ok.mp hlift
    obtain ⟨m, w₃, hrefer, hend⟩ := bind_eq_ok.mp hrest
    have hbelow : w₂.session.Below w₃.session :=
      ((Environment.keeps_referTo hk base).ok hrefer).below
    split at hend
    · cases (pure_eq_ok.mp hend).1
    next hprops =>
      split at hend
      · obtain ⟨_, _, -, hend⟩ := bind_eq_ok.mp hend
        cases (pure_eq_ok.mp hend).1
      next harray =>
        obtain ⟨-, rfl⟩ := pure_eq_ok.mp hend
        exact ⟨hshape, ((Environment.reads_primitiveKind d).settles hkind).mono hbelow,
          .inr ⟨fun hnil => hprops (List.isEmpty_iff.mpr hnil), c, hmerge,
            Bool.eq_false_iff.mpr harray⟩⟩

/-! ## The functions of the synthesis -/

namespace Evenly

open Environment (keeps_claim keeps_referTo keeps_addProperty keeps_inherit keeps_ownNode
  learns_isAwaited learns_isArrayVisited learns_dress)

/-- What is visited by a walk is of no matter for what its session knows. -/
theorem of_below {α : Type} {x : Build α}
    (h : B.Below w.session → Evenly env B L root x w v) : Evenly env B L root x w v :=
  fun hladen => h hladen.below hladen

section Builder

variable (hkeys : env.KeysDistinct) (hroot : B.Describes env root)
  {builder : Descriptor → Build Built} (hk : ∀ d, Keeps (Walk.Grows env) (builder d))
  (hb : ∀ {d w v}, Reaches env w.session root d → Evenly env B L root (builder d) w v)

include hkeys hroot hb

theorem refer (hd : Reaches env w.session root d) :
    Evenly env B L root (env.refer builder d) w v := by
  unfold Environment.refer
  refine .bind (.of_reads (Environment.heeds_isInline d) (Environment.reads_isInline d))
    fun {inline w₁ v₁} hinline => ?_
  have hd₁ := hd.mono ((Environment.reads_isInline d).learns.ok hinline).below
  refine .ite (fun _ => .bind (hb hd₁) fun _ => .pure _) fun hno => ?_
  refine .bind (.stored? _) fun {found w₂ v₂} hfound => ?_
  obtain ⟨rfl, rfl⟩ := Build.stored?_eq_ok.mp hfound
  refine .ite (fun hstored => ?_) fun _ => ?_
  · refine .bind (.of_below fun hbelow => ?_) fun _ => .pure _
    obtain rfl := Bool.eq_false_iff.mpr hno
    obtain ⟨hshape, -⟩ := settles_isInline_false ((Environment.reads_isInline d).settles hinline)
    exact .claim hkeys (hd₁.describes (hroot.mono hbelow)) hshape hd₁
      (.inl (Registry.isSome_get?_iff.mp hstored))
  refine .bind (.isAwaited d) fun {awaited w₃ v₃} hawaited => ?_
  have hd₃ := hd₁.mono ((learns_isAwaited d).ok hawaited).below
  exact .ite (fun _ => .pure _) fun _ => .bind (hb hd₃) fun _ => .pure _

theorem referTo {t : Token} (ht : Leads env w.session root t) :
    Evenly env B L root (env.referTo builder t) w v := by
  unfold Environment.referTo
  have hreads : Build.Reads env (env.describe t) := Environment.reads_describe t
  refine .bind (.of_reads (Environment.heeds_describe t) hreads) fun {x w₁ v₁} hx => ?_
  exact refer hkeys hroot hb ((ht.mono (hreads.learns.ok hx).below).reaches (hreads.settles hx))

theorem mapNode (hd : Reaches env w.session root d) (hshape : d.shape = .map) :
    Evenly env B L root (env.mapNode builder d) w v := by
  unfold Environment.mapNode
  have hreads : Build.Reads env (env.describe (mapInner d)) := Environment.reads_describe _
  refine .bind (.of_reads (Environment.heeds_describe _) hreads) fun {value w₁ v₁} hvalue => ?_
  refine .bind ?_ fun {node _ _} _ => .annotate _ node
  unfold Environment.mapTo
  refine .ite (fun _ => .pure _) fun _ => .bind (refer hkeys hroot hb ?_) fun _ => .pure _
  have hd₁ := hd.mono (hreads.learns.ok hvalue).below
  exact hd₁.tail ⟨_, .value hshape, hreads.settles hvalue⟩

section

variable (hd : Reaches env w.session root d) (hshape : d.shape.isInline = false)
include hd hshape hk

theorem addProperty (o : ObjectParts) {q : Property} (hq : Leads env w.session root q.type) :
    Evenly env B L root (env.addProperty builder d o q) w v := by
  unfold Environment.addProperty Environment.propertyNode
  refine .bind (.lift _) fun {c w₁ v₁} hlift => ?_
  obtain ⟨-, rfl⟩ := Build.lift_eq_ok.mp hlift
  refine .ite (fun _ => ?_) fun _ => ?_
  · exact .bind (referTo hkeys hroot hb hq) fun _ => .pure _
  refine .bind (.bind (referTo hkeys hroot hb hq) fun {held w₂ v₂} hrefer => ?_) fun _ => .pure _
  have hd₂ := hd.mono ((keeps_referTo hk q.type).ok hrefer).below
  exact .of_below fun hbelow => .dress hkeys (hd₂.describes (hroot.mono hbelow)) hshape q c held

theorem addProperties (o : ObjectParts) {qs : List Property}
    (hqs : ∀ q ∈ qs, Leads env w.session root q.type) :
    Evenly env B L root (env.addProperties builder d o qs) w v := by
  induction qs generalizing o w v with
  | nil => exact .pure _
  | cons q qs ih =>
    obtain ⟨hq, hqs⟩ := List.forall_mem_cons.mp hqs
    refine .bind (addProperty hkeys hroot hk hb hd hshape o hq) fun {o₁ w₁ v₁} hadd => ?_
    have hgrows : w.Grows env w₁ := (keeps_addProperty hk d o q).ok hadd
    exact ih (hd.mono hgrows.below) o₁ fun q' hq' => (hqs q' hq').mono hgrows.below

theorem populate (o : ObjectParts) (hqs : ∀ q ∈ d.properties, Leads env w.session root q.type) :
    Evenly env B L root (env.populate builder d o) w v :=
  .bind (addProperties hkeys hroot hk hb hd hshape o hqs) fun _ =>
    .bind (.of_reads (Environment.heeds_checkRequired d _) (Environment.reads_checkRequired d _))
      fun _ => .pure _

theorem composedArray (c : Constraints) (base : Node)
    (hqs : ∀ q ∈ d.properties, Leads env w.session root q.type) :
    Evenly env B L root (env.composedArray builder d c base) w v := by
  unfold Environment.composedArray
  refine .ite (fun _ => .throw _) fun _ => ?_
  refine .bind (.whileVisiting ?_) fun _ => .pure _
  exact populate (w := w.visiting d) hkeys hroot hk hb hd hshape _ hqs

/-- What becomes of a type with a base comes about evenly. -/
theorem inherit {base : Token} (hbase : d.base = some base) :
    Evenly env B L root (env.inherit builder d base) w v := by
  unfold Environment.inherit
  have hreads : Build.Reads env (env.primitiveKind d) := Environment.reads_primitiveKind d
  refine .bind (.of_reads (Environment.heeds_primitiveKind d) hreads) fun {kind w₁ v₁} hkind => ?_
  cases kind with
  | some kind =>
    exact .bind
      (.of_reads (Environment.heeds_namedLeaf d kind) (Environment.reads_namedLeaf d kind))
      fun _ => .pure _
  | none =>
    refine .bind (.lift _) fun {c w₂ v₂} hlift => ?_
    obtain ⟨hmerge, rfl⟩ := Build.lift_eq_ok.mp hlift
    have hd₂ := hd.mono (hreads.learns.ok hkind).below
    have hnone := hreads.settles hkind
    refine .bind (referTo hkeys hroot hb ⟨d, hd₂, .base hshape hnone hbase⟩)
      fun {node w₃ v₃} hrefer => ?_
    have hbelow : w₂.session.Below w₃.session := ((keeps_referTo hk base).ok hrefer).below
    refine .ite (fun _ => .pure _) fun hprops => .ite (fun harray => ?_) fun _ => .pure _
    have harr : Arrayed env w₃.session d :=
      ⟨hshape, hnone.mono hbelow, by rw [hbase]; exact nofun,
        fun hnil => hprops (List.isEmpty_iff.mpr hnil), c, hmerge, harray⟩
    refine .bind (composedArray hkeys hroot hk hb (hd₂.mono hbelow) hshape c node
      fun q hq => ?_) fun _ => .pure _
    exact ⟨d, hd₂.mono hbelow, .property harr.kind (.inr harr) hq⟩

/-- A type that is published by name is stored evenly. -/
theorem storeNode (hpub : Published env w.session d) (base : Option Node) :
    Evenly env B L root (env.storeNode builder d base) w v := by
  unfold Environment.storeNode
  refine .bind (.isVisited _) fun {visited w₁ v₁} hvisited => ?_
  obtain ⟨-, rfl, rfl⟩ := Build.isVisited_eq_ok.mp hvisited
  refine .ite (fun _ => .pure _) fun _ => .bind (.visit _) fun {_ w₂ v₂} hvisit => ?_
  cases Build.visit_eq_ok.mp hvisit
  have hd₂ : Reaches env (w₁.visiting d).session root d := hd
  have hpub₂ : Published env (w₁.visiting d).session d := hpub
  refine .bind (.of_below fun hbelow => .claim (w := w₁.visiting d) hkeys
    (hd₂.describes (hroot.mono hbelow)) hshape hd₂ (.inr hpub₂)) fun {_ w₃ v₃} hclaim => ?_
  have hbelow₃ : w₁.session.Below w₃.session := ((keeps_claim d.name d).ok hclaim).below
  have hclaimed := Environment.mem_claimed_of_claim hclaim
  refine .bind (.stored? _) fun {found w₄ v₄} hfound => ?_
  obtain ⟨rfl, rfl⟩ := Build.stored?_eq_ok.mp hfound
  split
  · exact .pure _
  have hd₄ := hd.mono hbelow₃
  have hpub₄ := hpub.mono hbelow₃
  refine .bind ?_ fun {node w₅ v₅} hown => .bind (.putting _ ?_) fun _ => .pure _
  · unfold Environment.ownNode Environment.ownObject
    refine .ite (fun _ => .annotate _ _) fun henum => .bind (.lift _) fun {c w₅ v₅} hlift => ?_
    obtain ⟨-, rfl⟩ := Build.lift_eq_ok.mp hlift
    exact .bind (populate hkeys hroot hk hb hd₄ hshape _ fun q hq => .property hd₄ hpub₄ henum hq)
      fun _ => .pure _
  · exact ((keeps_ownNode hk d base).ok hown).claimed_subset hclaimed

end

include hk

theorem namedNode (hd : Reaches env w.session root d) (hshape : d.shape.isInline = false) :
    Evenly env B L root (env.namedNode builder d) w v := by
  unfold Environment.namedNode
  cases hbase : d.base with
  | none => exact storeNode hkeys hroot hk hb hd hshape (published_of_root hshape hbase) none
  | some base =>
    refine .bind (.isArrayVisited d) fun {visited w₁ v₁} hvisited => .ite (fun _ => .pure _)
      fun _ => ?_
    have hd₁ := hd.mono ((learns_isArrayVisited d).ok hvisited).below
    refine .bind (inherit hkeys hroot hk hb hd₁ hshape hbase) fun {what w₂ v₂} hinherit => ?_
    have hd₂ := hd₁.mono ((keeps_inherit hk d base).ok hinherit).below
    cases what with
    | whole node => exact .pure _
    | base node =>
      exact storeNode hkeys hroot hk hb hd₂ hshape (published_of_inherit hk hshape hinherit) _

theorem buildShape (hd : Reaches env w.session root d) :
    Evenly env B L root (env.buildShape builder d) w v := by
  unfold Environment.buildShape
  cases hshape : d.shape with
  | nullable =>
    exact .bind (referTo hkeys hroot hb ⟨d, hd, .inner (.inl hshape)⟩) fun _ => .pure _
  | primitive | unknown => exact .bind (.annotate _ _) fun _ => .pure _
  | array =>
    exact .bind (referTo hkeys hroot hb ⟨d, hd, .inner (.inr hshape)⟩) fun _ =>
      .bind (.annotate _ _) fun _ => .pure _
  | map => exact .bind (mapNode hkeys hroot hb hd hshape) fun _ => .pure _
  | enum | object => exact namedNode hkeys hroot hk hb hd (by rw [hshape]; rfl)

end Builder

/-- **Building a type goes on evenly.** -/
theorem build (hkeys : env.KeysDistinct) (hroot : B.Describes env root) (n : Nat)
    (hd : Reaches env w.session root d) : Evenly env B L root (env.build n d) w v := by
  induction n generalizing d w v with
  | zero => exact .throw _
  | succ n ih =>
    have hdeeper : Reaches env w.deeper.session root d := hd.mono (.refl w.session)
    exact .deepening d (buildShape hkeys hroot (Environment.keeps_build n) ih hdeeper)

theorem referRoot (hkeys : env.KeysDistinct) (hroot : B.Describes env root) :
    Evenly env B L root (env.referRoot root) w v :=
  refer hkeys hroot (build hkeys hroot _) .refl

end Evenly

end Schemata
