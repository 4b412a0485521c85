import Schemata.Proofs.Pairing
import Schemata.Proofs.Registry.Mapped
import Schemata.Proofs.Schema.Undefaulted
import Schemata.Proofs.Synthesis.Capture
import Schemata.Proofs.Synthesis.Heeding
import Schemata.Proofs.Synthesis.Settings

/-!
# Synthesis without defaults

An environment may be told to publish no defaults (`Environment.quiet`).  The synthesis then does
what it does otherwise, but for the defaults.  So a walk that captures defaults can be seen beside
one that does not: the two have read the same, claim the same and visit the same, and what they have
stored is the same when all defaults are taken off (`Walk.Resembles`).  They go on alike until the
first of them captures a default that signals, which is where it fails (`Session.Balks`); that the
type can be looked up is known when its properties are built, since it is being visited.

The lemmas `alike_…` follow the functions of the synthesis from one building to the next, and
`alike_build` is the induction on the levels.
-/

namespace Schemata

open Build

/-- The environment that publishes no defaults. -/
abbrev Environment.quiet (env : Environment) : Environment :=
  env.adjusted env.maxDepth false

/-- Two sessions differ in nothing but the defaults of what is stored, and what these are read
from. -/
structure Session.Resembles (s t : Session) : Prop where
  readings : t.readings = s.readings
  claims : t.claims = s.claims
  depth : t.depth = s.depth
  registry : s.registry.mapped Node.undefaulted = t.registry.mapped Node.undefaulted

/-- Two walks are in sessions that resemble each other, and visit the same. -/
structure Walk.Resembles (w v : Walk) : Prop where
  session : w.session.Resembles v.session
  visited : v.visited = w.visited

/-- **What stands in the way of defaults:** the fault of a comparison, in a session where the
default of a property of a type that has been read signals. -/
def Session.Balks (env : Environment) (s : Session) (e : Fault) : Prop :=
  e = .signalingComparison ∧ ∃ d q, s.Describes env d ∧ q ∈ d.properties ∧ s.Signals d q

/-- Two outcomes of the synthesis are the same once `f` has been applied to the answers and defaults
have been taken off, or a default has stood in the way of the second. -/
abbrev Build.Alike {α β : Type} (env : Environment) (f : α → β) :
    EStateM.Result Fault Walk α → EStateM.Result Fault Walk α → Prop :=
  Pairs (fun a b => f a = f b) Walk.Resembles fun e w => w.session.Balks env e

variable {env : Environment} {w v w₁ v₁ : Walk} {d : Descriptor}

namespace Session.Resembles

variable {s t : Session}

theorem refl (s : Session) : s.Resembles s :=
  ⟨rfl, rfl, rfl, rfl⟩

theorem contains (h : s.Resembles t) (name : String) :
    s.registry.contains name = t.registry.contains name := by
  rw [← Registry.contains_mapped (f := Node.undefaulted), h.registry, Registry.contains_mapped]

theorem get? (h : s.Resembles t) (name : String) : (s.registry.get? name).map Node.undefaulted =
    (t.registry.get? name).map Node.undefaulted := by
  rw [← Registry.get?_mapped, h.registry, Registry.get?_mapped]

/-- Something is done to both registries that does not look at what is stored. -/
theorem within (h : s.Resembles t) {g : Registry Node → Registry Node}
    {g' : Registry Node → Registry Node}
    (hg : ∀ r, (g r).mapped Node.undefaulted = g' (r.mapped Node.undefaulted)) :
    (Registry.within g s).Resembles (Registry.within g t) :=
  ⟨h.readings, h.claims, h.depth, (hg _).trans ((congrArg g' h.registry).trans (hg _).symm)⟩

theorem prune (h : s.Resembles t) : s.prune.Resembles t.prune := by
  refine ⟨h.readings, ?_, h.depth, h.registry⟩
  show t.claims.filter _ = s.claims.filter _
  rw [h.claims]
  exact List.filter_congr fun c _ => (h.contains c.1).symm

end Session.Resembles

namespace Walk.Resembles

theorem abreast (h : w.Resembles v) : w.Abreast v :=
  ⟨h.session.readings, h.visited⟩

/-- Both walks have learned something, and are abreast again. -/
theorem of_learns (h : w.Resembles v) (hw : w.Learns env w₁) (hv : v.Learns env v₁)
    (habreast : w₁.Abreast v₁) : w₁.Resembles v₁ where
  session :=
    { readings := habreast.readings
      claims := hv.session.claims.trans (h.session.claims.trans hw.session.claims.symm)
      depth := hv.session.depth.trans (h.session.depth.trans hw.session.depth.symm)
      registry := by
        rw [hw.session.registry, hv.session.registry]
        exact h.session.registry }
  visited := habreast.visited

/-- The second walk keeps instances. -/
theorem keeping (h : w.Resembles v) (l : List (Key × Option Value)) :
    w.Resembles { v with session := { v.session with instances := l } } :=
  ⟨⟨h.session.readings, h.session.claims, h.session.depth, h.session.registry⟩, h.visited⟩

end Walk.Resembles

namespace Build

variable {α β γ : Type} {f : α → β}

theorem alike_pure {a b : α} (ha : f a = f b) (h : w.Resembles v) :
    Alike env f ((pure a : Build α) w) ((pure b : Build α) v) :=
  .ok ha h

/-- **A question** has the same answer in both walks. -/
theorem alike_question {x : Build γ} (hx : Heeds x) (hlearns : Keeps (Walk.Learns env) x)
    (h : w.Resembles v) : Alike env id (x w) (x v) := by
  have htally : Tallies Walk.Resembles (fun _ => False) (x w) (x v) :=
    (hx.tallies h.abreast).of_after fun habreast => h.of_learns (hlearns w) (hlearns v) habreast
  exact htally.pairs

/-- A question is asked, and both go on from the answer. -/
theorem alike_ask {x : Build γ} (hx : Heeds x) (hlearns : Keeps (Walk.Learns env) x)
    (h : w.Resembles v) {k k' : γ → Build α}
    (hk : ∀ {a w₁ v₁}, x v = .ok a v₁ → v.session.Below v₁.session → w₁.Resembles v₁ →
      Alike env f (k a w₁) (k' a v₁)) : Alike env f ((x >>= k) w) ((x >>= k') v) := by
  refine (alike_question hx hlearns h).bind fun {a b w₁ v₁} _ hv heq h₁ => ?_
  obtain rfl : a = b := heq
  exact hk hv (hlearns.ok hv).below h₁

/-- What does not look at the walk is the same for both. -/
theorem alike_lift (r : Except Fault γ) (h : w.Resembles v) {k k' : γ → Build α}
    (hk : ∀ a, r = .ok a → Alike env f (k a w) (k' a v)) :
    Alike env f ((lift r >>= k) w) ((lift r >>= k') v) := by
  cases r with
  | ok a => exact hk a rfl
  | error e => exact .error h

end Build

namespace Environment

theorem alike_claim (name : String) (d : Descriptor) (h : w.Resembles v) :
    Alike env id (env.claim name d w) (env.claim name d v) := by
  have hclaims : v.session.claims = w.session.claims := h.session.claims
  unfold claim
  rw [bind_of_ok (asks_eq_ok.mpr ⟨rfl, rfl⟩), bind_of_ok (asks_eq_ok.mpr ⟨rfl, rfl⟩), hclaims]
  cases getKey? name w.session.claims with
  | none =>
    refine .ok rfl ⟨⟨h.session.readings, ?_, h.session.depth, h.session.registry⟩, h.visited⟩
    show v.session.claims ++ _ = w.session.claims ++ _
    rw [hclaims]
  | some owner =>
    dsimp only
    split
    · exact .ok rfl h
    · exact .error h

/-- **A schema is stored**, or found to be. -/
theorem alike_putting (name : String) {n n' : Node} (hn : n.undefaulted = n'.undefaulted)
    (h : w.Resembles v) : Alike env Node.undefaulted ((Registry.putting name n : Build Node) w)
      ((Registry.putting name n' : Build Node) v) := by
  have hput : ((w.session.registry.put name n).1.undefaulted,
        (w.session.registry.put name n).2.mapped Node.undefaulted) =
      ((v.session.registry.put name n').1.undefaulted,
        (v.session.registry.put name n').2.mapped Node.undefaulted) := by
    rw [Registry.mapped_put, Registry.mapped_put, h.session.registry, hn]
  obtain ⟨hanswer, hregistry⟩ := Prod.mk.inj hput
  exact .ok hanswer
    ⟨⟨h.session.readings, h.session.claims, h.session.depth, hregistry⟩, h.visited⟩

theorem alike_annotate (records : List Record) {n n' : Node} (hn : n.undefaulted = n'.undefaulted)
    (h : w.Resembles v) :
    Alike env Node.undefaulted (annotate records n w) (annotate records n' v) := by
  refine alike_lift _ h fun c _ => alike_pure ?_ h
  simp [hn]

/-- **A property is dressed.** -/
theorem alike_dress {q : Property} (hd : v.session.Describes env d) (hq : q ∈ d.properties)
    (hkey : d.key.check = .ok ()) (c : Constraints) {held held' : Node}
    (hheld : held.undefaulted = held'.undefaulted) (h : w.Resembles v) :
    Alike env Node.undefaulted (env.quiet.dress d q c held w) (env.dress d q c held' v) := by
  have hlaid : (c.laidOn held).undefaulted = (c.laidOn held').undefaulted := by
    simp [hheld]
  have hquiet : env.quiet.dress d q c held w = .ok (c.laidOn held) w := by
    rw [dress_eq]
    rfl
  rw [hquiet, dress_eq]
  split
  · obtain ⟨l, hsignals, ⟨-, x, hcapture⟩ | ⟨hrefuses, hcapture⟩⟩ := capture_of_check q v hkey
    · rw [bind_of_ok hcapture]
      refine .ok ?_ (h.keeping l)
      rw [Node.undefaulted_withDefault, hlaid]
    · have hfails : (do return (c.laidOn held').withDefault (← capture d q)) v =
          .error .signalingComparison { v with session := { v.session with instances := l } } :=
        bind_eq_error.mpr (.inl hcapture)
      rw [hfails]
      exact .cut ⟨rfl, d, q, hd, hq, hsignals.mpr hrefuses⟩
  · exact .ok hlaid h

/-! ## The functions of the synthesis -/

/-- Builds what has been described, in both walks alike. -/
def AlikeBuilders (env : Environment) (builder builder' : Descriptor → Build Built) : Prop :=
  ∀ {d : Descriptor} {w v : Walk}, v.session.Describes env d → w.Resembles v →
    Alike env Built.undefaulted (builder d w) (builder' d v)

section

variable {builder builder' : Descriptor → Build Built} (hb : env.AlikeBuilders builder builder')
  (hgrows : ∀ d, Keeps (Walk.Grows env) (builder' d))
include hb

theorem alike_refer (hd : v.session.Describes env d) (h : w.Resembles v) :
    Alike env Node.undefaulted (env.quiet.refer builder d w) (env.refer builder' d v) := by
  unfold refer
  rw [isInline_adjusted, isAwaited_adjusted]
  refine alike_ask (heeds_isInline d) (reads_isInline d).learns h
    fun {inline w₁ v₁} _ hbelow h => ?_
  have hd := hd.mono hbelow
  refine .ite (fun _ => ?_) fun _ => ?_
  · exact (hb hd h).bind fun {a b _ _} _ _ hbuilt h => alike_pure (congrArg Built.node hbuilt) h
  have hstored : (w₁.session.registry.get? d.name).isSome =
      (v₁.session.registry.get? d.name).isSome := h.session.contains d.name
  rw [bind_of_ok (stored?_eq_ok.mpr ⟨rfl, rfl⟩), bind_of_ok (stored?_eq_ok.mpr ⟨rfl, rfl⟩), hstored]
  refine .ite (fun _ => ?_) fun _ => ?_
  · exact (alike_claim d.name d h).bind fun {_ _ _ _} _ _ _ h => alike_pure rfl h
  refine alike_ask (heeds_isAwaited d) (learns_isAwaited d) h fun {awaited _ _} _ hbelow h => ?_
  refine .ite (fun _ => alike_pure rfl h) fun _ => ?_
  refine (hb (hd.mono hbelow) h).bind fun {a b _ _} _ _ hbuilt h => alike_pure ?_ h
  obtain ⟨hnode, hstored⟩ := Built.mk.inj hbuilt
  rw [hstored, apply_ite Node.undefaulted, apply_ite Node.undefaulted, hnode]

theorem alike_referTo (t : Token) (h : w.Resembles v) :
    Alike env Node.undefaulted (env.quiet.referTo builder t w) (env.referTo builder' t v) := by
  refine alike_ask (heeds_describe t) (reads_describe t).learns h fun {d _ _} hd _ h => ?_
  exact alike_refer hb ⟨t, (reads_describe t).settles hd⟩ h

include hgrows

theorem alike_addProperty {q : Property} (hd : v.session.Describes env d) (hq : q ∈ d.properties)
    (hkey : d.key.check = .ok ()) {o o' : ObjectParts} (ho : o.undefaulted = o'.undefaulted)
    (h : w.Resembles v) : Alike env ObjectParts.undefaulted (env.quiet.addProperty builder d o q w)
      (env.addProperty builder' d o' q v) := by
  unfold addProperty propertyNode
  refine alike_lift _ h fun c _ => .ite (fun _ => ?_) fun _ => ?_
  · refine (alike_referTo hb q.type h).bind fun {n n' _ _} _ _ hn h => alike_pure ?_ h
    simp [ho, hn]
  · refine Pairs.bind (A := fun n n' => n.undefaulted = n'.undefaulted) ?_
      fun {n n' _ _} _ _ hn h => alike_pure ?_ h
    · refine (alike_referTo hb q.type h).bind fun {held held' _ _} _ hrefer hheld h => ?_
      have hbelow := ((keeps_referTo hgrows q.type).ok hrefer).below
      exact alike_dress (hd.mono hbelow) hq hkey c hheld h
    · simp [ho, hn]

theorem alike_addProperties {qs : List Property} (hd : v.session.Describes env d)
    (hqs : qs ⊆ d.properties) (hkey : d.key.check = .ok ()) {o o' : ObjectParts}
    (ho : o.undefaulted = o'.undefaulted) (h : w.Resembles v) :
    Alike env ObjectParts.undefaulted (env.quiet.addProperties builder d o qs w)
      (env.addProperties builder' d o' qs v) := by
  induction qs generalizing o o' w v with
  | nil => exact alike_pure ho h
  | cons q qs ih =>
    obtain ⟨hq, hqs⟩ := List.cons_subset.mp hqs
    refine (alike_addProperty hb hgrows hd hq hkey ho h).bind fun {_ _ _ _} _ hadd ho h => ?_
    exact ih (hd.mono ((keeps_addProperty hgrows d o' q).ok hadd).below) hqs ho h

theorem alike_populate (hd : v.session.Describes env d) (hkey : d.key.check = .ok ())
    {o o' : ObjectParts} (ho : o.undefaulted = o'.undefaulted) (h : w.Resembles v) :
    Alike env ObjectParts.undefaulted (env.quiet.populate builder d o w)
      (env.populate builder' d o' v) := by
  unfold populate
  refine (alike_addProperties hb hgrows hd (List.Subset.refl _) hkey ho h).bind
    fun {o o' _ _} _ _ ho h => ?_
  have hnames : o.properties.map (·.1) = o'.properties.map (·.1) := by
    rw [← ObjectParts.names_undefaulted, ho, ObjectParts.names_undefaulted]
  have hrequired : o.keywords.required = o'.keywords.required := by
    show o.undefaulted.keywords.required = o'.undefaulted.keywords.required
    rw [ho]
  have hcheck : env.checkRequired d o = env.checkRequired d o' := by
    unfold checkRequired
    rw [hnames, hrequired]
  rw [checkRequired_adjusted, hcheck]
  exact alike_ask (heeds_checkRequired d o') (reads_checkRequired d o').learns h
    fun {_ _ _} _ _ h => alike_pure ho h

theorem alike_composedArray (hd : v.session.Describes env d) (hkey : d.key.check = .ok ())
    (c : Constraints) {base base' : Node} (hbase : base.undefaulted = base'.undefaulted)
    (h : w.Resembles v) : Alike env Node.undefaulted
      (env.quiet.composedArray builder d c base w) (env.composedArray builder' d c base' v) := by
  unfold composedArray
  refine .ite (fun _ => .error h) fun _ => ?_
  refine Pairs.bind (A := fun a b => a.undefaulted = b.undefaulted) ?_
    fun {o o' _ _} _ _ ho h => alike_pure ?_ h
  · have hvisiting : (w.visiting d).Resembles (v.visiting d) :=
      ⟨h.session, congrArg (d.key :: ·) h.visited⟩
    rw [whileVisiting_eq_around, whileVisiting_eq_around]
    refine (alike_populate hb hgrows (v := v.visiting d) hd hkey rfl hvisiting).around ?_ ?_ id
    · exact fun h => ⟨h.session, congrArg d.key.without h.visited⟩
    · exact fun h => ⟨h.session, congrArg d.key.without h.visited⟩
  · simp [Node.undefaulted, hbase, ho]

theorem alike_inherit (hd : v.session.Describes env d) (hkey : d.key.check = .ok ())
    (base : Token) (h : w.Resembles v) : Alike env Inherited.undefaulted
      (env.quiet.inherit builder d base w) (env.inherit builder' d base v) := by
  unfold inherit
  rw [primitiveKind_adjusted]
  refine alike_ask (heeds_primitiveKind d) (reads_primitiveKind d).learns h
    fun {kind _ _} _ hbelow h => ?_
  have hd := hd.mono hbelow
  cases kind with
  | some kind =>
    dsimp only
    rw [namedLeaf_adjusted]
    exact alike_ask (heeds_namedLeaf d kind) (reads_namedLeaf d kind).learns h
      fun {_ _ _} _ _ h => alike_pure rfl h
  | none =>
    refine alike_lift _ h fun c _ => ?_
    refine (alike_referTo hb base h).bind fun {node node' _ _} _ hrefer hnode h => ?_
    refine .ite (fun _ => alike_pure ?_ h) fun _ => .ite (fun _ => ?_) fun _ => ?_
    · refine congrArg Inherited.whole ?_
      rw [Node.undefaulted_apply, Node.undefaulted_apply, apply_ite Node.undefaulted,
        apply_ite Node.undefaulted, hnode]
      simp only [Node.undefaulted, hnode]
    · have hd := hd.mono ((keeps_referTo hgrows base).ok hrefer).below
      exact (alike_composedArray hb hgrows hd hkey c hnode h).bind
        fun {_ _ _ _} _ _ hwhole h => alike_pure (congrArg Inherited.whole hwhole) h
    · exact alike_pure (congrArg Inherited.base hnode) h

omit hgrows in
theorem alike_mapNode (d : Descriptor) (h : w.Resembles v) :
    Alike env Node.undefaulted (env.quiet.mapNode builder d w) (env.mapNode builder' d v) := by
  unfold mapNode mapTo
  refine alike_ask (heeds_describe (mapInner d)) (reads_describe _).learns h
    fun {value _ _} hvalue _ h => ?_
  have hd := (reads_describe _).settles hvalue
  refine Pairs.bind (A := fun n n' => n.undefaulted = n'.undefaulted) ?_
    fun {_ _ _ _} _ _ hmap h => alike_annotate d.annotations hmap h
  refine .ite (fun _ => alike_pure rfl h) fun _ => ?_
  refine (alike_refer hb ⟨_, hd⟩ h).bind fun {n n' _ _} _ _ hn h => alike_pure ?_ h
  simp only [Node.undefaulted, Node.undefaulted?, hn]

theorem alike_ownNode (hd : v.session.Describes env d) (hkey : d.key.check = .ok ())
    {base base' : Option Node} (hbase : base.map Node.undefaulted = base'.map Node.undefaulted)
    (h : w.Resembles v) : Alike env Node.undefaulted
      (env.quiet.ownNode builder d base w) (env.ownNode builder' d base' v) := by
  unfold ownNode ownObject
  refine .ite (fun _ => ?_) fun _ => alike_lift _ h fun c _ => ?_
  · exact alike_annotate d.annotations rfl h
  · refine (alike_populate hb hgrows hd hkey rfl h).bind fun {o o' _ _} _ _ ho h => alike_pure ?_ h
    rw [ObjectParts.undefaulted_over, ObjectParts.undefaulted_over, ho, hbase]

theorem alike_storeNode (hd : v.session.Describes env d) {base base' : Option Node}
    (hbase : base.map Node.undefaulted = base'.map Node.undefaulted) (h : w.Resembles v) :
    Alike env Built.undefaulted (env.quiet.storeNode builder d base w)
      (env.storeNode builder' d base' v) := by
  unfold storeNode
  refine alike_ask (Heeds.isVisited _) (learns_isVisited _) h
    fun {visited w₁ v₁} hvisited hbelow h => .ite (fun _ => alike_pure rfl h) fun _ => ?_
  obtain ⟨hkey, -⟩ := isVisited_eq_ok.mp hvisited
  have hd := hd.mono hbelow
  have hvisiting : (w₁.visiting d).Resembles (v₁.visiting d) :=
    ⟨h.session, congrArg (d.key :: ·) h.visited⟩
  rw [bind_of_ok (visit_eq_ok (u := ()) |>.mpr rfl), bind_of_ok (visit_eq_ok (u := ()) |>.mpr rfl)]
  refine (alike_claim d.name d hvisiting).bind fun {_ _ w₂ v₂} _ hclaim _ h => ?_
  have hd : v₂.session.Describes env d := hd.mono ((keeps_claim d.name d).ok hclaim).below
  have hstored := h.session.get? d.name
  rw [bind_of_ok (stored?_eq_ok.mpr ⟨rfl, rfl⟩), bind_of_ok (stored?_eq_ok.mpr ⟨rfl, rfl⟩)]
  cases hw : w₂.session.registry.get? d.name with
  | some n =>
    rw [hw, Option.map_some, eq_comm, Option.map_eq_some_iff] at hstored
    obtain ⟨n', hv, hn⟩ := hstored
    rw [hv]
    exact alike_pure (congrArg (Built.mk · true) hn.symm) h
  | none =>
    rw [hw, Option.map_none, eq_comm, Option.map_eq_none_iff] at hstored
    rw [hstored]
    refine (alike_ownNode hb hgrows hd hkey hbase h).bind fun {n n' _ _} _ _ hn h => ?_
    exact (alike_putting d.name hn h).bind
      fun {_ _ _ _} _ _ hn h => alike_pure (congrArg (Built.mk · true) hn) h

theorem alike_namedNode (hd : v.session.Describes env d) (h : w.Resembles v) :
    Alike env Built.undefaulted (env.quiet.namedNode builder d w) (env.namedNode builder' d v) := by
  unfold namedNode
  cases d.base with
  | none => exact alike_storeNode hb hgrows hd rfl h
  | some base =>
    dsimp only
    rw [isArrayVisited_adjusted]
    refine alike_ask (heeds_isArrayVisited d) (learns_isArrayVisited d) h
      fun {visited w₁ v₁} hvisited hbelow h => .ite (fun _ => alike_pure rfl h) fun _ => ?_
    have hd := hd.mono hbelow
    have hkey : d.key.check = .ok () := by
      obtain ⟨_, _, hvisited, -⟩ := bind_eq_ok.mp hvisited
      exact (isVisited_eq_ok.mp hvisited).1
    refine (alike_inherit hb hgrows hd hkey base h).bind fun {i i' _ _} _ hinherit hi h => ?_
    have hd := hd.mono ((keeps_inherit hgrows d base).ok hinherit).below
    cases i with
    | whole n =>
      cases i' with
      | whole n' => exact alike_pure (congrArg (Built.mk · false) (Inherited.whole.inj hi)) h
      | base n' => cases hi
    | base n =>
      cases i' with
      | whole n' => cases hi
      | base n' => exact alike_storeNode hb hgrows hd (congrArg some (Inherited.base.inj hi)) h

theorem alike_buildShape (hd : v.session.Describes env d) (h : w.Resembles v) :
    Alike env Built.undefaulted (env.quiet.buildShape builder d w)
      (env.buildShape builder' d v) := by
  have hplain {x y : Build Node} (hnode : Alike env Node.undefaulted (x w) (y v)) :
      Alike env Built.undefaulted ((x >>= fun n => pure ⟨n, false⟩) w)
        ((y >>= fun n => pure ⟨n, false⟩) v) :=
    hnode.bind fun {_ _ _ _} _ _ hn h => alike_pure (congrArg (Built.mk · false) hn) h
  unfold buildShape
  cases d.shape with
  | nullable =>
    refine (alike_referTo hb d.inner h).bind fun {n n' _ _} _ _ hn h => alike_pure ?_ h
    refine congrArg (Built.mk · false) ?_
    simp [hn]
  | primitive | unknown => exact hplain (alike_annotate d.annotations rfl h)
  | array =>
    refine (alike_referTo hb d.inner h).bind fun {n n' w₁ v₁} _ _ hn h => ?_
    refine Pairs.bind (alike_annotate d.annotations ?_ h)
      fun {_ _ _ _} _ _ hn h => alike_pure (congrArg (Built.mk · false) hn) h
    simp only [Node.undefaulted, hn]
  | map => exact hplain (alike_mapNode hb d h)
  | enum | object => exact alike_namedNode hb hgrows hd h

end

/-! ## Building -/

/-- Counting a type is surroundings for building it, unless it is too deep. -/
theorem deepening_eq_around {α : Type} (d : Descriptor) (x : Build α) : env.deepening d x =
    around (fun w => w.atDepth (w.session.depth + 1)) (fun w => w.atDepth (w.session.depth - 1))
      (fun w => w.atDepth (w.session.depth - 1))
      (do if env.maxDepth < (← get).session.depth then throw (.tooDeep d.name env.maxDepth)
          else x) := by
  funext w
  unfold deepening around
  dsimp only
  rw [bind_of_ok (show (get : Build Walk) (w.atDepth (w.session.depth + 1)) = .ok _ _ from rfl)]
  by_cases hdeep : env.maxDepth < (w.atDepth (w.session.depth + 1)).session.depth
  · rw [if_pos hdeep]
    simp only [if_pos hdeep]
    rfl
  · rw [if_neg hdeep]
    simp only [if_neg hdeep]
    cases x (w.atDepth (w.session.depth + 1)) <;> rfl

theorem alike_deepening {α β : Type} {f : α → β} {x y : Build α}
    (hxy : ∀ {w v : Walk}, v.session.Describes env d → w.Resembles v → Alike env f (x w) (y v))
    (hd : v.session.Describes env d) (h : w.Resembles v) :
    Alike env f (env.quiet.deepening d x w) (env.deepening d y v) := by
  have hcount {w v : Walk} (h : w.Resembles v) (n : Nat → Nat) :
      (w.atDepth (n w.session.depth)).Resembles (v.atDepth (n v.session.depth)) :=
    ⟨⟨h.session.readings, h.session.claims, congrArg n h.session.depth, h.session.registry⟩,
      h.visited⟩
  rw [deepening_eq_around, deepening_eq_around]
  refine Pairs.around (R := Walk.Resembles) (Z := fun e w => w.session.Balks env e) ?_
    (fun h => hcount h (· - 1)) (fun h => hcount h (· - 1)) id
  have h := hcount h (· + 1)
  refine Pairs.bind (A := fun u u' => u.session.depth = u'.session.depth)
    (.ok h.session.depth.symm h) fun {u u' _ _} hu hu' heq h => ?_
  cases hu
  cases hu'
  rw [heq]
  exact .ite (fun _ => .error h) fun _ => hxy (v := v.atDepth (v.session.depth + 1)) hd h

/-- **Building without defaults** is building with them, but for the defaults, unless one of them
stands in the way. -/
theorem alike_build (n : Nat) : env.AlikeBuilders (env.quiet.build n) (env.build n) := by
  induction n with
  | zero => exact fun {_ _ _} _ h => .error h
  | succ n ih =>
    exact fun {d _ _} => alike_deepening (alike_buildShape ih (keeps_build n))

theorem alike_referRoot (hd : v.session.Describes env d) (h : w.Resembles v) :
    Alike env Node.undefaulted (env.quiet.referRoot d w) (env.referRoot d v) :=
  alike_refer (alike_build _) hd h

end Environment

end Schemata
