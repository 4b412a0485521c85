import Schemata.Proofs.Synthesis.Tenure
import Schemata.Proofs.Synthesis.Unfolding

/-!
# Doing it again

A synthesis that is done a second time, in a session that knows all that the first one has learned
and stores all that it has stored, has nothing left to do.  It asks the same questions and gets the
same answers.  Where it comes to a type that is published by name, it finds the name stored and its
own, and goes no further; so it only repeats what is made in place, and `Unfolds` says of which
types this is.  `Course.again` says that it makes the same nodes and leaves the walk as it is.

Where it differs from the first time is in two sorts of types that it may come to.

* A type that is published by name and that has an empty object stand in for it, the first time,
  since its base leads back to it (`SelfBased`): the second time it is referred to.
* A type that could have an entry by its shape and has none, since it is another name for its base
  or composed in place.  The second time its name may be found to be stored, for a type that was not
  stored yet when the first synthesis came along, and the synthesis fails.

The second walk is seen beside the first one (`Walk.Echoes`): both are inside as many types, and the
arrays that are open are the same.  Whatever part the first one has gone through, the second can go
on beside it (`Walk.Retraced.of_course`).
-/

namespace Schemata

open Environment (ObjectParts mapInner)

variable {env : Environment} {s : Session} {g : List (Key × Option Value)} {d : Descriptor}
  {n : Nat} {J : Judgement} {w w₁ w' v : Walk} {R : Descriptor → Prop} {K : List String}

/-! ## Walks that start again -/

/-- **A walk that takes place later, beside another.**  What can be known is known, what can be
stored is stored, and the arrays that are open are those that the other one visits. -/
structure Walk.Echoes (env : Environment) (s : Session) (w v : Walk) : Prop where
  below : s.Below v.session
  claims : v.session.claims = s.claims
  names : v.session.registry.names = s.registry.names
  instances : v.session.instances = s.instances
  depth : v.session.depth = w.session.depth
  opened : ∀ k ∈ v.visited, ∃ x, s.Describes env x ∧ Arrayed env s x ∧ k = x.key
  arrays : ∀ y, s.Describes env y → Arrayed env s y → v.visits y = w.visits y

theorem Walk.leaving_visiting (hself : d.key.same d.key = true) (h : w.visits d = false) :
    (w.visiting d).leaving d = w := by
  have hothers : d.key.without w.visited = w.visited := by
    refine List.filter_eq_self.mpr fun k hk => ?_
    rw [Bool.not_eq_true']
    exact Bool.eq_false_iff.mpr fun hsame =>
      absurd (List.any_eq_true.mpr ⟨k, hk, hsame⟩) (Bool.eq_false_iff.mp h)
  have hvisited : d.key.without (d.key :: w.visited) = w.visited := by
    rw [← hothers, Key.without, List.filter_cons_of_neg (by rw [hself]; exact Bool.false_ne_true)]
    exact congrArg _ hothers
  show ({ w with visited := d.key.without (d.key :: w.visited) } : Walk) = w
  rw [hvisited]

/-- A synthesis leaves the depth as it found it. -/
theorem depth_of_course (h : Course env s g n J w w') : w'.session.depth = w.session.depth := by
  have hclaimed {d : Descriptor} {w w' : Walk} (h : env.claim d.name d w = .ok () w') :
      w'.session.depth = w.session.depth := ((Environment.keeps_claim _ d).ok h).depth
  induction h with
  | learns hlearns _ ih => exact ih.trans hlearns.session.depth
  | @inPlace _ _ _ w w' _ _ _ ih | @fresh _ _ _ w w' _ _ _ _ _ ih =>
    show w'.session.depth - 1 = w.session.depth
    rw [ih]
    rfl
  | known _ _ hclaim => exact hclaimed hclaim
  | awaited | plain | anyMap | cutArray | cut | done => rfl
  | wrapped _ _ _ _ _ ih | root _ _ _ ih => exact ih
  | composed _ _ _ _ _ _ _ _ _ hlearns _ ihrefers ihfills =>
    exact (hlearns.session.depth.trans ihfills).trans ihrefers
  | derived _ _ _ _ _ ihrefers ihstores => exact ihstores.trans ihrefers
  | existing _ hclaim _ =>
    have hdepth := hclaimed hclaim
    exact hdepth
  | enum _ hclaim _ _ _ hput =>
    obtain ⟨-, rfl⟩ := Environment.putting_eq_ok.mp hput
    have hdepth := hclaimed hclaim
    exact hdepth
  | object _ hclaim _ _ _ _ hlearns _ hput ih =>
    obtain ⟨-, rfl⟩ := Environment.putting_eq_ok.mp hput
    have hdepth := hclaimed hclaim
    exact (hlearns.session.depth.trans ih).trans hdepth
  | rest _ _ _ _ _ ihrefers ihfills => exact ihfills.trans ihrefers
  | property _ _ _ _ hdress _ _ ihrefers ihfills =>
    have hlearns := (Environment.learns_dress _ _ _ _).ok hdress
    exact ihfills.trans (hlearns.session.depth.trans ihrefers)

namespace Walk.Echoes

theorem of_visits (h : w.Echoes env s v) (hdepth : w₁.session.depth = w.session.depth)
    (hvisits : ∀ y, s.Describes env y → Arrayed env s y → w₁.visits y = w.visits y) :
    w₁.Echoes env s v where
  below := h.below
  claims := h.claims
  names := h.names
  instances := h.instances
  depth := h.depth.trans hdepth.symm
  opened := h.opened
  arrays y hy harr := (h.arrays y hy harr).trans (hvisits y hy harr).symm

theorem of_learns (h : w.Echoes env s v) (hlearns : w.Learns env w₁) : w₁.Echoes env s v :=
  h.of_visits hlearns.session.depth fun y _ _ => congrArg y.key.isAmong hlearns.visited

theorem deeper (h : w.Echoes env s v) : w.deeper.Echoes env s v.deeper where
  below := h.below
  claims := h.claims
  names := h.names
  instances := h.instances
  depth := congrArg (· + 1) h.depth
  opened := h.opened
  arrays := h.arrays

theorem visiting (h : w.Echoes env s v) (hd : s.Describes env d) (harr : Arrayed env s d) :
    (w.visiting d).Echoes env s (v.visiting d) where
  below := h.below
  claims := h.claims
  names := h.names
  instances := h.instances
  depth := h.depth
  opened := by
    intro k hk
    rcases List.mem_cons.mp hk with rfl | hk
    · exact ⟨d, hd, harr, rfl⟩
    · exact h.opened k hk
  arrays y hy harr' := congrArg (y.key.same d.key || ·) (h.arrays y hy harr')

/-- A name that has been claimed for a type is claimed and belongs to it. -/
theorem owns (h : w.Echoes env s v) {σ : Scene} (howns : σ.Owns d)
    (hclaims : σ.claims <+: s.claims) : v.scene.Owns d ∧ d.name ∈ s.claimed := by
  have hv : v.scene.claims = s.claims := h.claims
  have howns' : v.scene.Owns d := howns.mono (hv ▸ hclaims)
  have hclaimed := howns'.mem_claimed
  rw [Scene.claimed, hv] at hclaimed
  exact ⟨howns', hclaimed⟩

section

variable (hw : s.WellRead env) (hkeys : env.KeysDistinct)
include hw hkeys

/-- Only types that are composed in place are visited. -/
theorem arrayed_of_visits (h : w.Echoes env s v) (hd : s.Knows env d)
    (hshape : d.shape.isInline = false) (hvisits : v.visits d = true) : Arrayed env s d := by
  obtain ⟨k, hk, hsame⟩ := List.any_eq_true.mp hvisits
  obtain ⟨x, hx, harr, rfl⟩ := h.opened k hk
  have hkin := kin_of_same hw hkeys hd (harr.knows hx) hshape harr.shape hsame
  exact hkin.symm.alike.arrayed hw (harr.knows hx) hd harr

end

end Walk.Echoes

/-- **A walk that starts again beside another** that it belongs to: all names of some list are
stored there, and names of visited types are their own. -/
structure Walk.Retraced (env : Environment) (s : Session) (K : List String) (w v : Walk) :
    Prop where
  tended : w.scene.Tended env s
  names : K ⊆ w.scene.names
  echoes : w.Echoes env s v

namespace Walk.Retraced

theorem of_learns (h : w.Retraced env s K v) (hlearns : w.Learns env w₁) :
    w₁.Retraced env s K v where
  tended := hlearns.scene ▸ h.tended
  names := hlearns.scene ▸ h.names
  echoes := h.echoes.of_learns hlearns

theorem deeper (h : w.Retraced env s K v) : w.deeper.Retraced env s K v.deeper :=
  ⟨h.tended, h.names, h.echoes.deeper⟩

section

variable (hw : s.WellRead env) (hkeys : env.KeysDistinct)
include hw hkeys

/-- What is left to do after a part has been built is done again from where the part was. -/
theorem of_course (h : w.Retraced env s K v) (hcourse : Course env s g n J w w₁)
    (hJ : J.Within env s (s.Describes env)) : w₁.Retraced env s K v := by
  have hresumes := Walk.Resumes.of_course hw hkeys hcourse hJ h.tended.owned
  exact ⟨h.tended.of_derives hw hkeys (derives_of_course hcourse) hJ,
    List.Subset.trans h.names hresumes.names,
    h.echoes.of_visits (depth_of_course hcourse) hresumes.visits⟩

theorem visiting (h : w.Retraced env s K v) (hd : s.Describes env d) (harr : Arrayed env s d) :
    (w.visiting d).Retraced env s K (v.visiting d) :=
  ⟨h.tended.visiting hw hkeys hd harr, h.names, h.echoes.visiting hd harr⟩

end

end Walk.Retraced

/-! ## Steps that are done again -/

namespace Build

/-- A default that has been asked for is given again. -/
theorem instanceOf_again {made : Option Value} (hself : d.key.same d.key = true)
    (h : instanceOf d w = .ok made w') (hv : w'.session.instances <+: v.session.instances) :
    instanceOf d v = .ok made v := by
  obtain ⟨hkey, h⟩ := instanceOf_eq_ok.mp h
  obtain ⟨later, hlater⟩ := hv
  -- the first instance under the key is the one that the answer was
  suffices hfind : ∃ k, v.session.instances.find? (fun e => e.1.same d.key) = some (k, made) by
    obtain ⟨k, hfind⟩ := hfind
    refine instanceOf_eq_ok.mpr ⟨hkey, ?_⟩
    rw [hfind]
    exact ⟨rfl, rfl⟩
  cases hfind : w.session.instances.find? fun e => e.1.same d.key with
  | some e =>
    rw [hfind] at h
    obtain ⟨rfl, rfl⟩ := h
    refine ⟨e.1, ?_⟩
    rw [← hlater, List.find?_append, hfind]
    rfl
  | none =>
    rw [hfind] at h
    obtain ⟨rfl, rfl⟩ := h
    refine ⟨d.key, ?_⟩
    rw [← hlater, List.append_assoc, List.find?_append, hfind, Option.none_or]
    exact List.find?_cons_of_pos hself

end Build

namespace Environment

open Build

variable {builder : Descriptor → Build Built}

/-- A property that has been dressed is dressed in the same way again. -/
theorem dress_again {q : Property} {c : Constraints} {held node : Node}
    (hself : d.key.same d.key = true) (h : env.dress d q c held w = .ok node w')
    (hv : w'.session.instances <+: v.session.instances) :
    env.dress d q c held v = .ok node v := by
  have hdress := dress_eq_ok.mp h
  refine dress_eq_ok.mpr ?_
  split at hdress
  next hasks =>
    obtain ⟨made, value, hmade, hdefault, hnode⟩ := hdress
    rw [if_pos hasks]
    exact ⟨made, value, instanceOf_again hself hmade hv, hdefault, hnode⟩
  next hasks =>
    rw [if_neg hasks]
    exact ⟨hdress.1, rfl⟩

/-! ### Referring to types -/

section

variable (hv : s.Below v.session)
include hv

/-- A name that is stored and belongs to the type. -/
theorem refer_of_owns (hpub : Published env s d) (hstored : d.name ∈ v.session.registry.names)
    (howns : v.scene.Owns d) : env.refer builder d v = .ok (.refTo d.name) v := by
  obtain ⟨k, hk, hsame⟩ := howns
  have hinline : s.Settles (env.isInline d) false := settles_isInline hpub.shape hpub.kind
  have hclaim : env.claim d.name d v = .ok () v := claim_eq_ok.mpr (.inl ⟨k, hk, hsame, rfl⟩)
  unfold refer
  rw [bind_of_ok (hinline v hv), if_neg Bool.false_ne_true,
    bind_of_ok (stored?_eq_ok.mpr ⟨rfl, rfl⟩), if_pos (Registry.isSome_get?_iff.mpr hstored),
    bind_of_ok hclaim]
  rfl

theorem refer_of_inline {r : Built} (hinline : s.Settles (env.isInline d) true)
    (hbuild : builder d v = .ok r v) : env.refer builder d v = .ok r.node v := by
  unfold refer
  rw [bind_of_ok (hinline v hv), if_pos rfl, bind_of_ok hbuild]
  rfl

/-- A type without an entry, whose name is free. -/
theorem refer_of_free {r : Built} (hinline : s.Settles (env.isInline d) false)
    (hfree : d.name ∉ v.session.registry.names) (hkey : d.key.check = .ok ())
    (hvisits : v.visits d = true → s.Settles (env.publishesArray d) true)
    (hbuild : builder d v = .ok r v) (hr : r.stored = false) :
    env.refer builder d v = .ok r.node v := by
  have hawaited : env.isAwaited d v = .ok false v := by
    unfold isAwaited
    rw [bind_of_ok (isVisited_eq_ok.mpr ⟨hkey, rfl, rfl⟩)]
    split
    next hvisited =>
      rw [bind_of_ok (hvisits hvisited v hv)]
      rfl
    next => rfl
  have hnone : ¬ (v.session.registry.get? d.name).isSome = true :=
    fun h => hfree (Registry.isSome_get?_iff.mp h)
  unfold refer
  rw [bind_of_ok (hinline v hv), if_neg Bool.false_ne_true,
    bind_of_ok (stored?_eq_ok.mpr ⟨rfl, rfl⟩), if_neg hnone, bind_of_ok hawaited,
    if_neg Bool.false_ne_true, bind_of_ok hbuild, hr]
  rfl

theorem referTo_of_describe {t : Token} {m : Node} (hdescribe : s.Settles (env.describe t) d)
    (h : env.refer builder d v = .ok m v) : env.referTo builder t v = .ok m v := by
  unfold referTo
  rw [bind_of_ok (hdescribe v hv)]
  exact h

end

/-- A type that is built one level further up. -/
theorem build_succ {r : Built} (hdepth : v.session.depth < env.maxDepth)
    (h : env.buildShape (env.build n) d v.deeper = .ok r v.deeper) :
    env.build (n + 1) d v = .ok r v :=
  deepening_eq_ok.mpr ⟨Nat.not_lt.mpr hdepth, v.deeper, h, rfl⟩

/-! ### Building types in place -/

theorem annotate_of_merge {records : List Record} {c : Constraints}
    (hmerge : Constraints.merge records = .ok c) (m : Node) (v : Walk) :
    annotate records m v = .ok (c.apply m) v :=
  annotate_eq_ok.mpr ⟨c, hmerge, rfl, rfl⟩

theorem isArrayVisited_eq (hkey : d.key.check = .ok ()) : env.isArrayVisited d v =
    if v.visits d then env.publishesArray d v else .ok false v := by
  unfold isArrayVisited
  rw [bind_of_ok (isVisited_eq_ok.mpr ⟨hkey, rfl, rfl⟩)]
  show (if v.visits d then env.publishesArray d else return false : Build Bool) v = _
  cases v.visits d <;> rfl

theorem buildShape_of_named (hshape : d.shape.isInline = false) :
    env.buildShape builder d = env.namedNode builder d := by
  unfold buildShape
  cases hd : d.shape with
  | enum | object => rfl
  | primitive | nullable | array | map | unknown =>
    rw [hd] at hshape
    cases hshape

/-- A type with a base that is not visited, and all of whose schema its base gives. -/
theorem buildShape_of_inherit {base : Token} {node : Node} (hshape : d.shape.isInline = false)
    (hkey : d.Checked) (hvisits : v.visits d = false) (hbase : d.base = some base)
    (h : env.inherit builder d base v = .ok (.whole node) v) :
    env.buildShape builder d v = .ok ⟨node, false⟩ v := by
  have hvisited : env.isArrayVisited d v = .ok false v := by
    rw [isArrayVisited_eq (hkey hshape), hvisits]
    rfl
  rw [buildShape_of_named hshape, namedNode, hbase]
  dsimp only
  rw [bind_of_ok hvisited, if_neg Bool.false_ne_true, bind_of_ok h]
  rfl

section

variable (hv : s.Below v.session)
include hv

theorem buildShape_of_plain {node : Node} (hplain : Plain env s d node) (hkey : d.Checked)
    (hvisits : d.shape.isInline = false → v.visits d = false) :
    env.buildShape builder d v = .ok ⟨node, false⟩ v := by
  cases hplain with
  | primitive hshape hmerge | unknown hshape hmerge =>
    unfold buildShape
    rw [hshape]
    dsimp only
    rw [bind_of_ok (annotate_of_merge hmerge _ v)]
    rfl
  | named hshape hkind hleaf =>
    cases hbase : d.base with
    | none => cases hkind.unique (settles_primitiveKind_of_root hbase)
    | some base =>
      refine buildShape_of_inherit hshape hkey (hvisits hshape) hbase ?_
      unfold inherit
      rw [bind_of_ok (hkind v hv)]
      dsimp only
      rw [bind_of_ok (hleaf v hv)]
      rfl

theorem buildShape_of_wraps {t : Token} {m node : Node} {inner : Descriptor}
    (hwraps : Wraps env s d t m node) (hkey : d.Checked)
    (hvalue : d.shape = .map → ¬ (inner.shape = .primitive ∧ inner.kind = some .any))
    (hinner : s.Settles (env.describe t) inner) (hrefers : env.refer builder inner v = .ok m v)
    (hvisits : d.shape.isInline = false → v.visits d = false) :
    env.buildShape builder d v = .ok ⟨node, false⟩ v := by
  have hreferTo := referTo_of_describe hv hinner hrefers
  cases hwraps with
  | nullable hshape =>
    unfold buildShape
    rw [hshape]
    dsimp only
    rw [bind_of_ok hreferTo]
    rfl
  | array hshape hmerge =>
    unfold buildShape
    rw [hshape]
    dsimp only
    rw [bind_of_ok hreferTo, bind_of_ok (annotate_of_merge hmerge _ v)]
    rfl
  | map hshape hmerge =>
    have hmap : env.mapTo builder inner v = .ok (.object {} [] (some m) none) v := by
      unfold mapTo
      rw [if_neg (hvalue hshape), bind_of_ok hrefers]
      rfl
    unfold buildShape mapNode
    rw [hshape]
    dsimp only
    rw [bind_of_ok (bind_eq_ok.mpr ⟨_, _, hinner v hv, bind_eq_ok.mpr ⟨_, _, hmap,
      annotate_of_merge hmerge _ v⟩⟩)]
    rfl
  | renamed hshape hbase hkind hmerge hprops =>
    refine buildShape_of_inherit hshape hkey (hvisits hshape) hbase ?_
    unfold inherit
    rw [bind_of_ok (hkind v hv)]
    dsimp only
    rw [bind_of_ok (lift_eq_ok.mpr ⟨hmerge, rfl⟩), bind_of_ok hreferTo,
      if_pos (List.isEmpty_iff.mpr hprops)]
    rfl

theorem buildShape_of_anyMap {inner : Descriptor} {c : Constraints} (hshape : d.shape = .map)
    (hinner : s.Settles (env.describe (mapInner d)) inner)
    (hany : inner.shape = .primitive ∧ inner.kind = some .any)
    (hmerge : Constraints.merge d.annotations = .ok c) :
    env.buildShape builder d v = .ok ⟨c.apply (.object {} [] none (some true)), false⟩ v := by
  have hmap : env.mapTo builder inner v = .ok (.object {} [] none (some true)) v := by
    unfold mapTo
    rw [if_pos hany]
    rfl
  unfold buildShape mapNode
  rw [hshape]
  dsimp only
  rw [bind_of_ok (bind_eq_ok.mpr ⟨_, _, hinner v hv, bind_eq_ok.mpr ⟨_, _, hmap,
    annotate_of_merge hmerge _ v⟩⟩)]
  rfl

/-- An array of compositions that is open is cut off. -/
theorem buildShape_of_cutArray (harr : Arrayed env s d) (hkey : d.Checked)
    (hvisits : v.visits d = true) (harray : s.Settles (env.publishesArray d) true) :
    env.buildShape builder d v = .ok ⟨.emptyObject, false⟩ v := by
  obtain ⟨base, hbase⟩ := Option.ne_none_iff_exists'.mp harr.base
  have hvisited : env.isArrayVisited d v = .ok true v := by
    rw [isArrayVisited_eq (hkey harr.shape), hvisits]
    exact harray v hv
  rw [buildShape_of_named harr.shape, namedNode, hbase]
  dsimp only
  rw [bind_of_ok hvisited]
  rfl

/-- An array of compositions that is not open is composed again. -/
theorem buildShape_of_composed {b : Descriptor} {base : Token} {c : Constraints} {m : Node}
    {o : ObjectParts} (hderived : Derived env s d base c) (harray : c.array = true)
    (hkey : d.Checked) (hself : d.key.same d.key = true) (hvisits : v.visits d = false)
    (hdescribe : s.Settles (env.describe base) b) (hrefers : env.refer builder b v = .ok m v)
    (hobject : c.constrainsObjects = false) (hcatchAll : ∀ q ∈ d.properties, q.catchAll = false)
    (hfills : env.addProperties builder d
      ((ObjectParts.ofNode .emptyObject).requiring c.required) d.properties (v.visiting d) =
        .ok o (v.visiting d)) (hrequired : s.Settles (env.checkRequired d o) ()) :
    env.buildShape builder d v = .ok ⟨Constraints.apply { c with required := [] }
      (.array {} (.composition [m, o.toNode] none none)), false⟩ v := by
  have hpopulate : env.populate builder d ((ObjectParts.ofNode .emptyObject).requiring c.required)
      (v.visiting d) = .ok o (v.visiting d) := by
    unfold populate
    rw [bind_of_ok hfills, bind_of_ok (hrequired (v.visiting d) hv)]
    rfl
  have hvisiting : whileVisiting d.key (env.populate builder d
      ((ObjectParts.ofNode .emptyObject).requiring c.required)) v = .ok o v :=
    whileVisiting_eq_ok.mpr ⟨_, hpopulate, (Walk.leaving_visiting hself hvisits).symm⟩
  have hnone : (d.properties.filter Property.catchAll).map Property.name = [] := by
    rw [List.map_eq_nil_iff, List.filter_eq_nil_iff]
    exact fun q hq => by rw [hcatchAll q hq]; exact Bool.false_ne_true
  have hcomposed : env.composedArray builder d c m v = .ok (Constraints.apply
      { c with required := [] } (.array {} (.composition [m, o.toNode] none none))) v := by
    unfold composedArray
    dsimp only
    rw [hnone, hobject, if_neg (by exact Bool.false_ne_true), bind_of_ok hvisiting]
    rfl
  refine buildShape_of_inherit hderived.shape hkey hvisits hderived.base ?_
  unfold inherit
  rw [bind_of_ok (hderived.kind v hv)]
  dsimp only
  rw [bind_of_ok (lift_eq_ok.mpr ⟨hderived.merge, rfl⟩),
    bind_of_ok (referTo_of_describe hv hdescribe hrefers),
    if_neg (fun h => hderived.properties (List.isEmpty_iff.mp h)), if_pos harray,
    bind_of_ok hcomposed]
  rfl

/-! ### Filling objects -/

theorem addProperties_rest {inner : Descriptor} {o o' : ObjectParts} {q : Property}
    {qs : List Property} {c : Constraints} {m : Node} (hcatchAll : q.catchAll = true)
    (hmerge : Constraints.merge q.annotations = .ok c)
    (hdescribe : s.Settles (env.describe q.type) inner)
    (hrefers : env.refer builder inner v = .ok m v)
    (hfills : env.addProperties builder d (o.accepting c m) qs v = .ok o' v) :
    env.addProperties builder d o (q :: qs) v = .ok o' v := by
  have hadd : env.addProperty builder d o q v = .ok (o.accepting c m) v := by
    unfold addProperty
    rw [bind_of_ok (lift_eq_ok.mpr ⟨hmerge, rfl⟩), if_pos hcatchAll,
      bind_of_ok (referTo_of_describe hv hdescribe hrefers)]
    rfl
  exact (bind_of_ok hadd).trans hfills

theorem addProperties_property {inner : Descriptor} {o o' : ObjectParts} {q : Property}
    {qs : List Property} {c : Constraints} {m node : Node} (hcatchAll : q.catchAll = false)
    (hmerge : Constraints.merge q.annotations = .ok c)
    (hdescribe : s.Settles (env.describe q.type) inner)
    (hrefers : env.refer builder inner v = .ok m v) (hdress : env.dress d q c m v = .ok node v)
    (hfills : env.addProperties builder d (o.adding q c node) qs v = .ok o' v) :
    env.addProperties builder d o (q :: qs) v = .ok o' v := by
  have hnode : env.propertyNode builder d q c v = .ok node v :=
    (bind_of_ok (referTo_of_describe hv hdescribe hrefers)).trans hdress
  have hadd : env.addProperty builder d o q v = .ok (o.adding q c node) v := by
    unfold addProperty
    rw [bind_of_ok (lift_eq_ok.mpr ⟨hmerge, rfl⟩),
      if_neg (by rw [hcatchAll]; exact Bool.false_ne_true), bind_of_ok hnode]
    rfl
  exact (bind_of_ok hadd).trans hfills

end

end Environment

/-! ## Courses that are run again -/

/-- The types that a judgement is about are in a set, as far as it says what is made in place. -/
def Judgement.InPlace (env : Environment) (s : Session) (R : Descriptor → Prop) :
    Judgement → Prop
  | .refers d _ => R d
  | .builds d _ => R d
  | .stores d _ _ => s.Describes env d ∧ Published env s d
  | .fills d _ qs _ => R d ∧ Arrayed env s d ∧ qs ⊆ d.properties

/-- **What a judgement says comes about again**, and nothing is changed by it.  A type that is
published by name is not built again. -/
def Judgement.Again (env : Environment) (s : Session) (n : Nat) (v : Walk) : Judgement → Prop
  | .refers d m => env.refer (env.build n) d v = .ok m v
  | .builds d r => Published env s d ∨
    r.stored = false ∧ d.Checked ∧ env.buildShape (env.build n) d v = .ok r v
  | .stores _ _ _ => True
  | .fills d o qs o' => env.addProperties (env.build n) d o qs v = .ok o' v

/-- A set of types that leads nowhere else in place, and in which none is made differently the
second time: the names of those without an entry are free, and those that have yet to be stored have
no base that leads back to them. -/
structure Steady (env : Environment) (s : Session) (K : List String) (R : Descriptor → Prop) :
    Prop where
  describes : ∀ {x}, R x → s.Describes env x
  closed : ∀ {x y}, R x → ¬ Published env s x → Points env s x y → R y
  free : ∀ {x}, R x → s.Settles (env.isInline x) false → ¬ Published env s x →
    x.name ∉ s.registry.names
  based : ∀ {x}, R x → Published env s x → x.name ∉ K → ¬ SelfBased env s x

section

variable (hw : s.WellRead env) (hkeys : env.KeysDistinct)
include hw hkeys

/-- Where a type that is published by name has been referred to, it is found again. -/
theorem refer_again {m : Node} (hstored : s.claimed ⊆ s.registry.names) (hd : s.Describes env d)
    (hpub : Published env s d) (h : Course env s g n (.refers d m) w w')
    (hclaims : w'.scene.claims <+: s.claims) (hv : w.Retraced env s K v) :
    env.refer (env.build n) d v = .ok (.refTo d.name) v := by
  have howns := owns_of_refers hw hkeys hv.tended hd hpub (derives_of_course h)
  obtain ⟨howns', hclaimed⟩ := hv.echoes.owns howns hclaims
  refine Environment.refer_of_owns hv.echoes.below hpub ?_ howns'
  rw [hv.echoes.names]
  exact hstored hclaimed

/-! ### The rules -/

/-- **A judgement recurs**: what it says comes about again in any walk beside its own. -/
def Judgement.Recurs (env : Environment) (s : Session) (K : List String) (R : Descriptor → Prop)
    (n : Nat) (w w' : Walk) (J : Judgement) : Prop :=
  J.InPlace env s R → w'.scene.claims <+: s.claims → ∀ ⦃v : Walk⦄, w.Retraced env s K v →
    J.Again env s n v

section

variable {b inner : Descriptor} {base t : Token} {q : Property} {qs : List Property}
  {c : Constraints} {o o' : ObjectParts} {m node : Node} {r : Built} {w₂ w₃ : Walk}
  (hR : Steady env s K R)
include hR

/-- What was built is referred to, if it was stored, and built again, if it was not. -/
theorem recurs_fresh (hstored : s.claimed ⊆ s.registry.names)
    (hinline : s.Settles (env.isInline d) false) (hfree : d.name ∉ w.session.registry.names)
    (hvisited : w.visits d = true → s.Settles (env.publishesArray d) true)
    (hdepth : w.session.depth < env.maxDepth) (hbuilds : Course env s g n (.builds d r) w.deeper w')
    (h : (Judgement.builds d r).Recurs env s K R n w.deeper w') :
    (Judgement.refers d (if r.stored then .refTo d.name else r.node)).Recurs env s K R (n + 1) w
      w'.shallower := by
  intro hJ hclaims v hv
  obtain ⟨hshape, -⟩ := settles_isInline_false hinline
  have hd := hR.describes hJ
  by_cases hpub : Published env s d
  · have hderives := derives_of_course hbuilds
    have hyes : r.stored = true := by
      refine (stored_of_builds hw hkeys hv.tended.owned.names hd hpub
        (hpub.not_visited hvisited) hderives).resolve_right ?_
      exact hR.based hJ hpub fun hname => hfree (hv.names hname)
    rw [if_pos hyes]
    exact refer_again hw hkeys hstored hd hpub (.fresh hinline hfree hvisited hdepth hbuilds)
      hclaims hv
  · obtain ⟨hno, hkey, hrun⟩ := (h hJ hclaims hv.deeper).resolve_left hpub
    rw [← hv.echoes.depth] at hdepth
    rw [hno]
    refine Environment.refer_of_free hv.echoes.below hinline ?_ (hkey hshape) (fun hvisits => ?_)
      (Environment.build_succ hdepth hrun) hno
    · rw [hv.echoes.names]
      exact hR.free hJ hinline hpub
    · have harr := hv.echoes.arrayed_of_visits hw hkeys (knows_of_isInline hd hinline) hshape
        hvisits
      exact hvisited ((hv.echoes.arrays d hd harr).symm.trans hvisits)

/-- A leaf is no open array. -/
theorem recurs_plain (hplain : Plain env s d node) (hkey : d.Checked) :
    (Judgement.builds d ⟨node, false⟩).Recurs env s K R n w w := by
  intro hJ _ v hv
  refine .inr ⟨rfl, hkey, Environment.buildShape_of_plain hv.echoes.below hplain hkey
    fun hshape => Bool.eq_false_iff.mpr fun hvisits => ?_⟩
  cases hplain with
  | primitive hshape' _ | unknown hshape' _ =>
    rw [hshape'] at hshape
    cases hshape
  | named _ hkind _ =>
    have harr := hv.echoes.arrayed_of_visits hw hkeys ⟨hR.describes hJ, fun _ => ⟨_, hkind⟩⟩
      hshape hvisits
    cases hkind.unique harr.kind

/-- A wrapper is no open array, and what it wraps comes about again. -/
theorem recurs_wrapped (hwraps : Wraps env s d t m node) (hkey : d.Checked)
    (hvalue : d.shape = .map → ¬ (inner.shape = .primitive ∧ inner.kind = some .any))
    (hinner : s.Settles (env.describe t) inner)
    (h : (Judgement.refers inner m).Recurs env s K R n w w') :
    (Judgement.builds d ⟨node, false⟩).Recurs env s K R n w w' := by
  intro hJ hclaims v hv
  obtain ⟨hpub, harr⟩ := hwraps.not_published
  have hrun := h (hR.closed hJ hpub ⟨t, hwraps.partOf, hinner⟩) hclaims hv
  refine .inr ⟨rfl, hkey, Environment.buildShape_of_wraps hv.echoes.below hwraps hkey hvalue
    hinner hrun fun hshape => Bool.eq_false_iff.mpr fun hvisits => harr ?_⟩
  cases hwraps with
  | nullable hshape' | array hshape' _ | map hshape' _ =>
    rw [hshape'] at hshape
    cases hshape
  | renamed _ _ hkind _ _ =>
    exact hv.echoes.arrayed_of_visits hw hkeys ⟨hR.describes hJ, fun _ => ⟨_, hkind⟩⟩ hshape
      hvisits

/-- An array of compositions is composed again, since both walks have opened it or neither. -/
theorem recurs_composed (hderived : Derived env s d base c) (harray : c.array = true)
    (hkey : d.Checked) (hfresh : w.visits d = true → s.Settles (env.publishesArray d) false)
    (hdescribe : s.Settles (env.describe base) b) (hbase : Course env s g n (.refers b m) w w₁)
    (hobject : c.constrainsObjects = false) (hcatchAll : ∀ q ∈ d.properties, q.catchAll = false)
    (hfills : Course env s g n (.fills d
      ((ObjectParts.ofNode .emptyObject).requiring c.required) d.properties o) (w₁.visiting d) w₂)
    (hlearns : w₂.Learns env w₃) (hrequired : s.Settles (env.checkRequired d o) ())
    (hrefers : (Judgement.refers b m).Recurs env s K R n w w₁)
    (hown : (Judgement.fills d ((ObjectParts.ofNode .emptyObject).requiring c.required)
      d.properties o).Recurs env s K R n (w₁.visiting d) w₂) :
    (Judgement.builds d ⟨Constraints.apply { c with required := [] }
      (.array {} (.composition [m, o.toNode] none none)), false⟩).Recurs env s K R n w
        (w₃.leaving d) := by
  intro hJ hclaims v hv
  have harr := arrayed_of_derived hderived harray
  have hd := hR.describes hJ
  have hb : R b := hR.closed hJ harr.not_published
    ⟨base, .base hderived.shape hderived.kind hderived.base, hdescribe⟩
  have hclaims₂ : w₂.scene.claims <+: s.claims := by
    rw [← hlearns.scene]
    exact hclaims
  have hclaims₁ := List.IsPrefix.trans (claims_of_derives (derives_of_course hfills)) hclaims₂
  have hrun := hrefers hb hclaims₁ hv
  have hrun' := hown ⟨hJ, harr, List.Subset.refl _⟩ hclaims₂
    ((hv.of_course hw hkeys hbase (.refers hdescribe)).visiting hw hkeys hd harr)
  have hvisits := (hv.echoes.arrays d hd harr).trans (harr.not_visited hfresh)
  exact .inr ⟨rfl, hkey, Environment.buildShape_of_composed hv.echoes.below hderived harray hkey
    (same_of_describes hw hd hderived.shape) hvisits hdescribe hrun hobject hcatchAll hrun'
    hrequired⟩

/-- A property that takes all undeclared ones is added again, and then the others are. -/
theorem recurs_rest (hcatchAll : q.catchAll = true)
    (hmerge : Constraints.merge q.annotations = .ok c)
    (hdescribe : s.Settles (env.describe q.type) inner)
    (hheld : Course env s g n (.refers inner m) w w₁)
    (hfills : Course env s g n (.fills d (o.accepting c m) qs o') w₁ w')
    (hrefers : (Judgement.refers inner m).Recurs env s K R n w w₁)
    (hothers : (Judgement.fills d (o.accepting c m) qs o').Recurs env s K R n w₁ w') :
    (Judgement.fills d o (q :: qs) o').Recurs env s K R n w w' := by
  intro hJ hclaims v hv
  obtain ⟨hd, harr, hqs⟩ := hJ
  obtain ⟨hq, hqs⟩ := List.cons_subset.mp hqs
  have hinner : R inner := hR.closed hd harr.not_published
    ⟨_, .property harr.kind (.inr harr) hq, hdescribe⟩
  have hclaims₁ := List.IsPrefix.trans (claims_of_derives (derives_of_course hfills)) hclaims
  exact Environment.addProperties_rest hv.echoes.below hcatchAll hmerge hdescribe
    (hrefers hinner hclaims₁ hv)
    (hothers ⟨hd, harr, hqs⟩ hclaims (hv.of_course hw hkeys hheld (.refers hdescribe)))

/-- A property that is shown under its name is dressed in the same way, and then the others are. -/
theorem recurs_property (hcatchAll : q.catchAll = false)
    (hmerge : Constraints.merge q.annotations = .ok c)
    (hdescribe : s.Settles (env.describe q.type) inner)
    (hheld : Course env s g n (.refers inner m) w w₁)
    (hdress : env.dress d q c m w₁ = .ok node w₂)
    (hinstances : w₂.session.instances <+: s.instances)
    (hfills : Course env s g n (.fills d (o.adding q c node) qs o') w₂ w')
    (hrefers : (Judgement.refers inner m).Recurs env s K R n w w₁)
    (hothers : (Judgement.fills d (o.adding q c node) qs o').Recurs env s K R n w₂ w') :
    (Judgement.fills d o (q :: qs) o').Recurs env s K R n w w' := by
  intro hJ hclaims v hv
  obtain ⟨hd, harr, hqs⟩ := hJ
  obtain ⟨hq, hqs⟩ := List.cons_subset.mp hqs
  have hinner : R inner := hR.closed hd harr.not_published
    ⟨_, .property harr.kind (.inr harr) hq, hdescribe⟩
  have hlearns := (Environment.learns_dress _ _ _ _).ok hdress
  have hclaims₁ := List.IsPrefix.trans (claims_of_derives (derives_of_course hfills)) hclaims
  rw [hlearns.scene] at hclaims₁
  have hv₂ := (hv.of_course hw hkeys hheld (.refers hdescribe)).of_learns hlearns
  have hdressed := Environment.dress_again
    (same_of_describes hw (hR.describes hd) harr.shape) hdress (hv.echoes.instances ▸ hinstances)
  exact Environment.addProperties_property hv.echoes.below hcatchAll hmerge hdescribe
    (hrefers hinner hclaims₁ hv) hdressed (hothers ⟨hd, harr, hqs⟩ hclaims hv₂)

end

/-- **A synthesis that is done again makes the same and changes nothing**, in a session where all
claims are those that it has made, and all that is claimed is stored. -/
theorem Course.again (hR : Steady env s K R) (hstored : s.claimed ⊆ s.registry.names)
    (h : Course env s s.instances n J w w') : J.Recurs env s K R n w w' := by
  induction h with
  | learns hlearns _ ih =>
    intro hJ hclaims v hv
    exact ih hJ hclaims (hv.of_learns hlearns)
  | @inPlace n d r w w' hinline hdepth _ ih =>
    intro hJ hclaims v hv
    have hpub := not_published_of_inline hinline
    obtain ⟨-, -, hrun⟩ := (ih hJ hclaims hv.deeper).resolve_left hpub
    rw [← hv.echoes.depth] at hdepth
    exact Environment.refer_of_inline hv.echoes.below hinline (Environment.build_succ hdepth hrun)
  | known hinline hname hclaim =>
    intro hJ hclaims v hv
    have hd := hR.describes hJ
    have hpub := hv.tended.owned.published_of_known hw hkeys id hd hinline hname
      (claims_of_claim hclaim)
    exact refer_again hw hkeys hstored hd hpub (.known (g := s.instances) hinline hname hclaim)
      hclaims hv
  | awaited hinline hvisited harray =>
    intro hJ hclaims v hv
    have hd := hR.describes hJ
    have hpub :=
      (hv.tended.owned.published_of_awaited hw hkeys id hd hinline hvisited harray).1
    exact refer_again hw hkeys hstored hd hpub
      (.awaited (g := s.instances) hinline hvisited harray) hclaims hv
  | fresh hinline hfree hvisited hdepth hbuilds ih =>
    exact recurs_fresh hw hkeys hR hstored hinline hfree hvisited hdepth hbuilds ih
  | plain hplain hkey => exact recurs_plain hw hkeys hR hplain hkey
  | wrapped hwraps hkey hvalue hinner _ ih =>
    exact recurs_wrapped hw hkeys hR hwraps hkey hvalue hinner ih
  | anyMap hshape hinner hany hmerge =>
    intro _ _ v hv
    refine .inr ⟨rfl, fun hnamed => ?_,
      Environment.buildShape_of_anyMap hv.echoes.below hshape hinner hany hmerge⟩
    rw [hshape] at hnamed
    cases hnamed
  | cutArray hshape hkey hvisited harray =>
    intro hJ _ v hv
    have harr := (settles_publishesArray harray hshape).mp rfl
    have hvisits := (hv.echoes.arrays _ (hR.describes hJ) harr).trans hvisited
    exact .inr ⟨rfl, hkey,
      Environment.buildShape_of_cutArray hv.echoes.below harr hkey hvisits harray⟩
  | root hshape hbase _ _ => exact fun _ _ _ _ => .inl (published_of_root hshape hbase)
  | composed hderived harray hkey hfresh hdescribe hbase hobject hcatchAll hfills hlearns hrequired
      ihrefers ihfills =>
    exact recurs_composed hw hkeys hR hderived harray hkey hfresh hdescribe hbase hobject hcatchAll
      hfills hlearns hrequired ihrefers ihfills
  | derived hderived harray _ _ _ _ _ =>
    exact fun _ _ _ _ => .inl (published_of_derived hderived harray)
  | cut | existing | enum | object => exact fun _ _ _ _ => trivial
  | done => exact fun _ _ _ _ => rfl
  | rest hcatchAll hmerge hdescribe hheld hfills ihrefers ihfills =>
    exact recurs_rest hw hkeys hR hcatchAll hmerge hdescribe hheld hfills ihrefers ihfills
  | property hcatchAll hmerge hdescribe hheld hdress hinstances hfills ihrefers ihfills =>
    exact recurs_property hw hkeys hR hcatchAll hmerge hdescribe hheld hdress hinstances hfills
      ihrefers ihfills

end

end Schemata
