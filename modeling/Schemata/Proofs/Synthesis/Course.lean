import Schemata.Proofs.Synthesis.Growth

/-!
# The course of a synthesis

What a successful synthesis has done, step by step.  Between the questions that it asks
(`Session.Settles`) a synthesis only ever stores, claims and visits, and every question it has
asked is settled in the session it ends in.  `Course env s g n J w w'` says that what the judgement
`J` is about leads from one walk to another when the answers are those of a session `s`, the
instances that defaults are read from are among `g`, and types can be built `n` deep.

The rules are read off the functions of the synthesis, one for each way in which they succeed, and
every check that has been passed is one of their premises.

* `refers`: what holds a type.  The type is published in place, or stored already, or awaited by
  those that visit it, or built.
* `builds`: the schema of a type.  Leaves are *plain*; wrappers and aliases *wrap* their one
  part; of the others, a root and a derived type are stored, and a type published as an array is
  composed in place.
* `stores`: the schema of a type that is stored under its name, given that of its base.
* `fills`: an object under construction is given properties.

`course_build` and `course_referRoot` say that every successful run has such a course.  What has to
be shown of all of them is then shown by induction on courses.
-/

namespace Schemata

open Environment (ObjectParts mapInner)

/-- What a course is about. -/
inductive Judgement where
  | refers (d : Descriptor) (n : Node)
  | builds (d : Descriptor) (r : Built)
  | stores (d : Descriptor) (base : Option Node) (r : Built)
  | fills (d : Descriptor) (o : ObjectParts) (qs : List Property) (o' : ObjectParts)

namespace Walk

/-- The walk that visits a type as well. -/
def visiting (w : Walk) (d : Descriptor) : Walk :=
  { w with visited := d.key :: w.visited }

/-- The walk that no longer visits a type. -/
def leaving (w : Walk) (d : Descriptor) : Walk :=
  { w with visited := d.key.without w.visited }

/-- Whether a walk visits a type. -/
def visits (w : Walk) (d : Descriptor) : Bool :=
  d.key.isAmong w.visited

/-- The walk into the building of a type. -/
def deeper (w : Walk) : Walk :=
  w.atDepth (w.session.depth + 1)

/-- The walk out of the building of a type. -/
def shallower (w : Walk) : Walk :=
  w.atDepth (w.session.depth - 1)

end Walk

section

variable (env : Environment) (s : Session)

/-- The node of a type that refers to nothing. -/
inductive Plain (d : Descriptor) : Node → Prop
  | primitive {c : Constraints} (hshape : d.shape = .primitive)
      (hmerge : Constraints.merge d.annotations = .ok c) :
      Plain d (c.apply (d.kind.getD .any).schema)
  | unknown {c : Constraints} (hshape : d.shape = .unknown)
      (hmerge : Constraints.merge d.annotations = .ok c) : Plain d (c.apply .untyped)
  | named {kind : Kind} {n : Node} (hshape : d.shape.isInline = false)
      (hkind : s.Settles (env.primitiveKind d) (some kind))
      (hleaf : s.Settles (env.namedLeaf d kind) n) : Plain d n

/-- The node of a type that only wraps what holds another. -/
inductive Wraps (d : Descriptor) : Token → Node → Node → Prop
  | nullable {n : Node} (hshape : d.shape = .nullable) : Wraps d d.inner n n.makeNullable
  | array {n : Node} {c : Constraints} (hshape : d.shape = .array)
      (hmerge : Constraints.merge d.annotations = .ok c) :
      Wraps d d.inner n (c.apply (.array { uniqueItems := d.uniqueItems } n))
  | map {n : Node} {c : Constraints} (hshape : d.shape = .map)
      (hmerge : Constraints.merge d.annotations = .ok c) :
      Wraps d (mapInner d) n (c.apply (.object {} [] (some n) none))
  | renamed {n : Node} {c : Constraints} {base : Token} (hshape : d.shape.isInline = false)
      (hbase : d.base = some base) (hkind : s.Settles (env.primitiveKind d) none)
      (hmerge : Constraints.merge d.annotations = .ok c) (hprops : d.properties = []) :
      Wraps d base n (c.apply (if c.array then .array {} n else n))

/-- A type with a base that is neither a leaf nor an alias of the base, and its constraints. -/
structure Derived (d : Descriptor) (base : Token) (c : Constraints) : Prop where
  shape : d.shape.isInline = false
  base : d.base = some base
  kind : s.Settles (env.primitiveKind d) none
  properties : d.properties ≠ []
  merge : Constraints.merge d.annotations = .ok c

/-- A type that may be published by name can be looked up. -/
def Descriptor.Checked (d : Descriptor) : Prop :=
  d.shape.isInline = false → d.key.check = .ok ()

variable (g : List (Key × Option Value))

/-- **What a successful synthesis has done**, as seen from a session that knows all of it. -/
inductive Course : Nat → Judgement → Walk → Walk → Prop
  | learns {n : Nat} {J : Judgement} {w w₁ w' : Walk} (hlearns : w.Learns env w₁)
      (h : Course n J w₁ w') : Course n J w w'
  | inPlace {n : Nat} {d : Descriptor} {r : Built} {w w' : Walk}
      (hinline : s.Settles (env.isInline d) true) (hdepth : w.session.depth < env.maxDepth)
      (hbuilds : Course n (.builds d r) w.deeper w') :
      Course (n + 1) (.refers d r.node) w w'.shallower
  | known {n : Nat} {d : Descriptor} {w w' : Walk} (hinline : s.Settles (env.isInline d) false)
      (hstored : d.name ∈ w.session.registry.names)
      (hclaim : env.claim d.name d w = .ok () w') : Course n (.refers d (.refTo d.name)) w w'
  | awaited {n : Nat} {d : Descriptor} {w : Walk} (hinline : s.Settles (env.isInline d) false)
      (hvisited : w.visits d = true) (harray : s.Settles (env.publishesArray d) false) :
      Course n (.refers d (.refTo d.name)) w w
  | fresh {n : Nat} {d : Descriptor} {r : Built} {w w' : Walk}
      (hinline : s.Settles (env.isInline d) false) (hfree : d.name ∉ w.session.registry.names)
      (hvisited : w.visits d = true → s.Settles (env.publishesArray d) true)
      (hdepth : w.session.depth < env.maxDepth)
      (hbuilds : Course n (.builds d r) w.deeper w') :
      Course (n + 1) (.refers d (if r.stored then .refTo d.name else r.node)) w w'.shallower
  | plain {n : Nat} {d : Descriptor} {node : Node} {w : Walk} (hplain : Plain env s d node)
      (hkey : d.Checked) : Course n (.builds d ⟨node, false⟩) w w
  | wrapped {n : Nat} {d inner : Descriptor} {t : Token} {m node : Node} {w w' : Walk}
      (hwraps : Wraps env s d t m node) (hkey : d.Checked)
      (hvalue : d.shape = .map → ¬ (inner.shape = .primitive ∧ inner.kind = some .any))
      (hinner : s.Settles (env.describe t) inner) (hrefers : Course n (.refers inner m) w w') :
      Course n (.builds d ⟨node, false⟩) w w'
  | anyMap {n : Nat} {d inner : Descriptor} {c : Constraints} {w : Walk} (hshape : d.shape = .map)
      (hinner : s.Settles (env.describe (mapInner d)) inner)
      (hany : inner.shape = .primitive ∧ inner.kind = some .any)
      (hmerge : Constraints.merge d.annotations = .ok c) :
      Course n (.builds d ⟨c.apply (.object {} [] none (some true)), false⟩) w w
  | cutArray {n : Nat} {d : Descriptor} {w : Walk} (hshape : d.shape.isInline = false)
      (hkey : d.Checked) (hvisited : w.visits d = true)
      (harray : s.Settles (env.publishesArray d) true) :
      Course n (.builds d ⟨.emptyObject, false⟩) w w
  | root {n : Nat} {d : Descriptor} {r : Built} {w w' : Walk} (hshape : d.shape.isInline = false)
      (hbase : d.base = none) (hstores : Course n (.stores d none r) w w') :
      Course n (.builds d r) w w'
  | composed {n : Nat} {d b : Descriptor} {base : Token} {c : Constraints} {m : Node}
      {o : ObjectParts} {w w₁ w₂ w₃ : Walk} (hderived : Derived env s d base c)
      (harray : c.array = true) (hkey : d.Checked)
      (hfresh : w.visits d = true → s.Settles (env.publishesArray d) false)
      (hdescribe : s.Settles (env.describe base) b) (hrefers : Course n (.refers b m) w w₁)
      (hobject : c.constrainsObjects = false) (hcatchAll : ∀ q ∈ d.properties, q.catchAll = false)
      (hfills : Course n (.fills d ((ObjectParts.ofNode .emptyObject).requiring c.required)
        d.properties o) (w₁.visiting d) w₂) (hlearns : w₂.Learns env w₃)
      (hrequired : s.Settles (env.checkRequired d o) ()) :
      Course n (.builds d ⟨Constraints.apply { c with required := [] }
        (.array {} (.composition [m, o.toNode] none none)), false⟩) w (w₃.leaving d)
  | derived {n : Nat} {d b : Descriptor} {base : Token} {c : Constraints} {m : Node} {r : Built}
      {w w₁ w₂ : Walk} (hderived : Derived env s d base c) (harray : c.array = false)
      (hdescribe : s.Settles (env.describe base) b) (hrefers : Course n (.refers b m) w w₁)
      (hstores : Course n (.stores d (some m) r) w₁ w₂) : Course n (.builds d r) w w₂
  | cut {n : Nat} {d : Descriptor} {base : Option Node} {w : Walk} (hvisited : w.visits d = true) :
      Course n (.stores d base ⟨.emptyObject, false⟩) w w
  | existing {n : Nat} {d : Descriptor} {base : Option Node} {node : Node} {w w' : Walk}
      (hvisited : w.visits d = false) (hclaim : env.claim d.name d (w.visiting d) = .ok () w')
      (hstored : w'.session.registry.get? d.name = some node) :
      Course n (.stores d base ⟨node, true⟩) w w'
  | enum {n : Nat} {d : Descriptor} {base : Option Node} {c : Constraints} {stored : Node}
      {w w₁ w' : Walk} (hvisited : w.visits d = false)
      (hclaim : env.claim d.name d (w.visiting d) = .ok () w₁)
      (hfree : d.name ∉ w₁.session.registry.names) (hshape : d.shape = .enum)
      (hmerge : Constraints.merge d.annotations = .ok c)
      (hput : (Registry.putting d.name
        (c.apply (.leaf { choices := d.members.map .text } (some .string))) : Build Node) w₁ =
          .ok stored w') : Course n (.stores d base ⟨stored, true⟩) w w'
  | object {n : Nat} {d : Descriptor} {base : Option Node} {c : Constraints} {o : ObjectParts}
      {stored : Node} {w w₁ w₂ w₃ w' : Walk} (hvisited : w.visits d = false)
      (hclaim : env.claim d.name d (w.visiting d) = .ok () w₁)
      (hfree : d.name ∉ w₁.session.registry.names) (hshape : d.shape ≠ .enum)
      (hmerge : Constraints.merge d.annotations = .ok c)
      (hfills : Course n (.fills d (.ofNode (c.apply .emptyObject)) d.properties o) w₁ w₂)
      (hlearns : w₂.Learns env w₃) (hrequired : s.Settles (env.checkRequired d o) ())
      (hput : (Registry.putting d.name (o.over base) : Build Node) w₃ = .ok stored w') :
      Course n (.stores d base ⟨stored, true⟩) w w'
  | done {n : Nat} {d : Descriptor} {o : ObjectParts} {w : Walk} : Course n (.fills d o [] o) w w
  | rest {n : Nat} {d inner : Descriptor} {o o' : ObjectParts} {q : Property} {qs : List Property}
      {c : Constraints} {m : Node} {w w₁ w' : Walk} (hcatchAll : q.catchAll = true)
      (hmerge : Constraints.merge q.annotations = .ok c)
      (hdescribe : s.Settles (env.describe q.type) inner)
      (hrefers : Course n (.refers inner m) w w₁)
      (hfills : Course n (.fills d (o.accepting c m) qs o') w₁ w') :
      Course n (.fills d o (q :: qs) o') w w'
  | property {n : Nat} {d inner : Descriptor} {o o' : ObjectParts} {q : Property}
      {qs : List Property} {c : Constraints} {m node : Node} {w w₁ w₂ w' : Walk}
      (hcatchAll : q.catchAll = false) (hmerge : Constraints.merge q.annotations = .ok c)
      (hdescribe : s.Settles (env.describe q.type) inner)
      (hrefers : Course n (.refers inner m) w w₁) (hdress : env.dress d q c m w₁ = .ok node w₂)
      (hinstances : w₂.session.instances <+: g)
      (hfills : Course n (.fills d (o.adding q c node) qs o') w₂ w') :
      Course n (.fills d o (q :: qs) o') w w'

end

/-! ## What a walk has learned is known -/

/-- All that a walk has learned is known to a session, and its instances are among some. -/
structure Walk.Known (s : Session) (g : List (Key × Option Value)) (w : Walk) : Prop where
  below : w.session.Below s
  instances : w.session.instances <+: g

theorem Walk.Known.of_grows {env : Environment} {s : Session} {g : List (Key × Option Value)}
    {w w' : Walk} (h : w'.Known s g) (hw : Walk.Grows env w w') : w.Known s g :=
  ⟨hw.below.trans h.below, List.IsPrefix.trans hw.instances h.instances⟩

theorem Walk.Known.of_learns {env : Environment} {s : Session} {g : List (Key × Option Value)}
    {w w' : Walk} (h : w'.Known s g) (hw : w.Learns env w') : w.Known s g :=
  h.of_grows hw.session.grows

/-- What has been answered is settled in every session that knows as much, and nothing but
learning has happened. -/
theorem Build.Reads.answer {env : Environment} {s : Session} {α : Type} {x : Build α}
    (hx : Build.Reads env x) {a : α} {w w' : Walk} (h : x w = .ok a w')
    (hs : w'.session.Below s) : s.Settles x a ∧ w.Learns env w' :=
  ⟨hx.settles_of_below h hs, hx.learns.ok h⟩

namespace Environment

open Build

variable {env : Environment} {s : Session} {g : List (Key × Option Value)} {n : Nat}

theorem settles_of_isAwaited {d : Descriptor} {b : Bool} {w w' : Walk}
    (h : env.isAwaited d w = .ok b w') (hs : w'.session.Below s) :
    (b = true → w.visits d = true ∧ s.Settles (env.publishesArray d) false) ∧
      (b = false → w.visits d = true → s.Settles (env.publishesArray d) true) := by
  obtain ⟨visited, w₁, hv, h⟩ := bind_eq_ok.mp h
  obtain ⟨-, rfl, rfl⟩ := isVisited_eq_ok.mp hv
  split at h
  next hvisited =>
    obtain ⟨array, w₂, ha, h⟩ := bind_eq_ok.mp h
    obtain ⟨rfl, rfl⟩ := pure_eq_ok.mp h
    have hsettles := (reads_publishesArray d).settles_of_below ha hs
    cases array with
    | true => exact ⟨nofun, fun _ _ => hsettles⟩
    | false => exact ⟨fun _ => ⟨hvisited, hsettles⟩, nofun⟩
  next hvisited =>
    obtain ⟨rfl, -⟩ := pure_eq_ok.mp h
    exact ⟨nofun, fun _ hv' => absurd hv' hvisited⟩

theorem settles_of_isArrayVisited {d : Descriptor} {b : Bool} {w w' : Walk}
    (h : env.isArrayVisited d w = .ok b w') (hs : w'.session.Below s) :
    d.key.check = .ok () ∧
      (b = true → w.visits d = true ∧ s.Settles (env.publishesArray d) true) ∧
      (b = false → w.visits d = true → s.Settles (env.publishesArray d) false) := by
  obtain ⟨visited, w₁, hv, h⟩ := bind_eq_ok.mp h
  obtain ⟨hkey, rfl, rfl⟩ := isVisited_eq_ok.mp hv
  refine ⟨hkey, ?_⟩
  split at h
  next hvisited =>
    have hsettles := (reads_publishesArray d).settles_of_below h hs
    exact ⟨fun hb => ⟨hvisited, hb ▸ hsettles⟩, fun hb _ => hb ▸ hsettles⟩
  next hvisited =>
    obtain ⟨rfl, -⟩ := pure_eq_ok.mp h
    exact ⟨nofun, fun _ hv' => absurd hv' hvisited⟩

theorem annotate_eq_ok {records : List Record} {m node : Node} {w w' : Walk} :
    annotate records m w = .ok node w' ↔
      ∃ c, Constraints.merge records = .ok c ∧ node = c.apply m ∧ w' = w := by
  unfold annotate
  rw [bind_eq_ok]
  constructor
  · rintro ⟨c, w₁, hlift, h⟩
    obtain ⟨hc, rfl⟩ := lift_eq_ok.mp hlift
    exact ⟨c, hc, pure_eq_ok.mp h⟩
  · rintro ⟨c, hc, rfl, rfl⟩
    exact ⟨c, _, lift_eq_ok.mpr ⟨hc, rfl⟩, rfl⟩

theorem putting_eq_ok {name : String} {node stored : Node} {w w' : Walk} :
    (Registry.putting name node : Build Node) w = .ok stored w' ↔
      stored = (w.session.registry.put name node).1 ∧ w' = { w with session :=
        { w.session with registry := (w.session.registry.put name node).2 } } :=
  ⟨by rintro ⟨⟩; exact ⟨rfl, rfl⟩, by rintro ⟨rfl, rfl⟩; rfl⟩

/-- What is built inside types that can be built that deep has a course. -/
def Charts (env : Environment) (s : Session) (g : List (Key × Option Value)) (n : Nat) : Prop :=
  ∀ {m d r w w'}, n = m + 1 → env.buildShape (env.build m) d w = .ok r w' → w'.Known s g →
    Course env s g m (.builds d r) w w'

section Builder

variable (hb : env.Charts s g n)
include hb

/-- The course of a type that is built, one level further up. -/
theorem course_of_build {d : Descriptor} {r : Built} {w w' : Walk}
    (h : env.build n d w = .ok r w') (hs : w'.Known s g) :
    ∃ m w₁, n = m + 1 ∧ w.session.depth < env.maxDepth ∧
      Course env s g m (.builds d r) w.deeper w₁ ∧ w' = w₁.shallower := by
  cases n with
  | zero => cases h
  | succ m =>
    obtain ⟨hdepth, w₁, hbuild, rfl⟩ := deepening_eq_ok.mp h
    exact ⟨m, w₁, rfl, Nat.not_lt.mp hdepth, hb rfl hbuild ⟨hs.below, hs.instances⟩, rfl⟩

theorem course_refer {d : Descriptor} {m : Node} {w w' : Walk}
    (h : env.refer (env.build n) d w = .ok m w') (hs : w'.Known s g) :
    Course env s g n (.refers d m) w w' := by
  obtain ⟨inline, w₁, hinline, h⟩ := bind_eq_ok.mp h
  have hanswer (hgrows : Walk.Grows env w₁ w') :=
    (reads_isInline d).answer hinline (hs.of_grows hgrows).below
  split at h
  next hin =>
    obtain ⟨r, w₂, hr, h⟩ := bind_eq_ok.mp h
    obtain ⟨rfl, rfl⟩ := pure_eq_ok.mp h
    obtain ⟨hsettles, hlearns⟩ := hanswer ((keeps_build n d).ok hr)
    obtain ⟨k, w₃, rfl, hdepth, hbuilds, rfl⟩ := course_of_build hb hr hs
    exact .learns hlearns (.inPlace (hin ▸ hsettles) hdepth hbuilds)
  next hin =>
    obtain ⟨found, _, hfound, h⟩ := bind_eq_ok.mp h
    obtain ⟨rfl, rfl⟩ := stored?_eq_ok.mp hfound
    rw [Bool.not_eq_true] at hin
    split at h
    next hstored =>
      obtain ⟨_, w₂, hclaim, h⟩ := bind_eq_ok.mp h
      obtain ⟨rfl, rfl⟩ := pure_eq_ok.mp h
      obtain ⟨hsettles, hlearns⟩ := hanswer ((keeps_claim _ d).ok hclaim)
      exact .learns hlearns
        (.known (hin ▸ hsettles) (Registry.isSome_get?_iff.mp hstored) hclaim)
    next hfree =>
      obtain ⟨awaited, w₂, hawaited, h⟩ := bind_eq_ok.mp h
      have hlearns₂ := (learns_isAwaited d).ok hawaited
      split at h
      next hyes =>
        obtain ⟨rfl, rfl⟩ := pure_eq_ok.mp h
        obtain ⟨hsettles, hlearns⟩ := hanswer hlearns₂.session.grows
        obtain ⟨htrue, -⟩ := settles_of_isAwaited hawaited hs.below
        refine .learns (hlearns.trans hlearns₂) (.awaited (hin ▸ hsettles) ?_ (htrue hyes).2)
        rw [Walk.visits, hlearns₂.visited]
        exact (htrue hyes).1
      next hno =>
        obtain ⟨r, w₃, hr, h⟩ := bind_eq_ok.mp h
        have hgrows : Walk.Grows env w₂ w₃ := (keeps_build n d).ok hr
        obtain ⟨rfl, rfl⟩ := pure_eq_ok.mp h
        obtain ⟨hsettles, hlearns⟩ := hanswer (hlearns₂.session.grows.trans hgrows)
        obtain ⟨-, hfalse⟩ := settles_of_isAwaited hawaited (hs.of_grows hgrows).below
        obtain ⟨k, w₄, rfl, hdepth, hbuilds, rfl⟩ := course_of_build hb hr hs
        refine .learns (hlearns.trans hlearns₂) (.fresh (hin ▸ hsettles) ?_ ?_ hdepth hbuilds)
        · rw [hlearns₂.session.registry]
          exact fun hm => hfree (Registry.isSome_get?_iff.mpr hm)
        · rw [Walk.visits, hlearns₂.visited]
          exact hfalse (Bool.not_eq_true _ ▸ hno)

theorem course_referTo {t : Token} {m : Node} {w w' : Walk}
    (h : env.referTo (env.build n) t w = .ok m w') (hs : w'.Known s g) :
    ∃ d, s.Settles (env.describe t) d ∧ Course env s g n (.refers d m) w w' := by
  obtain ⟨d, w₁, hd, h⟩ := bind_eq_ok.mp h
  have hgrows : Walk.Grows env w₁ w' := (keeps_refer (keeps_build n) d).ok h
  obtain ⟨hsettles, hlearns⟩ := (reads_describe t).answer hd (hs.of_grows hgrows).below
  exact ⟨d, hsettles, .learns hlearns (course_refer hb h hs)⟩

theorem course_addProperties {d : Descriptor} {o o' : ObjectParts} {qs : List Property}
    {w w' : Walk} (h : env.addProperties (env.build n) d o qs w = .ok o' w')
    (hs : w'.Known s g) : Course env s g n (.fills d o qs o') w w' := by
  induction qs generalizing o w with
  | nil =>
    obtain ⟨rfl, rfl⟩ := pure_eq_ok.mp h
    exact .done
  | cons q qs ih =>
    obtain ⟨o₁, w₃, hadd, hmore⟩ := bind_eq_ok.mp h
    have hgrows : Walk.Grows env w₃ w' := (keeps_addProperties (keeps_build n) d o₁ qs).ok hmore
    have hs₃ : w₃.Known s g := hs.of_grows hgrows
    obtain ⟨c, w₁, hlift, hone⟩ := bind_eq_ok.mp hadd
    obtain ⟨hmerge, rfl⟩ := lift_eq_ok.mp hlift
    split at hone
    next hcatchAll =>
      obtain ⟨m, w₂, hrefer, hend⟩ := bind_eq_ok.mp hone
      obtain ⟨rfl, rfl⟩ := pure_eq_ok.mp hend
      obtain ⟨inner, hinner, hrefers⟩ := course_referTo hb hrefer hs₃
      exact .rest hcatchAll hmerge hinner hrefers (ih hmore)
    next hcatchAll =>
      obtain ⟨node, _, hnode, hend⟩ := bind_eq_ok.mp hone
      obtain ⟨rfl, rfl⟩ := pure_eq_ok.mp hend
      obtain ⟨m, w₂, hrefer, hdress⟩ := bind_eq_ok.mp hnode
      have hlearns := (learns_dress d q c m).ok hdress
      obtain ⟨inner, hinner, hrefers⟩ := course_referTo hb hrefer (hs₃.of_learns hlearns)
      exact .property (Bool.not_eq_true _ ▸ hcatchAll) hmerge hinner hrefers hdress hs₃.instances
        (ih hmore)

theorem course_populate {d : Descriptor} {o o' : ObjectParts} {w w' : Walk}
    (h : env.populate (env.build n) d o w = .ok o' w') (hs : w'.Known s g) :
    ∃ w₁, Course env s g n (.fills d o d.properties o') w w₁ ∧ w₁.Learns env w' ∧
      s.Settles (env.checkRequired d o') () := by
  obtain ⟨o₁, w₁, hadd, h⟩ := bind_eq_ok.mp h
  obtain ⟨_, w₂, hcheck, h⟩ := bind_eq_ok.mp h
  obtain ⟨rfl, rfl⟩ := pure_eq_ok.mp h
  obtain ⟨hsettles, hlearns⟩ := (reads_checkRequired d o').answer hcheck hs.below
  exact ⟨w₁, course_addProperties hb hadd (hs.of_learns hlearns), hlearns, hsettles⟩

/-- What becomes of a type with a base: all of its schema, or what is to be stored under its
name together with its own object. -/
theorem course_inherit {d : Descriptor} {base : Token} {what : Inherited} {w w' : Walk}
    (hshape : d.shape.isInline = false) (hbase : d.base = some base) (hkey : d.Checked)
    (hfresh : w.visits d = true → s.Settles (env.publishesArray d) false)
    (h : env.inherit (env.build n) d base w = .ok what w') (hs : w'.Known s g) :
    match what with
    | .whole node => Course env s g n (.builds d ⟨node, false⟩) w w'
    | .base node => ∃ c b, Derived env s d base c ∧ c.array = false ∧
        s.Settles (env.describe base) b ∧ Course env s g n (.refers b node) w w' := by
  obtain ⟨kind, w₁, hkind, hthen⟩ := bind_eq_ok.mp h
  have hanswer (hgrows : Walk.Grows env w₁ w') :=
    (reads_primitiveKind d).answer hkind (hs.of_grows hgrows).below
  cases kind with
  | some kind =>
    obtain ⟨leaf, w₂, hleaf, hend⟩ := bind_eq_ok.mp hthen
    obtain ⟨rfl, rfl⟩ := pure_eq_ok.mp hend
    obtain ⟨hnode, hlearns₂⟩ := (reads_namedLeaf d kind).answer hleaf hs.below
    obtain ⟨hsettles, hlearns⟩ := hanswer hlearns₂.session.grows
    exact .learns (hlearns.trans hlearns₂) (.plain (.named hshape hsettles hnode) hkey)
  | none =>
    obtain ⟨c, w₂, hlift, hbase'⟩ := bind_eq_ok.mp hthen
    obtain ⟨hmerge, rfl⟩ := lift_eq_ok.mp hlift
    obtain ⟨m, w₃, hrefer, hrest⟩ := bind_eq_ok.mp hbase'
    have hrefers (hgrows : Walk.Grows env w₃ w') :
        s.Settles (env.primitiveKind d) none ∧ ∃ b, s.Settles (env.describe base) b ∧
          Course env s g n (.refers b m) w w₃ := by
      have hgrows₁ : Walk.Grows env w₂ w₃ := (keeps_referTo (keeps_build n) base).ok hrefer
      obtain ⟨hsettles, hlearns⟩ := hanswer (Session.Grows.trans hgrows₁ hgrows)
      obtain ⟨b, hb', hn⟩ := course_referTo hb hrefer (hs.of_grows hgrows)
      exact ⟨hsettles, b, hb', .learns hlearns hn⟩
    split at hrest
    next hprops =>
      obtain ⟨rfl, rfl⟩ := pure_eq_ok.mp hrest
      obtain ⟨hsettles, b, hb', hn⟩ := hrefers (.refl _)
      refine .wrapped (.renamed hshape hbase hsettles hmerge (List.isEmpty_iff.mp hprops)) hkey
        (fun hmap => ?_) hb' hn
      rw [hmap] at hshape
      cases hshape
    next hprops =>
      replace hprops : d.properties ≠ [] := fun heq => hprops (List.isEmpty_iff.mpr heq)
      split at hrest
      next harray =>
        obtain ⟨node, w₄, hcomposed, hend⟩ := bind_eq_ok.mp hrest
        have hgrows : Walk.Grows env w₃ w₄ :=
          (keeps_composedArray (keeps_build n) d c m).ok hcomposed
        obtain ⟨rfl, rfl⟩ := pure_eq_ok.mp hend
        obtain ⟨hsettles, b, hb', hn⟩ := hrefers hgrows
        unfold composedArray at hcomposed
        simp only at hcomposed
        split at hcomposed
        · cases hcomposed
        next hallowed =>
        simp only [Bool.or_eq_true, not_or, Bool.not_eq_true', Bool.not_eq_false,
          Bool.not_eq_true] at hallowed
        have hcatchAll : ∀ q ∈ d.properties, q.catchAll = false := by
          intro q hq
          refine Bool.eq_false_iff.mpr fun hall => ?_
          have hmem := List.mem_map_of_mem (f := Property.name)
            (List.mem_filter.mpr ⟨hq, hall⟩)
          rw [List.isEmpty_iff.mp hallowed.2] at hmem
          cases hmem
        obtain ⟨o, w₅, hfill, hend⟩ := bind_eq_ok.mp hcomposed
        obtain ⟨rfl, rfl⟩ := pure_eq_ok.mp hend
        obtain ⟨w₆, hpopulate, rfl⟩ := whileVisiting_eq_ok.mp hfill
        obtain ⟨w₇, hfills, hlearns, hrequired⟩ :=
          course_populate hb hpopulate ⟨hs.below, hs.instances⟩
        exact .composed ⟨hshape, hbase, hsettles, hprops, hmerge⟩ harray hkey hfresh hb' hn
          hallowed.1 hcatchAll hfills hlearns hrequired
      next harray =>
        obtain ⟨rfl, rfl⟩ := pure_eq_ok.mp hrest
        obtain ⟨hsettles, b, hb', hn⟩ := hrefers (.refl _)
        exact ⟨c, b, ⟨hshape, hbase, hsettles, hprops, hmerge⟩, Bool.not_eq_true _ ▸ harray,
          hb', hn⟩

theorem course_storeNode {d : Descriptor} {base : Option Node} {r : Built} {w w' : Walk}
    (h : env.storeNode (env.build n) d base w = .ok r w') (hs : w'.Known s g) :
    Course env s g n (.stores d base r) w w' := by
  obtain ⟨visited, w₁, hv, h⟩ := bind_eq_ok.mp h
  obtain ⟨-, rfl, rfl⟩ := isVisited_eq_ok.mp hv
  split at h
  next hvisited =>
    obtain ⟨rfl, rfl⟩ := pure_eq_ok.mp h
    exact .cut hvisited
  next hvisited =>
    replace hvisited : w₁.visits d = false := Bool.not_eq_true _ ▸ hvisited
    obtain ⟨_, w₂, hvisit, h⟩ := bind_eq_ok.mp h
    cases visit_eq_ok.mp hvisit
    obtain ⟨_, w₃, hclaim, h⟩ := bind_eq_ok.mp h
    obtain ⟨found, _, hfound, hstore⟩ := bind_eq_ok.mp h
    obtain ⟨hget, rfl⟩ := stored?_eq_ok.mp hfound
    cases found with
    | some node =>
      obtain ⟨rfl, rfl⟩ := pure_eq_ok.mp hstore
      exact .existing hvisited hclaim hget.symm
    | none =>
      have hfree := Registry.get?_eq_none_iff.mp hget.symm
      obtain ⟨node, w₄, hown, hthen⟩ := bind_eq_ok.mp hstore
      obtain ⟨stored, w₅, hput, hend⟩ := bind_eq_ok.mp hthen
      obtain ⟨rfl, rfl⟩ := pure_eq_ok.mp hend
      unfold ownNode at hown
      split at hown
      next hshape =>
        obtain ⟨c, hmerge, rfl, rfl⟩ := annotate_eq_ok.mp hown
        exact .enum hvisited hclaim hfree hshape hmerge hput
      next hshape =>
        obtain ⟨c, _, hlift, hobject⟩ := bind_eq_ok.mp hown
        obtain ⟨hmerge, rfl⟩ := lift_eq_ok.mp hlift
        obtain ⟨o, w₆, hpopulate, hend⟩ := bind_eq_ok.mp hobject
        obtain ⟨rfl, rfl⟩ := pure_eq_ok.mp hend
        obtain ⟨-, rfl⟩ := putting_eq_ok.mp hput
        have hs₄ : w₄.Known s g := ⟨hs.below, hs.instances⟩
        obtain ⟨w₇, hfills, hlearns, hrequired⟩ := course_populate hb hpopulate hs₄
        exact .object hvisited hclaim hfree hshape hmerge hfills hlearns hrequired hput

theorem course_namedNode {d : Descriptor} {r : Built} {w w' : Walk}
    (hshape : d.shape.isInline = false) (h : env.namedNode (env.build n) d w = .ok r w')
    (hs : w'.Known s g) : Course env s g n (.builds d r) w w' := by
  unfold namedNode at h
  cases hbase : d.base with
  | none =>
    rw [hbase] at h
    exact .root hshape hbase (course_storeNode hb h hs)
  | some base =>
    rw [hbase] at h
    obtain ⟨visited, w₁, hv, h⟩ := bind_eq_ok.mp h
    have hlearns := (learns_isArrayVisited d).ok hv
    split at h
    next hvisited =>
      obtain ⟨rfl, rfl⟩ := pure_eq_ok.mp h
      obtain ⟨hkey, htrue, -⟩ := settles_of_isArrayVisited hv hs.below
      refine .learns hlearns (.cutArray hshape (fun _ => hkey) ?_ (htrue hvisited).2)
      rw [Walk.visits, hlearns.visited]
      exact (htrue hvisited).1
    next hnot =>
      obtain ⟨what, w₂, hinherit, h⟩ := bind_eq_ok.mp h
      have hgrows₁ : Walk.Grows env w₁ w₂ := (keeps_inherit (keeps_build n) d base).ok hinherit
      have hfresh (hs₂ : w₂.Known s g) : d.Checked ∧
          (w₁.visits d = true → s.Settles (env.publishesArray d) false) := by
        obtain ⟨hkey, -, hfalse⟩ := settles_of_isArrayVisited hv (hs₂.of_grows hgrows₁).below
        refine ⟨fun _ => hkey, ?_⟩
        rw [Walk.visits, hlearns.visited]
        exact hfalse (Bool.not_eq_true _ ▸ hnot)
      cases what with
      | whole node =>
        obtain ⟨rfl, rfl⟩ := pure_eq_ok.mp h
        obtain ⟨hkey, hfresh⟩ := hfresh hs
        exact .learns hlearns (course_inherit hb hshape hbase hkey hfresh hinherit hs)
      | base node =>
        have hs₂ : w₂.Known s g :=
          hs.of_grows ((keeps_storeNode (keeps_build n) d (some node)).ok h)
        obtain ⟨hkey, hfresh⟩ := hfresh hs₂
        obtain ⟨c, b, hderived, harray, hb', hn⟩ :=
          course_inherit hb hshape hbase hkey hfresh hinherit hs₂
        exact .learns hlearns (.derived hderived harray hb' hn (course_storeNode hb h hs))

theorem course_mapNode {d : Descriptor} {node : Node} {w w' : Walk} (hshape : d.shape = .map)
    (h : env.mapNode (env.build n) d w = .ok node w') (hs : w'.Known s g) :
    Course env s g n (.builds d ⟨node, false⟩) w w' := by
  obtain ⟨inner, w₁, hinner, h⟩ := bind_eq_ok.mp h
  obtain ⟨held, w₂, hmap, hnode⟩ := bind_eq_ok.mp h
  have hgrows : Walk.Grows env w₁ w₂ := (keeps_mapTo (keeps_build n) inner).ok hmap
  obtain ⟨c, hmerge, rfl, rfl⟩ := annotate_eq_ok.mp hnode
  obtain ⟨hsettles, hlearns⟩ := (reads_describe _).answer hinner (hs.of_grows hgrows).below
  refine .learns hlearns ?_
  unfold mapTo at hmap
  split at hmap
  next hany =>
    obtain ⟨rfl, rfl⟩ := pure_eq_ok.mp hmap
    exact .anyMap hshape hsettles hany hmerge
  next hany =>
    obtain ⟨m, w₃, hrefer, hmap⟩ := bind_eq_ok.mp hmap
    obtain ⟨rfl, rfl⟩ := pure_eq_ok.mp hmap
    refine .wrapped (.map hshape hmerge) (fun h => ?_) (fun _ => hany) hsettles
      (course_refer hb hrefer hs)
    rw [hshape] at h
    cases h

theorem course_buildShape {d : Descriptor} {r : Built} {w w' : Walk}
    (h : env.buildShape (env.build n) d w = .ok r w') (hs : w'.Known s g) :
    Course env s g n (.builds d r) w w' := by
  unfold buildShape at h
  have hkey (hinline : d.shape.isInline = true) : d.Checked := fun h => by
    cases hinline.symm.trans h
  cases hshape : d.shape with
  | nullable =>
    rw [hshape] at h
    obtain ⟨m, w₁, hrefer, h⟩ := bind_eq_ok.mp h
    obtain ⟨rfl, rfl⟩ := pure_eq_ok.mp h
    obtain ⟨inner, hinner, hrefers⟩ := course_referTo hb hrefer hs
    exact .wrapped (.nullable hshape) (hkey (by rw [hshape]; rfl))
      (fun hmap => by cases hshape.symm.trans hmap) hinner hrefers
  | primitive =>
    rw [hshape] at h
    obtain ⟨m, w₁, hn, h⟩ := bind_eq_ok.mp h
    obtain ⟨rfl, rfl⟩ := pure_eq_ok.mp h
    obtain ⟨c, hmerge, rfl, rfl⟩ := annotate_eq_ok.mp hn
    exact .plain (.primitive hshape hmerge) (hkey (by rw [hshape]; rfl))
  | unknown =>
    rw [hshape] at h
    obtain ⟨m, w₁, hn, h⟩ := bind_eq_ok.mp h
    obtain ⟨rfl, rfl⟩ := pure_eq_ok.mp h
    obtain ⟨c, hmerge, rfl, rfl⟩ := annotate_eq_ok.mp hn
    exact .plain (.unknown hshape hmerge) (hkey (by rw [hshape]; rfl))
  | array =>
    rw [hshape] at h
    obtain ⟨items, w₁, hrefer, h⟩ := bind_eq_ok.mp h
    obtain ⟨m, w₂, hn, h⟩ := bind_eq_ok.mp h
    obtain ⟨rfl, rfl⟩ := pure_eq_ok.mp h
    obtain ⟨c, hmerge, rfl, rfl⟩ := annotate_eq_ok.mp hn
    obtain ⟨inner, hinner, hrefers⟩ := course_referTo hb hrefer hs
    exact .wrapped (.array hshape hmerge) (hkey (by rw [hshape]; rfl))
      (fun hmap => by cases hshape.symm.trans hmap) hinner hrefers
  | map =>
    rw [hshape] at h
    obtain ⟨m, w₁, hn, h⟩ := bind_eq_ok.mp h
    obtain ⟨rfl, rfl⟩ := pure_eq_ok.mp h
    exact course_mapNode hb hshape hn hs
  | enum | object =>
    rw [hshape] at h
    exact course_namedNode hb (by rw [hshape]; rfl) h hs

end Builder

/-- **Every successful run of the synthesis has a course.** -/
theorem charts_build (n : Nat) : env.Charts s g n := by
  induction n with
  | zero => nofun
  | succ n ih =>
    rintro m d r w w' ⟨⟩ h hs
    exact course_buildShape ih h hs

theorem course_build {d : Descriptor} {r : Built} {w w' : Walk}
    (h : env.build n d w = .ok r w') (hs : w'.Known s g) :
    ∃ m w₁, n = m + 1 ∧ w.session.depth < env.maxDepth ∧
      Course env s g m (.builds d r) w.deeper w₁ ∧ w' = w₁.shallower :=
  course_of_build (charts_build n) h hs

theorem course_referRoot {d : Descriptor} {m : Node} {w w' : Walk}
    (h : env.referRoot d w = .ok m w') (hs : w'.Known s g) :
    Course env s g env.levels (.refers d m) w w' :=
  course_refer (charts_build _) h hs

end Environment

end Schemata
