import Schemata.Proofs.Compiler.Repetition
import Schemata.Proofs.Synthesis.Heeding

/-!
# Inferring a schema and publishing a type

A schema can be had without publishing anything, by inferring it.  Inferring goes through wrappers
on its own and builds only leaves.  If publishing a type stores nothing new, then inferring its
schema in the same state should give the same.  `run_infer_agrees` tells how far it does.

Both walk down the same wrappers and ask the same questions on the way, though neither knows the
answers beforehand: they are abreast (`Walk.Abreast`), so that the answers are the same, and so is
the leaf that both build in the end.  A type that is published by name is stored by then, since
publishing it stores nothing new, and both refer to it.

## Where it fails

* Publishing lays the annotations of an array or a map on its node, inferring leaves them out.  What
  is inferred is what publishing gives less these annotations (`Inferred`), and it is the same only
  if there are none, or if they change nothing.
* A map that does not say what it maps to is a map to anything when it is published, and a map to
  null when it is inferred (`shelter_infer_ne`).
* Publishing a type checks whether its name is its own.  Inferring does not: where the name is
  stored it refers to it, whosever it is (`infer_of_stored`).
-/

namespace Schemata

open Environment (mapInner)

variable {env : Environment} {S : Session} {d x : Descriptor}

/-! ## Wrappers -/

section

variable (env : Environment) (S : Session)

/-- **What is inferred for a type, beside what publishing it gives.**  They differ in the
annotations of arrays and maps. -/
inductive Inferred : Token → Node → Node → Prop
  | bare {t : Token} {d : Descriptor} {n : Node} (hd : S.Settles (env.describe t) d)
      (hshape : d.shape.isWrapper = false) : Inferred t n n
  | nullable {t : Token} {d : Descriptor} {m n : Node} (hd : S.Settles (env.describe t) d)
      (hshape : d.shape = .nullable) (h : Inferred d.inner m n) :
      Inferred t m.makeNullable n.makeNullable
  | array {t : Token} {d : Descriptor} {c : Constraints} {m n : Node}
      (hd : S.Settles (env.describe t) d) (hshape : d.shape = .array)
      (hmerge : Constraints.merge d.annotations = .ok c) (h : Inferred d.inner m n) :
      Inferred t (.array { uniqueItems := d.uniqueItems } m)
        (c.apply (.array { uniqueItems := d.uniqueItems } n))
  | map {t : Token} {d : Descriptor} {c : Constraints} {m n : Node}
      (hd : S.Settles (env.describe t) d) (hshape : d.shape = .map) (hinner : d.inner ≠ .none)
      (hmerge : Constraints.merge d.annotations = .ok c) (h : Inferred d.inner m n) :
      Inferred t (.object {} [] (some m) none) (c.apply (.object {} [] (some n) none))
  | anyMap {t : Token} {d : Descriptor} {c : Constraints} (hd : S.Settles (env.describe t) d)
      (hshape : d.shape = .map) (hmerge : Constraints.merge d.annotations = .ok c) :
      Inferred t (.object {} [] none (some true)) (c.apply (.object {} [] none (some true)))

/-- Types that wrappers lead to, down to leaves and to types whose names are stored.  Maps among
them say what they map to. -/
structure Inferable (K : List String) (R : Descriptor → Prop) : Prop where
  step : ∀ {x y}, R x → x.shape.isWrapper = true → Points env S x y → R y
  bare : ∀ {x}, R x → x.shape.isWrapper = false →
    S.Settles (env.isInline x) true ∨ Published env S x ∧ x.name ∈ K
  maps : ∀ {x}, R x → x.shape = .map → x.inner ≠ .none

end

theorem mapInner_of_ne (h : d.inner ≠ .none) : mapInner d = d.inner := by
  unfold mapInner
  split
  next hnone =>
    cases hinner : d.inner with
    | none => exact absurd hinner h
    | _ =>
      rw [hinner] at hnone
      cases hnone
  next => rfl

/-- What is inside a wrapper is one of the types that it points at. -/
theorem points_inner (hshape : d.shape.isWrapper = true)
    (hinner : d.shape = .map → d.inner ≠ .none) (hx : S.Settles (env.describe d.inner) x) :
    Points env S d x := by
  refine ⟨d.inner, ?_, hx⟩
  cases h : d.shape with
  | nullable => exact .inner (.inl h)
  | array => exact .inner (.inr h)
  | map =>
    have hpart : PartOf env S d (mapInner d) := .value h
    rwa [mapInner_of_ne (hinner h)] at hpart
  | _ =>
    rw [h] at hshape
    cases hshape

/-- **Arrays and maps without annotations are inferred as they are published.** -/
theorem Inferred.eq_of_unadorned {K : List String} {R : Descriptor → Prop} {t : Token} {m n : Node}
    (h : Inferred env S t m n) (hR : Inferable env S K R)
    (hbare : ∀ {x}, R x → x.shape = .array ∨ x.shape = .map → x.annotations = [])
    (ht : ∀ {x}, S.Settles (env.describe t) x → R x) : m = n := by
  have hplain {d : Descriptor} {c : Constraints} (hd : R d)
      (hshape : d.shape = .array ∨ d.shape = .map)
      (hmerge : Constraints.merge d.annotations = .ok c) : c = {} := by
    rw [hbare hd hshape] at hmerge
    cases hmerge
    rfl
  have hinner {d : Descriptor} (hd : R d) (hshape : d.shape.isWrapper = true)
      (hne : d.shape = .map → d.inner ≠ .none) {x : Descriptor}
      (hx : S.Settles (env.describe d.inner) x) : R x :=
    hR.step hd hshape (points_inner hshape hne hx)
  induction h with
  | bare => rfl
  | nullable hd hshape _ ih =>
    rw [ih fun hx => hinner (ht hd) (by rw [hshape]; rfl) (by rw [hshape]; nofun) hx]
  | @array t d c m n hd hshape hmerge _ ih =>
    rw [ih fun hx => hinner (ht hd) (by rw [hshape]; rfl) (by rw [hshape]; nofun) hx,
      hplain (ht hd) (.inl hshape) hmerge]
    cases d.uniqueItems <;> rfl
  | map hd hshape hne hmerge _ ih =>
    rw [ih fun hx => hinner (ht hd) (by rw [hshape]; rfl) (fun _ => hne) hx,
      hplain (ht hd) (.inr hshape) hmerge]
    rfl
  | anyMap hd hshape hmerge =>
    rw [hplain (ht hd) (.inr hshape) hmerge]
    rfl

/-! ## Side by side -/

namespace Environment

open Build

variable {n : Nat} {w w' w₁ : Walk} {m : Node}

/-- Wrappers are published in place. -/
theorem isInline_of_wrapper (hshape : d.shape.isWrapper = true) :
    env.isInline d w = .ok true w := by
  refine isInline_eq_ok.mpr (.inl ⟨?_, rfl, rfl⟩)
  cases h : d.shape <;> rw [h] at hshape <;> first | rfl | cases hshape

/-- How a type is referred to that is published in place. -/
theorem refer_inline_eq_ok (hinline : env.isInline d w = .ok true w₁)
    (h : env.refer (env.build n) d w = .ok m w') : ∃ k r w₂,
      n = k + 1 ∧ w₁.session.depth < env.maxDepth ∧
        env.buildShape (env.build k) d w₁.deeper = .ok r w₂ ∧ m = r.node ∧ w' = w₂.shallower := by
  obtain ⟨inline, w₁', hasked, h⟩ := bind_eq_ok.mp h
  cases hinline.symm.trans hasked
  rw [if_pos rfl] at h
  obtain ⟨r, w₂, hbuild, h⟩ := bind_eq_ok.mp h
  obtain ⟨rfl, rfl⟩ := pure_eq_ok.mp h
  cases n with
  | zero => cases hbuild
  | succ k =>
    obtain ⟨hdepth, w₃, hshape, rfl⟩ := deepening_eq_ok.mp hbuild
    exact ⟨k, r, w₃, rfl, Nat.not_lt.mp hdepth, hshape, rfl, rfl⟩

/-- A type that has been referred to has been described. -/
theorem exists_settles_of_referTo {t : Token} (h : env.referTo (env.build n) t w = .ok m w')
    (hbelow : w'.session.Below S) : ∃ x, S.Settles (env.describe t) x := by
  obtain ⟨x, w₁, hdescribe, hrefer⟩ := bind_eq_ok.mp h
  have hgrows : w₁.Grows env w' := (keeps_refer (keeps_build n) x).ok hrefer
  exact ⟨x, (reads_describe t).settles_of_below hdescribe (hgrows.below.trans hbelow)⟩

section

variable {builder : Descriptor → Build Built} {r : Built}

theorem buildShape_nullable_eq_ok (hshape : d.shape = .nullable)
    (h : env.buildShape builder d w = .ok r w') :
    ∃ n, env.referTo builder d.inner w = .ok n w' ∧ r.node = n.makeNullable := by
  unfold buildShape at h
  rw [hshape] at h
  obtain ⟨n, w₁, hinner, hend⟩ := bind_eq_ok.mp h
  obtain ⟨rfl, rfl⟩ := pure_eq_ok.mp hend
  exact ⟨n, hinner, rfl⟩

theorem buildShape_array_eq_ok (hshape : d.shape = .array)
    (h : env.buildShape builder d w = .ok r w') :
    ∃ n c, env.referTo builder d.inner w = .ok n w' ∧ Constraints.merge d.annotations = .ok c ∧
      r.node = c.apply (.array { uniqueItems := d.uniqueItems } n) := by
  unfold buildShape at h
  rw [hshape] at h
  obtain ⟨n, w₁, hinner, hrest⟩ := bind_eq_ok.mp h
  obtain ⟨node, w₂, hannotate, hend⟩ := bind_eq_ok.mp hrest
  obtain ⟨c, hmerge, rfl, rfl⟩ := annotate_eq_ok.mp hannotate
  obtain ⟨rfl, rfl⟩ := pure_eq_ok.mp hend
  exact ⟨n, c, hinner, hmerge, rfl⟩

/-- What a map maps to is described before it is referred to. -/
theorem buildShape_map_eq_ok (hshape : d.shape = .map) (hne : d.inner ≠ .none)
    (h : env.buildShape builder d w = .ok r w') :
    ∃ y w₁ c, env.describe d.inner w = .ok y w₁ ∧ Constraints.merge d.annotations = .ok c ∧
      if y.shape = .primitive ∧ y.kind = some .any then
        r.node = c.apply (.object {} [] none (some true))
      else ∃ n, env.referTo builder d.inner w₁ = .ok n w' ∧
        r.node = c.apply (.object {} [] (some n) none) := by
  unfold buildShape mapNode at h
  rw [hshape, mapInner_of_ne hne] at h
  obtain ⟨node, w₁, hnode, hend⟩ := bind_eq_ok.mp h
  obtain ⟨rfl, rfl⟩ := pure_eq_ok.mp hend
  obtain ⟨y, w₂, hy, hrest⟩ := bind_eq_ok.mp hnode
  obtain ⟨mapped, w₃, hmapped, hannotate⟩ := bind_eq_ok.mp hrest
  obtain ⟨c, hmerge, rfl, rfl⟩ := annotate_eq_ok.mp hannotate
  refine ⟨y, w₂, c, hy, hmerge, ?_⟩
  unfold mapTo at hmapped
  split at hmapped
  next hany =>
    obtain ⟨rfl, rfl⟩ := pure_eq_ok.mp hmapped
    exact (if_pos hany).mpr rfl
  next hsome =>
    obtain ⟨n, w₄, hinner, hend⟩ := bind_eq_ok.mp hmapped
    obtain ⟨rfl, rfl⟩ := pure_eq_ok.mp hend
    rw [if_neg hsome]
    refine ⟨n, ?_, rfl⟩
    unfold referTo
    rw [bind_of_ok ((reads_describe d.inner).settles hy w₂ (.refl _))]
    exact hinner

end

/-- How a type is referred to whose name is stored. -/
theorem refer_stored_eq_ok (hinline : env.isInline d w = .ok false w₁)
    (hstored : d.name ∈ w₁.session.registry.names) (h : env.refer (env.build n) d w = .ok m w') :
    m = .refTo d.name := by
  obtain ⟨inline, w₁', hasked, h⟩ := bind_eq_ok.mp h
  cases hinline.symm.trans hasked
  rw [if_neg Bool.false_ne_true] at h
  obtain ⟨found, _, hfound, h⟩ := bind_eq_ok.mp h
  obtain ⟨rfl, rfl⟩ := stored?_eq_ok.mp hfound
  rw [if_pos (Registry.isSome_get?_iff.mpr hstored)] at h
  obtain ⟨_, _, _, h⟩ := bind_eq_ok.mp h
  exact (pure_eq_ok.mp h).1

end Environment

namespace Compiler

variable {c : Compiler} {K : List String} {R : Descriptor → Prop} {s s' v : Session} {t : Token}
  {m n : Node}

/-- A walk of a publication is beside a session that something is inferred in. -/
structure Beside (K : List String) (w : Walk) (v : Session) : Prop where
  abreast : w.Abreast ⟨v, []⟩
  kept : K ⊆ w.session.registry.names
  stored : K ⊆ v.registry.names
  depth : v.depth = 0

/-- What is asked in the walk is asked in the session with the same answer. -/
theorem run_of_beside {α : Type} {x : Build α} (hheeds : x.Heeds)
    (hlearns : Keeps (Walk.Learns c.environment) x) {w w₁ : Walk} {a : α} (h : Beside K w v)
    (hw : x w = .ok a w₁) : ∃ v₁, Session.run x v = .ok a v₁ ∧ Beside K w₁ v₁ := by
  obtain ⟨⟨v₁, visited⟩, hv₁, habreast⟩ := hheeds.exists_ok h.abreast hw
  have hlearns₁ := hlearns.ok hv₁
  have hvisited : visited = [] := hlearns₁.visited
  subst hvisited
  refine ⟨v₁, Session.run_eq_ok.mpr ⟨_, hv₁, rfl⟩, habreast, ?_, ?_, ?_⟩
  · rw [(hlearns.ok hw).session.registry]
    exact h.kept
  · show K ⊆ v₁.registry.names
    rw [hlearns₁.session.registry]
    exact h.stored
  · exact hlearns₁.session.depth.trans h.depth

theorem Beside.deeper {w : Walk} (h : Beside K w v) : Beside K w.deeper v :=
  ⟨⟨h.abreast.readings, h.abreast.visited⟩, h.kept, h.stored, h.depth⟩

/-- A leaf that is built while a type is published is built when the type is inferred. -/
theorem buildRoot_of_beside (hwrapper : d.shape.isWrapper = false) {k : Nat} {w w' : Walk}
    {r : Built} (h : Beside K w v) (hinline : w.session.Settles (c.environment.isInline d) true)
    (hdepth : w.session.depth < c.environment.maxDepth)
    (hbuild : c.environment.buildShape (c.environment.build k) d w.deeper = .ok r w') :
    ∃ v', Session.run (c.environment.buildRoot d) v = .ok r.node v' := by
  have hsettled : w.deeper.session.Settles (c.environment.isInline d) true :=
    hinline.mono (.refl w.session)
  have habreast : w.deeper.Abreast (Walk.deeper ⟨v, []⟩) :=
    ⟨h.abreast.readings, h.abreast.visited⟩
  have hleaf : Tallies Walk.Abreast (fun _ => False)
      (c.environment.buildShape (c.environment.build k) d w.deeper)
      (c.environment.buildShape (c.environment.build c.environment.maxDepth) d
        (Walk.deeper ⟨v, []⟩)) :=
    Environment.tallies_leaf hwrapper hsettled habreast
  rw [hbuild] at hleaf
  obtain ⟨v₁, hv₁, -⟩ := hleaf.exists_ok
  have hzero : ¬ c.environment.maxDepth < v.depth + 1 := by
    rw [h.depth]
    omega
  have hbuilt : c.environment.build c.environment.levels d ⟨v, []⟩ = .ok r v₁.shallower :=
    Environment.deepening_eq_ok.mpr ⟨hzero, v₁, hv₁, rfl⟩
  have hroot : c.environment.buildRoot d ⟨v, []⟩ = .ok r.node v₁.shallower := by
    unfold Environment.buildRoot
    rw [bind_of_ok hbuilt]
    rfl
  exact ⟨_, Session.run_eq_ok.mpr ⟨_, hroot, rfl⟩⟩

/-- What wraps nothing is inferred as it is published. -/
theorem inferBare_of_beside (hR : Inferable c.environment S K R) (hd : R d)
    (hwrapper : d.shape.isWrapper = false) {n : Nat} {w w' : Walk} (h : Beside K w v)
    (hrefer : c.environment.refer (c.environment.build n) d w = .ok m w')
    (hbelow : w'.session.Below S) : ∃ v', c.inferBare false d v = .ok m v' := by
  obtain ⟨inline, w₁, hinline, -⟩ := bind_eq_ok.mp hrefer
  obtain ⟨v₁, hv₁, h₁⟩ := run_of_beside (Environment.heeds_isInline d)
    (Environment.reads_isInline d).learns h hinline
  unfold inferBare
  rw [bind_of_ok hv₁]
  cases inline with
  | true =>
    obtain ⟨k, r, w₂, -, hdepth, hbuild, rfl, rfl⟩ :=
      Environment.refer_inline_eq_ok hinline hrefer
    exact buildRoot_of_beside hwrapper h₁ ((Environment.reads_isInline d).settles hinline) hdepth
      hbuild
  | false =>
    have hgrows : w₁.Grows c.environment w' := by
      rw [← after_of_ok hrefer]
      exact Environment.grows_after_isInline (Environment.keeps_build n) hinline
    have hbelow₁ : w₁.session.Below S := hgrows.below.trans hbelow
    rcases hR.bare hd hwrapper with hyes | ⟨-, hname⟩
    · cases ((Environment.reads_isInline d).settles_of_below hinline hbelow₁).unique hyes
    · obtain rfl := Environment.refer_stored_eq_ok hinline (h₁.kept hname) hrefer
      have hcontains : v₁.registry.contains d.name = true :=
        Registry.contains_iff.mpr (h₁.stored hname)
      obtain ⟨stored, hget⟩ := Option.isSome_iff_exists.mp
        (Registry.isSome_get?_iff.mpr (h₁.stored hname))
      refine ⟨v₁, ?_⟩
      show (if v₁.registry.contains d.name then reference d.name false none else _) v₁ = _
      rw [if_pos hcontains]
      exact reference_eq_ok.mpr ⟨stored, hget, rfl, rfl⟩

section

variable {v₁ v₂ : Session} {inlined : Bool} {k : Nat}

theorem inferWithin_nullable (hd : c.describe t v = .ok d v₁) (hshape : d.shape = .nullable) :
    c.inferWithin inlined (k + 1) t v =
      (do return (← c.inferWithin inlined k d.inner).makeNullable) v₁ := by
  rw [inferWithin, bind_of_ok hd, hshape]

theorem inferWithin_array (hd : c.describe t v = .ok d v₁) (hshape : d.shape = .array) :
    c.inferWithin inlined (k + 1) t v = (do
      return Node.array { uniqueItems := d.uniqueItems }
        (← c.inferWithin inlined k d.inner)) v₁ := by
  rw [inferWithin, bind_of_ok hd, hshape]

theorem inferWithin_map {y : Descriptor} (hd : c.describe t v = .ok d v₁) (hshape : d.shape = .map)
    (hy : c.describe d.inner v₁ = .ok y v₂) : c.inferWithin inlined (k + 1) t v =
      (if y.shape = Shape.primitive ∧ y.kind = some Kind.any then
        pure (Node.object {} [] none (some true))
      else do return Node.object {} [] (some (← c.inferWithin inlined k d.inner)) none) v₂ := by
  rw [inferWithin, bind_of_ok hd, hshape]
  exact bind_of_ok hy

theorem inferWithin_bare (hd : c.describe t v = .ok d v₁) (hshape : d.shape.isWrapper = false) :
    c.inferWithin inlined (k + 1) t v = c.inferBare inlined d v₁ := by
  rw [inferWithin, bind_of_ok hd]
  cases h : d.shape <;> rw [h] at hshape <;> first | rfl | cases hshape

end

/-- What is inferred, or that there are too many wrappers for it. -/
def Infers (c : Compiler) (S : Session) (k depth : Nat) (t : Token) (v : Session) (n : Node) :
    Prop :=
  (∃ m v', c.inferWithin false k t v = .ok m v' ∧ Inferred c.environment S t m n) ∨
    k + depth ≤ c.environment.maxDepth ∧
      ∃ v', c.inferWithin false k t v = .error .endlessNesting v'

/-- A wrapper is inferred once what is inside it is. -/
theorem Infers.wrap {k depth : Nat} {u : Token} {v₁ : Session} {n' : Node} {f : Node → Node}
    (h : c.Infers S k (depth + 1) u v₁ n)
    (heq : c.inferWithin false (k + 1) t v = (do return f (← c.inferWithin false k u)) v₁)
    (hf : ∀ {m}, Inferred c.environment S u m n → Inferred c.environment S t (f m) n') :
    c.Infers S (k + 1) depth t v n' := by
  rcases h with ⟨m, v', hm, hinferred⟩ | ⟨hdepth, v', hfails⟩
  · refine .inl ⟨f m, v', ?_, hf hinferred⟩
    rw [heq, bind_of_ok hm]
    rfl
  · refine .inr ⟨by omega, v', ?_⟩
    rw [heq]
    exact bind_eq_error.mpr (.inl hfails)

/-- **A wrapper is inferred beside its publication**, if what is inside it is. -/
theorem infers_of_wrapper (hR : Inferable c.environment S K R) {k depth : Nat} {v₁ : Session}
    {builder : Descriptor → Build Built} {w w' : Walk} {r : Built}
    (hd : S.Settles (c.environment.describe t) d)
    (hRd : R d) (hshape : d.shape.isWrapper = true) (hv₁ : c.describe t v = .ok d v₁)
    (h : Beside K w v₁) (hbuild : c.environment.buildShape builder d w = .ok r w')
    (hinner : ∀ {w₁ v₁ n}, Beside K w₁ v₁ → w₁.session.depth = w.session.depth →
      (d.shape = .map → d.inner ≠ .none) → c.environment.referTo builder d.inner w₁ = .ok n w' →
        c.Infers S k (depth + 1) d.inner v₁ n) : c.Infers S (k + 1) depth t v r.node := by
  cases h₁shape : d.shape with
  | nullable =>
    obtain ⟨n, hn, heq⟩ := Environment.buildShape_nullable_eq_ok h₁shape hbuild
    rw [heq]
    exact (hinner h rfl (by rw [h₁shape]; nofun) hn).wrap
      (inferWithin_nullable hv₁ h₁shape) fun hm => .nullable hd h₁shape hm
  | array =>
    obtain ⟨n, con, hn, hmerge, heq⟩ := Environment.buildShape_array_eq_ok h₁shape hbuild
    rw [heq]
    exact (hinner h rfl (by rw [h₁shape]; nofun) hn).wrap
      (inferWithin_array hv₁ h₁shape) fun hm => .array hd h₁shape hmerge hm
  | map =>
    have hne := hR.maps hRd h₁shape
    obtain ⟨y, w₁, con, hy, hmerge, hnode⟩ :=
      Environment.buildShape_map_eq_ok h₁shape hne hbuild
    obtain ⟨v₂, hv₂, h₂⟩ := run_of_beside (Environment.heeds_describe _)
      (Environment.reads_describe _).learns h hy
    have hinfer : c.inferWithin false (k + 1) t v = _ := inferWithin_map hv₁ h₁shape hv₂
    split at hnode
    next hany =>
      rw [if_pos hany] at hinfer
      rw [hnode]
      exact .inl ⟨_, v₂, hinfer, .anyMap hd h₁shape hmerge⟩
    next hsome =>
      rw [if_neg hsome] at hinfer
      obtain ⟨n, hn, heq⟩ := hnode
      have hsame := ((Environment.reads_describe _).learns.ok hy).session.depth
      rw [heq]
      exact (hinner h₂ hsame (fun _ => hne) hn).wrap hinfer fun hm =>
        .map hd h₁shape hne hmerge hm
  | _ =>
    rw [h₁shape] at hshape
    cases hshape

/-- **A type is inferred beside its publication**, wrapper by wrapper. -/
theorem infers_of_beside (hR : Inferable c.environment S K R) {k n : Nat} {w w' : Walk}
    (hd : S.Settles (c.environment.describe t) d) (hRd : R d) (h : Beside K w v)
    (hrefers : c.environment.referTo (c.environment.build n) t w = .ok m w')
    (hbelow : w'.session.Below S) (hdepth : w.session.depth ≤ c.environment.maxDepth) :
    c.Infers S k w.session.depth t v m := by
  induction k generalizing t d n w w' v m with
  | zero => exact .inr ⟨by omega, v, rfl⟩
  | succ k ih =>
    obtain ⟨d₁, w₁, hdescribe, hrefer⟩ := bind_eq_ok.mp hrefers
    have hgrows : w₁.Grows c.environment w' :=
      (Environment.keeps_refer (Environment.keeps_build n) d₁).ok hrefer
    obtain rfl := ((Environment.reads_describe t).settles_of_below hdescribe
      (hgrows.below.trans hbelow)).unique hd
    have hlearns := (Environment.reads_describe t).learns.ok hdescribe
    obtain ⟨v₁, hv₁, h₁⟩ := run_of_beside (Environment.heeds_describe t)
      (Environment.reads_describe t).learns h hdescribe
    by_cases hshape : d₁.shape.isWrapper = true
    · -- a wrapper is published in place, and what is inside it is referred to one level deeper
      obtain ⟨k', r, w₂, -, hlt, hbuild, rfl, rfl⟩ :=
        Environment.refer_inline_eq_ok (Environment.isInline_of_wrapper hshape) hrefer
      have hlevel : w₁.deeper.session.depth = w.session.depth + 1 :=
        congrArg (· + 1) hlearns.session.depth
      have hlt' : w₁.deeper.session.depth ≤ c.environment.maxDepth := hlt
      refine infers_of_wrapper hR hd hRd hshape hv₁ h₁.deeper hbuild fun h₃ hsame hne hn => ?_
      obtain ⟨x, hx⟩ := Environment.exists_settles_of_referTo hn hbelow
      rw [← hlevel, ← hsame]
      exact ih hx (hR.step hRd hshape (points_inner hshape hne hx)) h₃ hn hbelow (hsame ▸ hlt')
    · rw [Bool.not_eq_true] at hshape
      obtain ⟨v', hv'⟩ := inferBare_of_beside hR hRd hshape h₁ hrefer hbelow
      exact .inl ⟨m, v', (inferWithin_bare hv₁ hshape).trans hv', .bare hd hshape⟩

/-- Inferring a type that has just been described asks for nothing new. -/
theorem infer_of_describe {inlined : Bool} {s₁ : Session} (hd : c.describe t s = .ok d s₁) :
    c.infer t inlined s = c.infer t inlined s₁ := by
  have hagain : c.describe t s₁ = .ok d s₁ := by
    obtain ⟨u, hu, rfl⟩ := Session.run_eq_ok.mp hd
    exact Session.run_eq_ok.mpr ⟨_, (Environment.reads_describe t).settles hu ⟨u.session, []⟩
      (.refl _), rfl⟩
  show c.inferWithin inlined (959 + 1) t s = c.inferWithin inlined (959 + 1) t s₁
  rw [inferWithin, bind_of_ok hd, bind_of_ok hagain]

/-! ## What is left as it was -/

/-- **Inferring a schema publishes nothing**, whatever the session and the type are, and however it
ends.  The registry is as it was, with its names in their order and what is stored under them, and
so are the claims on names and the depth.  What had been learned is still known: readings and
instances are only added. -/
theorem infer_publishes_nothing (c : Compiler) (t : Token) (inlined : Bool) (s : Session) :
    (after (c.infer t inlined) s).registry = s.registry ∧
      (after (c.infer t inlined) s).claims = s.claims ∧
      (after (c.infer t inlined) s).depth = s.depth ∧
      s.readings <+: (after (c.infer t inlined) s).readings ∧
      s.instances <+: (after (c.infer t inlined) s).instances := by
  have hlearns := learns_inferWithin c inlined nestingLimit t s
  exact ⟨hlearns.registry, hlearns.claims, hlearns.depth, hlearns.below, hlearns.instances⟩

/-! ## Names that are stored -/

/-- A type whose name is stored is referred to if the name can be claimed for it. -/
theorem refer_of_stored {builder : Descriptor → Build Built} {w w₁ : Walk}
    (hinline : env.isInline d w = .ok false w₁) (hstored : d.name ∈ w₁.session.registry.names) :
    env.refer builder d w = (do env.claim d.name d; return .refTo d.name : Build Node) w₁ := by
  unfold Environment.refer
  rw [bind_of_ok hinline, if_neg Bool.false_ne_true,
    bind_of_ok (Build.stored?_eq_ok.mpr ⟨rfl, rfl⟩), if_pos (Registry.isSome_get?_iff.mpr hstored)]

/-- **A type whose name is stored.**  Inferring refers to the name, whosever it is.  Publishing
refers to it if it is the name of the type, and refuses the type otherwise. -/
theorem infer_of_stored (htidy : s.Tidy c.environment) {s₁ s₂ : Session}
    (hd : c.describe t s = .ok d s₁)
    (hinline : Session.run (c.environment.isInline d) s₁ = .ok false s₂)
    (hstored : d.name ∈ s.registry.names) :
    c.infer t false s = .ok (.refTo d.name) s₂ ∧
      (s.scene.Owns d → ∃ s', c.ensure t s = .ok (.refTo d.name) s') ∧
      (¬ s.scene.Owns d → ∃ first second s',
        c.ensure t s = .error (.duplicateName d.name first second) s') := by
  have hlearns := (learns_describe c t).ok hd
  obtain ⟨w₂, hw₂, rfl⟩ := Session.run_eq_ok.mp hinline
  have hlearns₂ := ((Environment.reads_isInline d).learns.ok hw₂).session
  have hstored₂ : d.name ∈ w₂.session.registry.names := by
    rw [hlearns₂.registry]
    show d.name ∈ s₁.registry.names
    rw [hlearns.registry]
    exact hstored
  constructor
  · have hbare : d.shape.isWrapper = false := by
      rcases Environment.isInline_eq_ok.mp hw₂ with ⟨_, ⟨⟩, _⟩ | ⟨hshape, -⟩
      cases h : d.shape <;> rw [h] at hshape <;> first | rfl | cases hshape
    refine (inferWithin_bare hd hbare).trans ?_
    obtain ⟨stored, hget⟩ := Option.isSome_iff_exists.mp (Registry.isSome_get?_iff.mpr hstored₂)
    unfold inferBare
    rw [bind_of_ok hinline, if_neg Bool.false_ne_true]
    show (if w₂.session.registry.contains d.name then reference d.name false none else _)
      w₂.session = _
    rw [if_pos (Registry.contains_iff.mpr hstored₂)]
    exact reference_eq_ok.mpr ⟨stored, hget, rfl, rfl⟩
  · -- the group of writes that is opened makes no difference to the question
    have hopened : Walk.Abreast ⟨s₁, []⟩ ⟨Registry.within Registry.open_ s₁, []⟩ := ⟨rfl, rfl⟩
    obtain ⟨v, hv, -⟩ := (Environment.heeds_isInline d).exists_ok hopened hw₂
    have hlearnsv := ((Environment.reads_isInline d).learns.ok hv).session
    have hstoredv : d.name ∈ v.session.registry.names := by
      rw [hlearnsv.registry]
      show d.name ∈ s₁.registry.names
      rw [hlearns.registry]
      exact hstored
    have hclaims : v.session.claims = s.claims := hlearnsv.claims.trans hlearns.claims
    have hrefer : c.environment.referRoot d ⟨Registry.within Registry.open_ s₁, []⟩ = _ :=
      refer_of_stored hv hstoredv
    obtain ⟨owner, howner⟩ : ∃ owner, getKey? d.name s.claims = some owner := by
      refine Option.ne_none_iff_exists'.mp fun hnone => ?_
      exact getKey?_eq_none_iff.mp hnone ((htidy.claimed _).mpr hstored)
    refine ⟨fun ⟨k, hk, hsame⟩ => ?_, fun hnot => ?_⟩
    · have hclaim : c.environment.claim d.name d v = .ok () v :=
        Environment.claim_eq_ok.mpr (.inl ⟨k, hclaims ▸ hk, hsame, rfl⟩)
      rw [bind_of_ok hclaim] at hrefer
      exact ⟨_, ensure_eq_ok.mpr ⟨d, s₁, v, hd, hrefer, rfl⟩⟩
    · have hclaim : c.environment.claim d.name d v = .error _ v :=
        Environment.claim_of_other (hclaims.symm ▸ howner) fun hsame => hnot ⟨owner, howner, hsame⟩
      exact ⟨_, _, _, ensure_of_error hd (hrefer.trans (bind_eq_error.mpr (.inl hclaim)))⟩

/-- **Inferring a type and publishing it.**  After any number of calls:

Let a call publish a type and store nothing new, and let all that the type wraps be published in
place or by name and every map say what it maps to.  Then the type can be inferred in the same
state, unless there are more wrappers than are followed; what is inferred is what is published less
the annotations of arrays and maps, and it is the same where there are none.

Let a type not be published in place, and let its name be stored.  Then inferring it refers to the
name.  Publishing it does so as well if the name is claimed for the type, and fails otherwise. -/
theorem run_infer_agrees (c : Compiler) (hkeys : c.environment.KeysDistinct) (calls : List Call) :
    (∀ {t n s'}, c.ensure t (c.run calls) = .ok n s' →
      s'.registry.names = (c.run calls).registry.names →
      ∃ d, s'.Settles (c.environment.describe t) d ∧
        ((∀ x, Unfolds c.environment s' d x → x.shape.isWrapper = false →
            s'.Settles (c.environment.isInline x) true ∨ Published c.environment s' x) →
          (∀ x, Unfolds c.environment s' d x → x.shape = .map → x.inner ≠ .none) →
          (∃ m s₂, c.infer t false (c.run calls) = .ok m s₂ ∧ Inferred c.environment s' t m n ∧
            ((∀ x, Unfolds c.environment s' d x → x.shape = .array ∨ x.shape = .map →
              x.annotations = []) → m = n)) ∨
          nestingLimit ≤ c.environment.maxDepth ∧
            ∃ s₂, c.infer t false (c.run calls) = .error .endlessNesting s₂)) ∧
    ∀ {t d s₁ s₂}, c.describe t (c.run calls) = .ok d s₁ →
      Session.run (c.environment.isInline d) s₁ = .ok false s₂ →
      d.name ∈ (c.run calls).registry.names →
      c.infer t false (c.run calls) = .ok (.refTo d.name) s₂ ∧
        ((c.run calls).scene.Owns d →
          ∃ s', c.ensure t (c.run calls) = .ok (.refTo d.name) s') ∧
        (¬ (c.run calls).scene.Owns d → ∃ first second s',
          c.ensure t (c.run calls) = .error (.duplicateName d.name first second) s') := by
  have htidy := tidy_run c calls
  refine ⟨fun {t n s'} h hnew => ?_, infer_of_stored htidy⟩
  have htidy' := (grows_of_ensure htidy h).2
  obtain ⟨d, s₁, w, hdescribe, hrefer, hend⟩ := ensure_eq_ok.mp h
  have hlearns := (learns_describe c t).ok hdescribe
  have hbelow : w.session.Below s' := by
    rw [hend]
    exact .refl _
  have hsettled : s₁.Settles (c.environment.describe t) d := by
    obtain ⟨u, hu, rfl⟩ := Session.run_eq_ok.mp hdescribe
    exact (Environment.reads_describe t).settles hu
  have hd : s'.Settles (c.environment.describe t) d :=
    hsettled.mono (((Environment.keeps_referRoot d).ok hrefer).below.trans hbelow)
  refine ⟨d, hd, fun hbare hmaps => ?_⟩
  -- all that is published by name was stored before the call
  obtain ⟨E, hE, hreached⟩ := charted_of_ensure hkeys h htidy'.wellRead (.refl s') hd
  have hR : Inferable c.environment s' (c.run calls).registry.names
      (Unfolds c.environment s' d) := by
    refine ⟨fun hx hwrapper hpoints => hx.tail ⟨fun hpub => ?_, hpoints⟩, fun hx hwrapper => ?_,
      hmaps _⟩
    · refine not_published_of_inline (fun w _ => ?_) hpub
      exact Environment.isInline_of_wrapper hwrapper
    · refine (hbare _ hx hwrapper).imp_right fun hpub => ⟨hpub, ?_⟩
      rw [← hnew]
      exact hE.stored (hreached hx.reaches) (Descriptor.apart_nil _) hpub
  have hrefers : c.environment.referTo (c.environment.build c.environment.levels) t
      ⟨Registry.within Registry.open_ s₁, []⟩ = .ok n w := by
    unfold Environment.referTo
    rw [bind_of_ok (hsettled _ (.refl _))]
    exact hrefer
  have hbeside :
      Beside (c.run calls).registry.names ⟨Registry.within Registry.open_ s₁, []⟩ s₁ := by
    refine ⟨⟨rfl, rfl⟩, ?_, ?_, hlearns.depth.trans htidy.depth⟩
    · show _ ⊆ s₁.registry.names
      rw [hlearns.registry]
      exact List.Subset.refl _
    · rw [hlearns.registry]
      exact List.Subset.refl _
  have hzero : (Registry.within Registry.open_ s₁).depth = 0 := hbeside.depth
  have hagain : c.infer t false (c.run calls) = c.infer t false s₁ := infer_of_describe hdescribe
  rcases infers_of_beside (k := nestingLimit) hR hd .refl hbeside hrefers hbelow
      (hzero ▸ Nat.zero_le _) with ⟨m, v, hm, hinferred⟩ | ⟨hlimit, v, hfails⟩
  · refine .inl ⟨m, v, hagain.trans hm, hinferred, fun hplain => ?_⟩
    exact hinferred.eq_of_unadorned hR (hplain _) fun hx => hx.unique hd ▸ .refl
  · refine .inr ⟨?_, v, hagain.trans hfails⟩
    have hlimit' : nestingLimit + s₁.depth ≤ c.environment.maxDepth := hlimit
    rwa [hbeside.depth] at hlimit'

/-- A compiler that knows of animals and of lists of them, of a list of tags with a description, of
a map that does not say what it maps to, and of another type that goes by the name of animals. -/
def shelter : Compiler where
  environment :=
    { program :=
        { crafted :=
            [{ name := "Animal", shape := .object },
             { name := "Animals", shape := .array, inner := .crafted 0 },
             { name := "Tags"
               shape := .array
               inner := .crafted 3
               annotations := [⟨"Description", [.text "what it answers to"], []⟩] },
             { name := "Tag", shape := .primitive, kind := some .text },
             { name := "Notes", shape := .map },
             { name := "Animal", shape := .object }] }
      kinds := [(.builtin .anything, .any), (.builtin .nothing, .null)]
      maxDepth := 8
      captureDefaults := false }
  refPrefix := .ok "#/components/schemas/"
  release := "3.1.0"

theorem shelter_keysDistinct : shelter.environment.KeysDistinct := by
  refine Environment.keysDistinct_of_unsourced fun d hd => ?_
  fin_cases hd <;> rfl

/-- Once an animal has been published, a list of animals is inferred as it is published. -/
theorem shelter_infer_agrees : ∃ n s' s₂,
    shelter.ensure (.crafted 1) (shelter.run [.ensure (.crafted 0)]) = .ok n s' ∧
      n = .array {} (.refTo "Animal") ∧
      shelter.infer (.crafted 1) false (shelter.run [.ensure (.crafted 0)]) = .ok n s₂ := by
  obtain ⟨n, s', h, hnew, hn⟩ : ∃ n s',
      shelter.ensure (.crafted 1) (shelter.run [.ensure (.crafted 0)]) = .ok n s' ∧
        s'.registry.names = (shelter.run [.ensure (.crafted 0)]).registry.names ∧
          n = .array {} (.refTo "Animal") := ⟨_, _, rfl, rfl, rfl⟩
  obtain ⟨d, hd, hinfer⟩ :=
    (run_infer_agrees shelter shelter_keysDistinct [.ensure (.crafted 0)]).1 h hnew
  obtain rfl : d = shelter.environment.handmade 1 := (pure_eq_ok.mp (hd ⟨s', []⟩ (.refl s'))).1
  have hanimal : Published shelter.environment s' (shelter.environment.handmade 0) :=
    published_of_root rfl rfl
  -- a list of animals unfolds to an animal, which is published by name
  have hunfolds {x : Descriptor}
      (hx : Unfolds shelter.environment s' (shelter.environment.handmade 1) x) :
      x = shelter.environment.handmade 1 ∨ x = shelter.environment.handmade 0 := by
    induction hx with
    | refl => exact .inl rfl
    | tail _ hstep ih =>
      obtain ⟨hnot, t, ht, hy⟩ := hstep
      rcases ih with rfl | rfl
      · rcases partOf_inline rfl ht with ⟨-, rfl⟩ | ⟨hshape, -⟩
        · exact .inr (pure_eq_ok.mp (hy ⟨s', []⟩ (.refl s'))).1
        · cases hshape
      · exact absurd hanimal hnot
  have hlast (x) (hx : Unfolds shelter.environment s' (shelter.environment.handmade 1) x)
      (hbare : x.shape.isWrapper = false) : Published shelter.environment s' x := by
    rcases hunfolds hx with rfl | rfl
    · cases hbare
    · exact hanimal
  have hmaps (x) (hx : Unfolds shelter.environment s' (shelter.environment.handmade 1) x)
      (hshape : x.shape = .map) : x.inner ≠ .none := by
    rcases hunfolds hx with rfl | rfl <;> cases hshape
  rcases hinfer (fun x hx hbare => .inr (hlast x hx hbare)) hmaps with
    ⟨m, s₂, hm, -, hsame⟩ | ⟨hlimit, -⟩
  · obtain rfl := hsame fun x hx hshape => by
      rcases hunfolds hx with rfl | rfl <;> rfl
    exact ⟨m, s', s₂, h, hn, hm⟩
  · exact absurd hlimit (by decide)

/-- **What is inferred is not always what is published.**  A list loses its description, and a map
to anything becomes a map to null; and where an animal has been published, another type of that name
is refused but inferred to be one. -/
theorem shelter_infer_ne : shelter.environment.KeysDistinct ∧
    (∃ n m s' s₂, shelter.ensure (.crafted 2) (shelter.run []) = .ok n s' ∧
      s'.registry.names = (shelter.run []).registry.names ∧
      shelter.infer (.crafted 2) false (shelter.run []) = .ok m s₂ ∧
      shelter.render m ≠ shelter.render n) ∧
    (∃ n m s' s₂, shelter.ensure (.crafted 4) (shelter.run []) = .ok n s' ∧
      s'.registry.names = (shelter.run []).registry.names ∧
      shelter.infer (.crafted 4) false (shelter.run []) = .ok m s₂ ∧
      shelter.render m ≠ shelter.render n) ∧
    ∃ first second s' s₂,
      shelter.ensure (.crafted 5) (shelter.run [.ensure (.crafted 0)]) =
        .error (.duplicateName "Animal" first second) s' ∧
      shelter.infer (.crafted 5) false (shelter.run [.ensure (.crafted 0)]) =
        .ok (.refTo "Animal") s₂ := by
  refine ⟨shelter_keysDistinct, ⟨_, _, _, _, rfl, rfl, rfl, ?_⟩, ⟨_, _, _, _, rfl, rfl, rfl, ?_⟩,
    _, _, _, _, rfl, rfl⟩
  · intro h
    cases h
  · intro h
    cases h

end Compiler

end Schemata
