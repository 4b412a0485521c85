import Schemata.Fault.Report
import Schemata.Proofs.Compiler.Depth
import Schemata.Proofs.Compiler.Inference
import Schemata.Proofs.Descriptor.FieldType
import Schemata.Proofs.Synthesis.Leaves

/-!
# How deep inferring follows wrappers

Publishing a type counts the types that are built inside one another, and refuses one that is deeper
than the limit.  Inferring a schema follows wrappers on its own and counts nothing.  What ends it is
that the wrappers end.

`Unwraps` is one step of this: a type is described as a wrapper, and what is inside it comes next.
`Nests n` says that there are `n` wrappers inside one another.  How inferring ends is told by this
alone (`run_infer_nests`): it is cut off if and only if there are as many wrappers as are ever
followed, and otherwise it goes exactly as deep as the wrappers do, whatever the limit is.

## Where it fails

A wrapper that leads to itself is followed until the host's own stack is exhausted, and the fault of
that has no report; publishing the same type is refused with one (`knot_infer_endless`).  Wrappers
that end, but beyond the limit, are inferred although they are refused.  In a graph made by hand
where wrappers do not lead back to where they started there are never more of them inside one
another than there are descriptors.
-/

namespace Schemata

/-- A fault that is met at a leaf has a report, unless it is one of types or annotations that cannot
be put together. -/
theorem Fault.report_of_leaf {e : Fault} (h : e.isDepth = true ∨ e.OfQuestion) :
    e.report?.isSome = true ∨ e.OfType ∨ e.OfAnnotation := by
  rcases h with hdepth | (htype | ⟨type, name, rfl⟩) | hannotation
  · cases e with
    | tooDeep subject limit => exact .inl rfl
    | _ => cases hdepth
  · exact .inr (.inl htype)
  · exact .inl rfl
  · exact .inr (.inr hannotation)

namespace Compiler

variable {c : Compiler} {s s' s₁ : Session} {t u : Token} {d : Descriptor} {inlined : Bool}

/-! ## Unwrapping -/

/-- **A type is unwrapped**: it is described as a wrapper, and what is inside it comes next, in the
session that knows so much.  A map to anything is not unwrapped. -/
inductive Unwraps (c : Compiler) (t : Token) (s : Session) : Token → Session → Prop
  | inner {d : Descriptor} {s₁ : Session} (hd : c.describe t s = .ok d s₁)
      (hshape : d.shape = .nullable ∨ d.shape = .array) : Unwraps c t s d.inner s₁
  | value {d x : Descriptor} {s₁ s₂ : Session} (hd : c.describe t s = .ok d s₁)
      (hshape : d.shape = .map) (hx : c.describe d.inner s₁ = .ok x s₂)
      (hsome : ¬ (x.shape = .primitive ∧ x.kind = some .any)) : Unwraps c t s d.inner s₂

/-- **That many wrappers are inside one another.** -/
inductive Nests (c : Compiler) : Nat → Token → Session → Prop
  | zero {t : Token} {s : Session} : Nests c 0 t s
  | succ {n : Nat} {t u : Token} {s s₁ : Session} (h : c.Unwraps t s u s₁) (hn : Nests c n u s₁) :
      Nests c (n + 1) t s

theorem Nests.unwraps {n : Nat} (h : c.Nests (n + 1) t s) :
    ∃ u s₁, c.Unwraps t s u s₁ ∧ c.Nests n u s₁ := by
  cases h with
  | succ hu hn => exact ⟨_, _, hu, hn⟩

/-- What is unwrapped is described as a wrapper. -/
theorem Unwraps.describe (h : c.Unwraps t s u s₁) : ∃ d s₂, c.describe t s = .ok d s₂ ∧
    d.shape.isWrapper = true ∧ u = d.inner := by
  cases h with
  | inner hd hshape =>
    refine ⟨_, _, hd, ?_, rfl⟩
    rcases hshape with hshape | hshape <;> rw [hshape] <;> rfl
  | value hd hshape _ _ => exact ⟨_, _, hd, by rw [hshape]; rfl, rfl⟩

/-- A type is unwrapped in one way only. -/
theorem Unwraps.unique {u' : Token} {s₁' : Session} (h : c.Unwraps t s u s₁)
    (h' : c.Unwraps t s u' s₁') : u = u' ∧ s₁ = s₁' := by
  cases h with
  | inner hd hshape =>
    cases h' with
    | inner hd' _ =>
      cases hd.symm.trans hd'
      exact ⟨rfl, rfl⟩
    | value hd' hshape' _ _ =>
      cases hd.symm.trans hd'
      rw [hshape'] at hshape
      rcases hshape with hshape | hshape <;> cases hshape
  | value hd hshape hx _ =>
    cases h' with
    | inner hd' hshape' =>
      cases hd.symm.trans hd'
      rw [hshape] at hshape'
      rcases hshape' with hshape' | hshape' <;> cases hshape'
    | value hd' _ hx' _ =>
      cases hd.symm.trans hd'
      cases hx.symm.trans hx'
      exact ⟨rfl, rfl⟩

/-- Wrappers that lead to wrappers of a sort again are inside one another without end. -/
theorem nests_of_closed {P : Token → Session → Prop}
    (hP : ∀ {t s}, P t s → ∃ u s₁, c.Unwraps t s u s₁ ∧ P u s₁) (h : P t s) (n : Nat) :
    c.Nests n t s := by
  induction n generalizing t s with
  | zero => exact .zero
  | succ n ih =>
    obtain ⟨u, s₁, hunwraps, hu⟩ := hP h
    exact .succ hunwraps (ih hu)

/-! ## Inferring -/

/-- A type that is unwrapped is inferred once what is inside it is. -/
theorem exists_wrap_of_unwraps (inlined : Bool) (h : c.Unwraps t s u s₁) : ∃ f : Node → Node,
    ∀ k, c.inferWithin inlined (k + 1) t s = (do return f (← c.inferWithin inlined k u)) s₁ := by
  cases h with
  | inner hd hshape =>
    rcases hshape with hshape | hshape
    · exact ⟨_, fun k => inferWithin_nullable hd hshape⟩
    · exact ⟨_, fun k => inferWithin_array hd hshape⟩
  | value hd hshape hx hsome =>
    refine ⟨fun n => .object {} [] (some n) none, fun k => ?_⟩
    rw [inferWithin_map hd hshape hx, if_neg hsome]

/-- What wraps nothing fails to be inferred for no other reason than a leaf. -/
theorem raises_inferBare (hwrapper : d.shape.isWrapper = false) :
    Raises (fun e => e.isDepth = true ∨ e.OfQuestion) (c.inferBare inlined d) s := by
  have hquestion : Raises Fault.OfQuestion (Session.run (c.environment.isInline d)) s :=
    (Environment.raises_isInline d ⟨s, []⟩).run
  refine (hquestion.mono fun _ => .inr).bind fun inline s₁ hinline => ?_
  split
  next hyes =>
    subst hyes
    obtain ⟨w, hw, rfl⟩ := Session.run_eq_ok.mp hinline
    have hsettled := (Environment.reads_isInline d).settles hw
    have hroot : Raises _ (c.environment.buildRoot d) ⟨w.session, []⟩ :=
      Environment.raises_buildRoot hwrapper hsettled
    exact hroot.run
  next =>
    refine Raises.bind nofun fun r s₂ hr => ?_
    obtain ⟨rfl, rfl⟩ : r = s₁ ∧ s₂ = s₁ := by
      cases hr
      exact ⟨rfl, rfl⟩
    split
    next hcontains =>
      obtain ⟨stored, hget⟩ := Option.isSome_iff_exists.mp
        (Registry.isSome_get?_iff.mpr (Registry.contains_iff.mp hcontains))
      have hok : reference d.name inlined none s₂ = .ok _ s₂ :=
        reference_eq_ok.mpr ⟨stored, hget, rfl, rfl⟩
      intro e s' he
      cases hok.symm.trans he
    next => exact .ite (.pure _) (Raises.bind nofun fun _ _ _ => .pure _)

/-- **A type that is not unwrapped** is inferred in one step, or the reason why it is not is a
question about types. -/
theorem inferWithin_of_not_unwraps (inlined : Bool) (h : ∀ u s₁, ¬ c.Unwraps t s u s₁) :
    (∀ k, c.inferWithin inlined (k + 1) t s = c.inferWithin inlined 1 t s) ∧
      Raises (fun e => e.isDepth = true ∨ e.OfQuestion) (c.inferWithin inlined 1 t) s := by
  have hquestion (t : Token) (s : Session) : Raises (fun e => e.isDepth = true ∨ e.OfQuestion)
      (c.describe t) s := (Environment.raises_describe t ⟨s, []⟩).run.mono fun _ => .inr
  cases hd : c.describe t s with
  | error e s' =>
    have hfails (k : Nat) : c.inferWithin inlined (k + 1) t s = .error e s' :=
      bind_eq_error.mpr (.inl hd)
    refine ⟨fun k => (hfails k).trans (hfails 0).symm, fun e' s'' he => ?_⟩
    cases (hfails 0).symm.trans he
    exact hquestion t s _ _ hd
  | ok d s₁ =>
    cases hshape : d.shape with
    | nullable => exact absurd (.inner hd (.inl hshape)) (h _ _)
    | array => exact absurd (.inner hd (.inr hshape)) (h _ _)
    | map =>
      cases hx : c.describe d.inner s₁ with
      | error e s' =>
        have hfails (k : Nat) : c.inferWithin inlined (k + 1) t s = .error e s' := by
          rw [inferWithin, bind_of_ok hd, hshape]
          exact bind_eq_error.mpr (.inl hx)
        refine ⟨fun k => (hfails k).trans (hfails 0).symm, fun e' s'' he => ?_⟩
        cases (hfails 0).symm.trans he
        exact hquestion _ _ _ _ hx
      | ok x s₂ =>
        have hany : x.shape = .primitive ∧ x.kind = some .any := by
          by_contra hsome
          exact h _ _ (.value hd hshape hx hsome)
        have hmap (k : Nat) : c.inferWithin inlined (k + 1) t s =
            .ok (.object {} [] none (some true)) s₂ := by
          rw [inferWithin_map hd hshape hx, if_pos hany]
          rfl
        refine ⟨fun k => (hmap k).trans (hmap 0).symm, fun e' s'' he => ?_⟩
        cases (hmap 0).symm.trans he
    | primitive | unknown | enum | object =>
      have hwrapper : d.shape.isWrapper = false := by
        rw [hshape]
        rfl
      have hbare (k : Nat) : c.inferWithin inlined (k + 1) t s = c.inferBare inlined d s₁ :=
        inferWithin_bare hd hwrapper
      refine ⟨fun k => (hbare k).trans (hbare 0).symm, fun e' s'' he => ?_⟩
      exact raises_inferBare hwrapper e' s'' ((hbare 0).symm.trans he)

/-- A fault that is met at a leaf is not that of nesting without end. -/
theorem ne_endlessNesting {e : Fault} (h : e.isDepth = true ∨ e.OfQuestion) :
    e ≠ .endlessNesting := by
  rintro rfl
  rcases h with h | ((((h | ⟨_, h⟩) | ⟨_, _, h⟩) | ⟨_, _, h⟩) | (h | h | h)) <;> cases h

/-- **Inferring is cut off if and only if there are as many wrappers** as are followed. -/
theorem inferWithin_endless_iff (inlined : Bool) (n : Nat) :
    (∃ s', c.inferWithin inlined n t s = .error .endlessNesting s') ↔ c.Nests n t s := by
  induction n generalizing t s with
  | zero => exact ⟨fun _ => .zero, fun _ => ⟨s, rfl⟩⟩
  | succ n ih =>
    by_cases h : ∃ u s₁, c.Unwraps t s u s₁
    · obtain ⟨u, s₁, hu⟩ := h
      obtain ⟨f, hf⟩ := exists_wrap_of_unwraps inlined hu
      rw [hf]
      constructor
      · rintro ⟨s', h⟩
        rcases bind_eq_error.mp h with h | ⟨_, _, _, h⟩
        · exact .succ hu (ih.mp ⟨s', h⟩)
        · cases h
      · intro hn
        obtain ⟨u', s₁', hu', hn⟩ := hn.unwraps
        obtain ⟨rfl, rfl⟩ := hu.unique hu'
        obtain ⟨s', h⟩ := ih.mpr hn
        exact ⟨s', bind_eq_error.mpr (.inl h)⟩
    · have hnot (u : Token) (s₁ : Session) : ¬ c.Unwraps t s u s₁ := fun hu => h ⟨u, s₁, hu⟩
      obtain ⟨hsame, hraises⟩ := inferWithin_of_not_unwraps inlined hnot
      constructor
      · rintro ⟨s', he⟩
        exact absurd rfl (ne_endlessNesting (hraises _ _ ((hsame n).symm.trans he)))
      · intro hn
        obtain ⟨u, s₁, hu, -⟩ := hn.unwraps
        exact absurd hu (hnot u s₁)

/-- **Inferring goes as deep as the wrappers do.**  Where there are fewer wrappers than a number,
following more than that number changes nothing. -/
theorem inferWithin_of_not_nests (inlined : Bool) {n k : Nat} (hle : n ≤ k)
    (h : ¬ c.Nests n t s) : c.inferWithin inlined k t s = c.inferWithin inlined n t s := by
  induction n generalizing k t s with
  | zero => exact absurd .zero h
  | succ n ih =>
    obtain ⟨k, rfl⟩ :=
      Nat.exists_eq_succ_of_ne_zero (Nat.ne_of_gt (Nat.lt_of_lt_of_le n.succ_pos hle))
    by_cases hunwraps : ∃ u s₁, c.Unwraps t s u s₁
    · obtain ⟨u, s₁, hu⟩ := hunwraps
      obtain ⟨f, hf⟩ := exists_wrap_of_unwraps inlined hu
      have hinner := ih (Nat.le_of_succ_le_succ hle) fun hn => h (.succ hu hn)
      rw [hf, hf]
      show EStateM.bind _ _ s₁ = EStateM.bind _ _ s₁
      unfold EStateM.bind
      rw [hinner]
    · have hnot (u : Token) (s₁ : Session) : ¬ c.Unwraps t s u s₁ := fun hu => hunwraps ⟨u, s₁, hu⟩
      obtain ⟨hsame, -⟩ := inferWithin_of_not_unwraps inlined hnot
      rw [hsame k, hsame n]

/-- **How inferring fails**: it is cut off, or a question about types fails, or a leaf is too
deep. -/
theorem raises_inferWithin (inlined : Bool) (n : Nat) :
    Raises (fun e => e = .endlessNesting ∨ e.isDepth = true ∨ e.OfQuestion)
      (c.inferWithin inlined n t) s := by
  induction n generalizing t s with
  | zero => exact .throw (.inl rfl)
  | succ n ih =>
    by_cases hunwraps : ∃ u s₁, c.Unwraps t s u s₁
    · obtain ⟨u, s₁, hu⟩ := hunwraps
      obtain ⟨f, hf⟩ := exists_wrap_of_unwraps inlined hu
      intro e s' he
      rw [hf] at he
      exact (ih (t := u) (s := s₁)).bind (fun _ _ _ => .pure _) e s' he
    · have hnot (u : Token) (s₁ : Session) : ¬ c.Unwraps t s u s₁ := fun hu => hunwraps ⟨u, s₁, hu⟩
      obtain ⟨hsame, hraises⟩ := inferWithin_of_not_unwraps inlined hnot
      intro e s' he
      exact .inr (hraises e s' ((hsame n).symm.trans he))

end Compiler

/-! ## Publishing -/

/-- Every host knows what kind of leaf null is. -/
theorem Kinds.isSome_kindOf?_nothing (ks : Kinds) :
    (ks.kindOf? (.builtin .nothing)).isSome = true := by
  unfold kindOf?
  dsimp only [Token.checkKey]
  split <;> rfl

/-- The type of null is a leaf. -/
theorem Program.shape_of_read_nothing {p : Program} {ks : Kinds} {d : Descriptor}
    (h : p.read ks (.builtin .nothing) = .ok d) : d.shape = .primitive := by
  obtain ⟨kind, hkind⟩ := Option.isSome_iff_exists.mp ks.isSome_kindOf?_nothing
  unfold read at h
  dsimp only [Token.bare] at h
  rw [hkind] at h
  cases h
  rfl

namespace Environment

variable {env : Environment} {d : Descriptor} {w w' : Walk} {n : Nat}

/-- What is described where there is no type is null. -/
theorem shape_of_describe_none (hw : w.session.WellRead env)
    (h : env.describe .none w = .ok d w') : d.shape = .primitive := by
  have hnothing : w'.session.Settles (env.describe (.builtin .nothing)) d :=
    (reads_describe .none).settles h
  obtain ⟨d₀, hread, halike⟩ := exists_read_of_declaration
    (((reads_describe .none).learns.ok h).session.wellRead hw) rfl hnothing
  have hshape : d₀.shape = .primitive := Program.shape_of_read_nothing hread
  rw [halike]
  exact hshape

/-- A wrapper is built wherever it is referred to. -/
theorem refer_of_wrapper {builder : Descriptor → Build Built} (hshape : d.shape.isWrapper = true) :
    env.refer builder d w = (do return (← builder d).node : Build Node) w := by
  unfold refer
  rw [bind_of_ok (isInline_of_wrapper hshape), if_pos rfl]

/-- A map is not built if what it maps to is not. -/
theorem buildShape_map_eq_error {builder : Descriptor → Build Built} {x : Descriptor}
    {w₁ : Walk} {e : Fault} (hshape : d.shape = .map) (hne : d.inner ≠ .none)
    (hx : env.describe d.inner w = .ok x w₁)
    (hsome : ¬ (x.shape = .primitive ∧ x.kind = some .any))
    (he : env.referTo builder d.inner w₁ = .error e w') :
    env.buildShape builder d w = .error e w' := by
  have hrefer : env.refer builder x w₁ = .error e w' := by
    unfold referTo at he
    rwa [bind_of_ok ((reads_describe d.inner).settles hx w₁ (.refl _))] at he
  unfold buildShape mapNode
  rw [hshape, mapInner_of_ne hne]
  refine bind_eq_error.mpr (.inl ?_)
  rw [bind_of_ok hx]
  refine bind_eq_error.mpr (.inl ?_)
  unfold mapTo
  rw [if_neg hsome]
  exact bind_eq_error.mpr (.inl hrefer)

/-- A type beyond the limit is not built. -/
theorem build_of_tooDeep (h : env.maxDepth < w.session.depth + 1) :
    ∃ w', env.build n d w = .error (.tooDeep d.name env.maxDepth) w' := by
  cases n with
  | zero => exact ⟨w, rfl⟩
  | succ n => exact deepening_eq_tooDeep _ h

/-- **A wrapper is refused for its depth** if it is itself too deep, or if what is inside it is. -/
theorem referTo_of_tooDeep {t : Token} {w₁ : Walk} (hd : env.describe t w = .ok d w₁)
    (hshape : d.shape.isWrapper = true)
    (h : w₁.session.depth + 1 ≤ env.maxDepth → ∀ n, ∃ subject w',
      env.buildShape (env.build n) d w₁.deeper = .error (.tooDeep subject env.maxDepth) w')
    (n : Nat) : ∃ subject w', env.referTo (env.build n) t w =
      .error (.tooDeep subject env.maxDepth) w' := by
  have hrefer {e : Fault} {w' : Walk} (he : env.build n d w₁ = .error e w') :
      env.referTo (env.build n) t w = .error e w' := by
    unfold referTo
    rw [bind_of_ok hd, refer_of_wrapper hshape]
    exact bind_eq_error.mpr (.inl he)
  rcases Nat.lt_or_ge env.maxDepth (w₁.session.depth + 1) with hlt | hle
  · obtain ⟨w', he⟩ := build_of_tooDeep (d := d) (n := n) hlt
    exact ⟨_, w', hrefer he⟩
  cases n with
  | zero => exact ⟨_, w₁, hrefer rfl⟩
  | succ n =>
    obtain ⟨subject, w', he⟩ := h hle n
    refine ⟨subject, w'.atDepth (w'.session.depth - 1), hrefer ?_⟩
    show env.deepening d _ w₁ = _
    rw [deepening_eq_ending _ hle]
    show ending _ (env.buildShape (env.build n) d w₁.deeper) = _
    rw [he]
    rfl

end Environment

namespace Compiler

variable {c : Compiler} {s s₁ v : Session} {t u : Token} {d : Descriptor} {w w' : Walk}

/-- What is asked in a session is asked in a walk that has read the same, with the same answer. -/
theorem exists_of_run {α : Type} {x : Build α} (hheeds : x.Heeds)
    (hlearns : Keeps (Walk.Learns c.environment) x) {a : α} (hw : Walk.Abreast ⟨s, []⟩ w)
    (h : Session.run x s = .ok a s₁) :
    ∃ w₁, x w = .ok a w₁ ∧ Walk.Abreast ⟨s₁, []⟩ w₁ ∧ w₁.session.depth = w.session.depth := by
  obtain ⟨v, hv, rfl⟩ := Session.run_eq_ok.mp h
  obtain ⟨w₁, hw₁, habreast⟩ := hheeds.exists_ok hw hv
  have hvisited : v.visited = [] := (hlearns.ok hv).visited
  exact ⟨w₁, hw₁, ⟨habreast.readings, habreast.visited.trans hvisited⟩,
    (hlearns.ok hw₁).session.depth⟩

/-- Where there is no type, nothing is unwrapped. -/
theorem Unwraps.ne_none (hread : s.WellRead c.environment) (h : c.Unwraps t s u s₁) :
    t ≠ .none := by
  rintro rfl
  obtain ⟨d, s₂, hd, hshape, -⟩ := h.describe
  obtain ⟨w, hw, -⟩ := Session.run_eq_ok.mp hd
  rw [Environment.shape_of_describe_none hread hw] at hshape
  cases hshape

/-- **Wrappers beyond the limit are not published.** -/
theorem referTo_of_nests {n L : Nat} (hn : c.Nests (n + 1) t s) (hread : s.WellRead c.environment)
    (hw : Walk.Abreast ⟨s, []⟩ w) (hdeep : c.environment.maxDepth ≤ w.session.depth + n) :
    ∃ subject w', c.environment.referTo (c.environment.build L) t w =
      .error (.tooDeep subject c.environment.maxDepth) w' := by
  induction n generalizing t s w L with
  | zero =>
    obtain ⟨u, s₁, hu, -⟩ := hn.unwraps
    obtain ⟨d, s₂, hd, hshape, -⟩ := hu.describe
    obtain ⟨w₁, hw₁, -, hdepth⟩ := exists_of_run (Environment.heeds_describe t)
      (Environment.reads_describe t).learns hw hd
    exact Environment.referTo_of_tooDeep hw₁ hshape (fun hle => by omega) L
  | succ n ih =>
    obtain ⟨u, s₁, hu, hn⟩ := hn.unwraps
    cases hu with
    | @inner d s₁ hd hshape =>
      obtain ⟨w₁, hw₁, habreast, hdepth⟩ := exists_of_run (Environment.heeds_describe t)
        (Environment.reads_describe t).learns hw hd
      have hwrapper : d.shape.isWrapper = true := by
        rcases hshape with hshape | hshape <;> rw [hshape] <;> rfl
      refine Environment.referTo_of_tooDeep hw₁ hwrapper (fun _ k => ?_) L
      have hlevel : w₁.deeper.session.depth = w₁.session.depth + 1 := rfl
      obtain ⟨subject, w', he⟩ := ih (L := k) (w := w₁.deeper) hn
        ((learns_describe c t).ok hd |>.wellRead hread) ⟨habreast.readings, habreast.visited⟩
        (by omega)
      refine ⟨subject, w', ?_⟩
      unfold Environment.buildShape
      rcases hshape with hshape | hshape
      · rw [hshape]
        exact bind_eq_error.mpr (.inl he)
      · rw [hshape]
        exact bind_eq_error.mpr (.inl he)
    | @value d x s₁ s₂ hd hshape hx hsome =>
      obtain ⟨w₁, hw₁, habreast₁, hdepth₁⟩ := exists_of_run (Environment.heeds_describe t)
        (Environment.reads_describe t).learns hw hd
      refine Environment.referTo_of_tooDeep hw₁ (by rw [hshape]; rfl) (fun _ k => ?_) L
      have hlevel : w₁.deeper.session.depth = w₁.session.depth + 1 := rfl
      have hread₁ := (learns_describe c t).ok hd |>.wellRead hread
      obtain ⟨w₂, hw₂, habreast₂, hdepth₂⟩ := exists_of_run (w := w₁.deeper)
        (Environment.heeds_describe d.inner) (Environment.reads_describe d.inner).learns
        ⟨habreast₁.readings, habreast₁.visited⟩ hx
      have hread₂ := (learns_describe c d.inner).ok hx |>.wellRead hread₁
      obtain ⟨subject, w', he⟩ := ih (L := k) hn hread₂ habreast₂ (by omega)
      -- what is inside is a wrapper, so that the map says what it maps to
      obtain ⟨_, _, hinner, -⟩ := hn.unwraps
      exact ⟨subject, w',
        Environment.buildShape_map_eq_error hshape (hinner.ne_none hread₂) hw₂ hsome he⟩

/-- A type that has been described is unwrapped as it was before. -/
theorem Unwraps.of_describe (h : c.Unwraps t s u s₁) (hd : c.describe t s = .ok d v) :
    c.Unwraps t v u s₁ := by
  have hagain : c.describe t v = .ok d v := by
    obtain ⟨w, hw, rfl⟩ := Session.run_eq_ok.mp hd
    exact Session.run_eq_ok.mpr ⟨_, (Environment.reads_describe t).settles hw ⟨w.session, []⟩
      (.refl _), rfl⟩
  cases h with
  | inner hd' hshape =>
    cases hd.symm.trans hd'
    exact .inner hagain hshape
  | value hd' hshape hx hsome =>
    cases hd.symm.trans hd'
    exact .value hagain hshape hx hsome

/-- **Publishing more wrappers inside one another than the limit allows** is refused. -/
theorem ensure_of_nests (htidy : s.Tidy c.environment)
    (hn : c.Nests (c.environment.maxDepth + 1) t s) : ∃ subject s',
      c.ensure t s = .error (.tooDeep subject c.environment.maxDepth) s' := by
  obtain ⟨u, s₁, hu, hinner⟩ := hn.unwraps
  obtain ⟨d, v, hd, -, -⟩ := hu.describe
  have hread : v.WellRead c.environment := (learns_describe c t).ok hd |>.wellRead htidy.wellRead
  obtain ⟨subject, w', he⟩ := referTo_of_nests (L := c.environment.levels)
    (w := ⟨Registry.within Registry.open_ v, []⟩) (.succ (hu.of_describe hd) hinner) hread
    ⟨rfl, rfl⟩ (Nat.le_add_left _ _)
  have hsettled : v.Settles (c.environment.describe t) d := by
    obtain ⟨w, hw, rfl⟩ := Session.run_eq_ok.mp hd
    exact (Environment.reads_describe t).settles hw
  unfold Environment.referTo at he
  rw [bind_of_ok (hsettled _ (.refl _))] at he
  exact ⟨subject, _, ensure_of_error hd he⟩

/-! ## Graphs made by hand -/

/-- **Wrappers that never lead back end.**  There are no more of them inside one another than there
are descriptors that the first of them rests on. -/
theorem le_rank_of_nests (hlinked : c.environment.Linked)
    (hacyclic : ∀ i, ¬ Relation.TransGen c.environment.Rests i i) {i n : Nat}
    (hi : i < c.environment.size) (h : c.Nests n (.crafted i) s) :
    n ≤ c.environment.rank i + 1 := by
  induction n generalizing i s with
  | zero => exact Nat.zero_le _
  | succ n ih =>
    obtain ⟨u, s₁, hu, hn⟩ := h.unwraps
    obtain ⟨d, s₂, hd, hshape, rfl⟩ := hu.describe
    have hdescribe : c.describe (.crafted i) s = .ok (c.environment.handmade i) s := rfl
    cases hdescribe.symm.trans hd
    obtain ⟨j, hj, hinner⟩ := hlinked.exists_of_mem hi (Descriptor.inner_mem_tokens hshape)
    rw [hinner] at hn
    have hrests : c.environment.Rests i j := .inl ⟨hshape, hinner⟩
    have hlt := Environment.rank_lt_of_rests hacyclic hj hrests
    exact Nat.succ_le_succ (Nat.le_trans (ih hj hn) hlt)

/-! ## After any number of calls -/

/-- **How inferring ends.**  After any number of calls:

Inferring is cut off if and only if there are as many wrappers inside one another as are ever
followed.  Where there are fewer than a number of them, following that many is enough.  Otherwise it
fails only with a report, or over types or annotations that cannot be put together.

The limit has no say in this.  More wrappers than it allows are refused when the type is published.

In a graph made by hand where neither wrappers nor bases lead back to where they started, there are
never more wrappers inside one another than there are descriptors. -/
theorem run_infer_nests (c : Compiler) (calls : List Call) (t : Token) (inlined : Bool) :
    ((∃ s', c.infer t inlined (c.run calls) = .error .endlessNesting s') ↔
        c.Nests nestingLimit t (c.run calls)) ∧
      (∀ n ≤ nestingLimit, ¬ c.Nests n t (c.run calls) →
        c.infer t inlined (c.run calls) = c.inferWithin inlined n t (c.run calls)) ∧
      (∀ e s', c.infer t inlined (c.run calls) = .error e s' →
        e = .endlessNesting ∨ e.report?.isSome = true ∨ e.OfType ∨ e.OfAnnotation) ∧
      (c.Nests (c.environment.maxDepth + 1) t (c.run calls) → ∃ subject s',
        c.ensure t (c.run calls) = .error (.tooDeep subject c.environment.maxDepth) s') ∧
      (c.environment.Linked → (∀ i, ¬ Relation.TransGen c.environment.Rests i i) →
        ∀ i < c.environment.size, ∀ n, c.Nests n (.crafted i) (c.run calls) →
          n ≤ c.environment.size) := by
  refine ⟨inferWithin_endless_iff inlined nestingLimit,
    fun n hle h => inferWithin_of_not_nests inlined hle h, fun e s' he => ?_,
    ensure_of_nests (tidy_run c calls), fun hlinked hacyclic i hi n hn => ?_⟩
  · exact (raises_inferWithin inlined nestingLimit e s' he).imp_right Fault.report_of_leaf
  · exact Nat.le_trans (le_rank_of_nests hlinked hacyclic hi hn) (Environment.rank_lt hacyclic hi)

/-- A compiler that knows of a knot, which is a knot or null, and of a grid: a list of rows, which
are lists of cells.  Types may nest two levels deep. -/
def knot : Compiler where
  environment :=
    { program :=
        { crafted :=
            [{ name := "Knot", shape := .nullable, inner := .crafted 0 },
             { name := "Grid", shape := .array, inner := .crafted 2 },
             { name := "Row", shape := .array, inner := .crafted 3 },
             { name := "Cell", shape := .primitive, kind := some .integer }] }
      maxDepth := 2
      captureDefaults := false }
  refPrefix := .ok "#/components/schemas/"
  release := "3.1.0"

/-- **Inferring is not bounded by the limit.**  A knot is followed until it is cut off, with a fault
that has no report, and a grid is inferred with its cells on the third level.  Publishing refuses
both for their depth. -/
theorem knot_infer_endless :
    (∃ s', knot.infer (.crafted 0) false (knot.run []) = .error .endlessNesting s') ∧
      Fault.endlessNesting.report?.isNone = true ∧
      (∃ s', knot.ensure (.crafted 0) (knot.run []) = .error (.tooDeep "Knot" 2) s') ∧
      (∃ n s', knot.infer (.crafted 1) false (knot.run []) = .ok n s') ∧
      ∃ s', knot.ensure (.crafted 1) (knot.run []) = .error (.tooDeep "Cell" 2) s' := by
  have hknot (n : Nat) (s : Session) : knot.Nests n (.crafted 0) s := by
    refine nests_of_closed (P := fun t _ => t = .crafted 0) ?_ rfl n
    rintro _ s rfl
    have hdescribe : knot.describe (.crafted 0) s = .ok (knot.environment.handmade 0) s := rfl
    exact ⟨.crafted 0, s, .inner hdescribe (.inl rfl), rfl⟩
  exact ⟨(inferWithin_endless_iff false nestingLimit).mpr (hknot _ _), rfl, ⟨_, rfl⟩, ⟨_, _, rfl⟩,
    ⟨_, rfl⟩⟩

end Compiler

end Schemata
