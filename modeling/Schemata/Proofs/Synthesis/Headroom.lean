import Schemata.Proofs.Tally
import Schemata.Proofs.Synthesis.Depth
import Schemata.Proofs.Synthesis.Settings

/-!
# Raising the limit

Two walks through one program start alike, and the second may nest types less deep than the first.
They go on alike until the second comes to its limit.  What it finds there is a fault, and nothing
in a synthesis recovers from a fault; so the second walk either ends as the first one does, in the
same state, or ends with the fault that says that types nest too deep.  This is `Outlasts`, and
`outlasts_build` says it of building.

The limit is looked at in one place, `Environment.deepening`, and it is not the only thing there
that a limit decides: the levels of `Environment.build` are counted from it as well.  They do not
show.  A computation with fewer levels runs out of them only where it fails, with the fault of the
limit, and for the rest it is enough that it has no more levels than the other.

Everything between two builds is a function of the environment and of what building does.  Of the
environment it uses all but the limit (the lemmas `…_adjusted`), and along what building does the
relation is carried through (the lemmas `outlasts_…`).
-/

namespace Schemata

/-- The environment with another limit to how deep types may nest. -/
def Environment.limited (env : Environment) (limit : Nat) : Environment :=
  { env with maxDepth := limit }

/-! ## Computations that may be cut short -/

/-- **The first computation does what the second does**, where the second does not end for want of
depth. -/
def Outlasts {σ α : Type} (x y : EStateM Fault σ α) : Prop :=
  ∀ s, Tallies Eq (·.isDepth = true) (x s) (y s)

namespace Outlasts

variable {σ α β : Type} {x y : EStateM Fault σ α}

theorem refl (x : EStateM Fault σ α) : Outlasts x x := by
  intro s
  cases x s with
  | ok a s' => exact .ok rfl
  | error e s' => exact .error rfl

theorem bind {f g : α → EStateM Fault σ β} (h : Outlasts x y) (hfg : ∀ a, Outlasts (f a) (g a)) :
    Outlasts (x >>= f) (y >>= g) :=
  fun s => .bind (h s) fun {a s₁ _} _ _ heq => heq ▸ hfg a s₁

/-- Both go on in the same way. -/
theorem bind_same (h : Outlasts x y) (f : α → EStateM Fault σ β) :
    Outlasts (x >>= f) (y >>= f) :=
  h.bind fun a => refl (f a)

/-- The two sides of a choice. -/
theorem ite {c : Prop} [Decidable c] {x' y' : EStateM Fault σ α} (h : Outlasts x y)
    (h' : Outlasts x' y') : Outlasts (if c then x else x') (if c then y else y') :=
  fun s => .ite (fun _ => h s) fun _ => h' s

/-- **Where the second computation succeeds, so does the first**, with the same answer and in the
same state. -/
theorem eq_ok (h : Outlasts x y) {s s' : σ} {a : α} (hy : y s = .ok a s') : x s = .ok a s' := by
  have htally := h s
  rw [hy] at htally
  generalize x s = r at htally
  cases htally with
  | ok heq => rw [heq]

/-- Requests in turn. -/
theorem mapM {ι : Type} {f g : ι → EStateM Fault σ α} (h : ∀ i, Outlasts (f i) (g i))
    (is : List ι) : Outlasts (is.mapM f) (is.mapM g) := by
  induction is with
  | nil => exact refl _
  | cons i is ih =>
    rw [List.mapM_cons, List.mapM_cons]
    exact (h i).bind fun a => ih.bind_same _

/-- Both are run in the same surroundings. -/
theorem around {τ : Type} (h : Outlasts x y) (into : τ → σ) (kept dropped : σ → τ) :
    Outlasts (Schemata.around into kept dropped x) (Schemata.around into kept dropped y) := by
  intro s
  have htally := h (into s)
  unfold Schemata.around
  generalize x (into s) = r, y (into s) = r' at htally
  cases htally with
  | ok heq => exact .ok (congrArg kept heq)
  | error heq => exact .error (congrArg dropped heq)
  | cut hdepth => exact .cut hdepth

theorem whileVisiting {α : Type} {x y : Build α} (h : Outlasts x y) (k : Key) :
    Outlasts (Build.whileVisiting k x) (Build.whileVisiting k y) := by
  rw [whileVisiting_eq_around, whileVisiting_eq_around]
  exact h.around _ _ _

end Outlasts

namespace Environment

open Build

variable {env : Environment} (limit : Nat)

/-! ## The functions of the synthesis -/

section

variable {builder builder' : Descriptor → Build Built}
  (hb : ∀ d, Outlasts (builder d) (builder' d))
include hb

theorem outlasts_refer (d : Descriptor) :
    Outlasts ((env.adjusted limit env.captureDefaults).refer builder d) (env.refer builder' d) := by
  unfold refer
  rw [isInline_adjusted, isAwaited_adjusted]
  refine (Outlasts.refl _).bind fun _ => .ite ((hb d).bind_same _) ?_
  refine (Outlasts.refl _).bind fun _ => .ite (.refl _) ?_
  exact (Outlasts.refl _).bind fun _ => .ite (.refl _) ((hb d).bind_same _)

theorem outlasts_referTo (t : Token) :
    Outlasts ((env.adjusted limit env.captureDefaults).referTo builder t)
      (env.referTo builder' t) :=
  (Outlasts.refl (env.describe t)).bind fun d => outlasts_refer limit hb d

theorem outlasts_addProperty (d : Descriptor) (o : ObjectParts) (q : Property) :
    Outlasts ((env.adjusted limit env.captureDefaults).addProperty builder d o q)
      (env.addProperty builder' d o q) := by
  have hrefer : Outlasts ((env.adjusted limit env.captureDefaults).referTo builder q.type)
      (env.referTo builder' q.type) := outlasts_referTo limit hb q.type
  unfold addProperty propertyNode
  refine (Outlasts.refl _).bind fun c => .ite (hrefer.bind_same _) ?_
  exact (hrefer.bind_same _).bind_same _

theorem outlasts_addProperties (d : Descriptor) (o : ObjectParts) (qs : List Property) :
    Outlasts ((env.adjusted limit env.captureDefaults).addProperties builder d o qs)
      (env.addProperties builder' d o qs) := by
  induction qs generalizing o with
  | nil => exact .refl _
  | cons q qs ih => exact (outlasts_addProperty limit hb d o q).bind fun o => ih o

theorem outlasts_populate (d : Descriptor) (o : ObjectParts) :
    Outlasts ((env.adjusted limit env.captureDefaults).populate builder d o)
      (env.populate builder' d o) := by
  unfold populate
  refine (outlasts_addProperties limit hb d o _).bind fun o => ?_
  rw [checkRequired_adjusted]
  exact .refl _

theorem outlasts_composedArray (d : Descriptor) (c : Constraints) (base : Node) :
    Outlasts ((env.adjusted limit env.captureDefaults).composedArray builder d c base)
      (env.composedArray builder' d c base) := by
  unfold composedArray
  exact .ite (.refl _) (((outlasts_populate limit hb d _).whileVisiting d.key).bind_same _)

theorem outlasts_inherit (d : Descriptor) (base : Token) :
    Outlasts ((env.adjusted limit env.captureDefaults).inherit builder d base)
      (env.inherit builder' d base) := by
  unfold inherit
  rw [primitiveKind_adjusted]
  refine (Outlasts.refl _).bind fun kind => ?_
  cases kind with
  | some kind =>
    dsimp only
    rw [namedLeaf_adjusted]
    exact .refl _
  | none =>
    refine (Outlasts.refl _).bind fun c => (outlasts_referTo limit hb base).bind fun node => ?_
    exact .ite (.refl _) (.ite ((outlasts_composedArray limit hb d c node).bind_same _) (.refl _))

theorem outlasts_mapTo (d : Descriptor) :
    Outlasts ((env.adjusted limit env.captureDefaults).mapTo builder d) (env.mapTo builder' d) :=
  .ite (.refl _) ((outlasts_refer limit hb d).bind_same _)

theorem outlasts_mapNode (d : Descriptor) :
    Outlasts ((env.adjusted limit env.captureDefaults).mapNode builder d)
      (env.mapNode builder' d) := by
  unfold mapNode
  refine (Outlasts.refl (env.describe (mapInner d))).bind fun value => ?_
  exact (outlasts_mapTo limit hb value).bind_same _

theorem outlasts_ownNode (d : Descriptor) (base : Option Node) :
    Outlasts ((env.adjusted limit env.captureDefaults).ownNode builder d base)
      (env.ownNode builder' d base) := by
  unfold ownNode ownObject
  refine .ite (.refl _) ((Outlasts.refl _).bind fun c => ?_)
  exact (outlasts_populate limit hb d _).bind_same _

theorem outlasts_storeNode (d : Descriptor) (base : Option Node) :
    Outlasts ((env.adjusted limit env.captureDefaults).storeNode builder d base)
      (env.storeNode builder' d base) := by
  unfold storeNode
  refine (Outlasts.refl _).bind fun _ => .ite (.refl _) ((Outlasts.refl _).bind fun _ => ?_)
  refine (Outlasts.refl (env.claim d.name d)).bind fun _ => (Outlasts.refl _).bind fun found => ?_
  cases found with
  | some n => exact .refl _
  | none => exact (outlasts_ownNode limit hb d base).bind_same _

theorem outlasts_namedNode (d : Descriptor) :
    Outlasts ((env.adjusted limit env.captureDefaults).namedNode builder d)
      (env.namedNode builder' d) := by
  unfold namedNode
  cases d.base with
  | none => exact outlasts_storeNode limit hb d none
  | some base =>
    dsimp only
    rw [isArrayVisited_adjusted]
    refine (Outlasts.refl _).bind fun _ => .ite (.refl _) ?_
    refine (outlasts_inherit limit hb d base).bind fun inherited => ?_
    cases inherited with
    | whole node => exact .refl _
    | base node => exact outlasts_storeNode limit hb d (some node)

theorem outlasts_buildShape (d : Descriptor) :
    Outlasts ((env.adjusted limit env.captureDefaults).buildShape builder d)
      (env.buildShape builder' d) := by
  unfold buildShape
  cases d.shape with
  | nullable | array => exact (outlasts_referTo limit hb d.inner).bind_same _
  | primitive | unknown => exact .refl _
  | map => exact (outlasts_mapNode limit hb d).bind_same _
  | enum | object => exact outlasts_namedNode limit hb d

end

/-! ## Building -/

/-- A type that is not too deep is built, and the count is lowered again however that ends. -/
theorem deepening_eq_ending {α : Type} {d : Descriptor} (body : Build α) {w : Walk}
    (h : w.session.depth + 1 ≤ env.maxDepth) : env.deepening d body w =
      ending (fun w => w.atDepth (w.session.depth - 1))
        (body (w.atDepth (w.session.depth + 1))) := by
  unfold deepening
  have hdepth : ¬ env.maxDepth < (w.atDepth (w.session.depth + 1)).session.depth := Nat.not_lt.mpr h
  simp only [if_neg hdepth]
  cases body (w.atDepth (w.session.depth + 1)) <;> rfl

theorem deepening_eq_tooDeep {α : Type} {d : Descriptor} (body : Build α) {w : Walk}
    (h : env.maxDepth < w.session.depth + 1) :
    ∃ w', env.deepening d body w = .error (.tooDeep d.name env.maxDepth) w' := by
  unfold deepening
  have hdepth : env.maxDepth < (w.atDepth (w.session.depth + 1)).session.depth := h
  simp only [if_pos hdepth]
  exact ⟨_, rfl⟩

variable {limit} (hlimit : env.maxDepth ≤ limit)
include hlimit

/-- Where the lower limit does not refuse a type, neither does the higher one. -/
theorem outlasts_deepening {α : Type} {x y : Build α} (h : Outlasts x y) (d : Descriptor) :
    Outlasts ((env.limited limit).deepening d x) (env.deepening d y) := by
  intro w
  rcases Nat.lt_or_ge env.maxDepth (w.session.depth + 1) with hdeep | hdepth
  · obtain ⟨w', hy⟩ := deepening_eq_tooDeep (d := d) y hdeep
    rw [hy]
    exact .cut rfl
  · rw [deepening_eq_ending x (Nat.le_trans hdepth hlimit), deepening_eq_ending y hdepth]
    exact (h _).ending fun hw => hw ▸ rfl

/-- **Building under a higher limit, with more levels,** is building under the lower one, where
that does not end for want of depth. -/
theorem outlasts_build {n m : Nat} (h : n ≤ m) (d : Descriptor) :
    Outlasts ((env.limited limit).build m d) (env.build n d) := by
  induction n generalizing m d with
  | zero => exact fun w => .cut rfl
  | succ n ih =>
    obtain ⟨m, rfl⟩ :=
      Nat.exists_eq_succ_of_ne_zero (Nat.ne_of_gt (Nat.lt_of_lt_of_le n.succ_pos h))
    exact outlasts_deepening hlimit
      (outlasts_buildShape limit (fun d => ih (Nat.le_of_succ_le_succ h) d) d) d

theorem outlasts_referRoot (d : Descriptor) :
    Outlasts ((env.limited limit).referRoot d) (env.referRoot d) :=
  outlasts_refer limit (outlasts_build hlimit (Nat.succ_le_succ hlimit)) d

end Environment

end Schemata
