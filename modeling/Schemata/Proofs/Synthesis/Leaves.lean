import Schemata.Proofs.Fault.Reading
import Schemata.Proofs.Synthesis.Headroom

/-!
# How questions about types and leaves fail

What a type is, where its bases end and whether it is published in place are questions that are
answered by reading types and by merging annotations.  Where such a question fails, reading or
merging has failed (`Fault.OfQuestion`).

The schema of a leaf is put together from these answers alone.  Building one fails for no other
reason, but that it may be too deep (`raises_buildRoot`).
-/

namespace Schemata

/-- A fault of a type that is read, or of annotations. -/
def Fault.OfQuestion (e : Fault) : Prop :=
  e.OfReading ∨ e.OfAnnotation

/-- **A computation fails in a state**, if it does, with a fault of a sort. -/
def Raises {σ α : Type} (P : Fault → Prop) (x : EStateM Fault σ α) (s : σ) : Prop :=
  ∀ e s', x s = .error e s' → P e

namespace Raises

variable {σ α β : Type} {P Q : Fault → Prop} {x : EStateM Fault σ α} {s : σ}

theorem pure (a : α) : Raises P (pure a : EStateM Fault σ α) s :=
  nofun

theorem throw {e : Fault} (h : P e) : Raises P (throw e : EStateM Fault σ α) s := by
  rintro _ _ ⟨⟩
  exact h

theorem mono (h : Raises P x s) (hPQ : ∀ e, P e → Q e) : Raises Q x s :=
  fun e s' he => hPQ e (h e s' he)

theorem bind {f : α → EStateM Fault σ β} (hx : Raises P x s)
    (hf : ∀ a s₁, x s = .ok a s₁ → Raises P (f a) s₁) : Raises P (x >>= f) s := by
  intro e s' he
  rcases bind_eq_error.mp he with he | ⟨a, s₁, ha, he⟩
  · exact hx e s' he
  · exact hf a s₁ ha e s' he

/-- The two sides of a choice. -/
theorem ite {c : Prop} [Decidable c] {y : EStateM Fault σ α} (hx : Raises P x s)
    (hy : Raises P y s) : Raises P (if c then x else y) s := by
  split
  · exact hx
  · exact hy

theorem lift {r : Except Fault α} (h : FailsOnly P r) (w : Walk) : Raises P (Build.lift r) w := by
  cases r with
  | ok a => exact nofun
  | error e =>
    rintro _ _ ⟨⟩
    exact h e rfl

/-- A computation with nothing visited yet. -/
theorem run {x : Build α} {s : Session} (h : Raises P x ⟨s, []⟩) : Raises P (Session.run x) s := by
  intro e s' he
  unfold Session.run at he
  cases hx : x ⟨s, []⟩ with
  | ok a w =>
    rw [hx] at he
    cases he
  | error e₁ w =>
    rw [hx] at he
    cases he
    exact h _ _ hx

end Raises

namespace Environment

open Build

variable {env : Environment} {d : Descriptor} {kind : Kind} {builder : Descriptor → Build Built}

/-! ## Questions -/

theorem raises_merge (records : List Record) (w : Walk) :
    Raises Fault.OfQuestion (lift (Constraints.merge records)) w :=
  .lift ((Constraints.failsOnly_merge records).mono fun _ => .inr) w

theorem raises_describe (t : Token) (w : Walk) : Raises Fault.OfQuestion (env.describe t) w := by
  have hread (t : Token) : FailsOnly Fault.OfQuestion (env.program.read env.kinds t) :=
    (env.program.failsOnly_read env.kinds t).mono fun _ => .inl
  by_cases ht : ∃ i, t = .crafted i
  · obtain ⟨i, rfl⟩ := ht
    rw [describe_crafted]
    exact .pure _
  rw [describe_eq env fun i hi => ht ⟨i, hi⟩]
  refine .ite (Raises.bind nofun fun found w _ => ?_) ?_
  · cases found with
    | some e => exact .pure _
    | none =>
      intro e w' he
      unfold readNew at he
      cases hr : env.program.read env.kinds t.asType with
      | ok d =>
        rw [hr] at he
        cases he
      | error e₁ =>
        rw [hr] at he
        cases he
        exact hread _ _ hr
  · exact (Raises.lift (hread _) w).bind fun _ _ _ => .pure _

theorem raises_basesFrom (fuel : Nat) (seen : List Identity) (d : Descriptor) (w : Walk) :
    Raises Fault.OfQuestion (env.basesFrom fuel seen d) w := by
  induction fuel generalizing seen d w with
  | zero => exact .pure _
  | succ fuel ih =>
    unfold basesFrom
    cases d.base with
    | none => exact .pure _
    | some t =>
      refine (raises_describe t w).bind fun b w _ => .ite (.pure _) (.ite (.pure _) ?_)
      exact (ih _ b w).bind fun _ _ _ => .pure _

theorem raises_baseChain (d : Descriptor) (w : Walk) :
    Raises Fault.OfQuestion (env.baseChain d) w :=
  raises_basesFrom _ _ d w

theorem raises_primitiveKind (d : Descriptor) (w : Walk) :
    Raises Fault.OfQuestion (env.primitiveKind d) w := by
  unfold primitiveKind
  refine .ite (.pure _) ((raises_baseChain d w).bind fun bases _ _ => ?_)
  cases bases.getLast? with
  | none => exact .pure _
  | some b => exact .pure _

theorem raises_isInline (d : Descriptor) (w : Walk) :
    Raises Fault.OfQuestion (env.isInline d) w :=
  .ite (.pure _) ((raises_primitiveKind d w).bind fun _ _ _ => .pure _)

theorem raises_publishesArray (d : Descriptor) (w : Walk) :
    Raises Fault.OfQuestion (env.publishesArray d) w := by
  unfold publishesArray
  refine .ite (.pure _) ((raises_primitiveKind d w).bind fun kind w _ => .ite (.pure _) ?_)
  exact (raises_merge _ w).bind fun _ _ _ => .pure _

theorem raises_isArrayVisited (d : Descriptor) (w : Walk) :
    Raises Fault.OfQuestion (env.isArrayVisited d) w := by
  have hcheck : Raises Fault.OfQuestion (lift d.key.check) w :=
    .lift (d.key.failsOnly_check.mono fun _ h => .inl (.inl (.inl h))) w
  refine Raises.bind (hcheck.bind fun _ _ _ => nofun) fun _ w _ => ?_
  exact .ite (raises_publishesArray d w) (.pure _)

theorem raises_annotate (records : List Record) (n : Node) (w : Walk) :
    Raises Fault.OfQuestion (annotate records n) w :=
  (raises_merge records w).bind fun _ _ _ => .pure _

theorem raises_namedLeaf (d : Descriptor) (kind : Kind) (w : Walk) :
    Raises Fault.OfQuestion (env.namedLeaf d kind) w := by
  unfold namedLeaf
  refine (raises_baseChain d w).bind fun bases w _ => (raises_merge _ w).bind fun c _ _ => ?_
  cases c.apply kind.schema with
  | leaf k type => exact .pure _
  | _ => exact .pure _

/-! ## Leaves -/

theorem raises_namedNode {w : Walk} (h : w.session.Settles (env.primitiveKind d) (some kind)) :
    Raises Fault.OfQuestion (env.namedNode builder d) w := by
  obtain ⟨base, hbase⟩ := exists_base_of_primitiveKind (h w (.refl _))
  unfold namedNode
  rw [hbase]
  refine (raises_isArrayVisited d w).bind fun visited w₁ hvisited => .ite (.pure _) ?_
  -- the bases end at a leaf, as they did when it was asked
  have hleaf := h w₁ ((learns_isArrayVisited d).ok hvisited).below
  have hinherit : Raises Fault.OfQuestion (env.inherit builder d base) w₁ := by
    intro e w' he
    rw [inherit_of_primitiveKind base hleaf] at he
    exact (raises_namedLeaf d kind w₁).bind (fun _ _ _ => .pure _) e w' he
  refine hinherit.bind fun what w₂ hwhat => ?_
  rw [inherit_of_primitiveKind base hleaf] at hwhat
  obtain ⟨leaf, _, _, hwhole⟩ := bind_eq_ok.mp hwhat
  obtain ⟨rfl, -⟩ := pure_eq_ok.mp hwhole
  exact .pure _

theorem raises_buildShape {w : Walk} (hwrapper : d.shape.isWrapper = false)
    (hinline : w.session.Settles (env.isInline d) true) :
    Raises Fault.OfQuestion (env.buildShape builder d) w := by
  have hnamed (hshape : d.shape.isInline = false) :
      Raises Fault.OfQuestion (env.namedNode builder d) w := by
    obtain ⟨kind, hkind⟩ := exists_settles_primitiveKind hinline hshape
    exact raises_namedNode hkind
  unfold buildShape
  cases hshape : d.shape with
  | nullable | array | map =>
    rw [hshape] at hwrapper
    cases hwrapper
  | primitive | unknown => exact (raises_annotate _ _ w).bind fun _ _ _ => .pure _
  | enum | object => exact hnamed (by rw [hshape]; rfl)

theorem raises_deepening {α : Type} {body : Build α} {P : Fault → Prop} {w : Walk}
    (hdeep : P (.tooDeep d.name env.maxDepth))
    (h : Raises P body (w.atDepth (w.session.depth + 1))) : Raises P (env.deepening d body) w := by
  intro e w' he
  rcases Nat.lt_or_ge env.maxDepth (w.session.depth + 1) with hlt | hle
  · obtain ⟨w₁, hw₁⟩ := deepening_eq_tooDeep (d := d) body hlt
    cases hw₁.symm.trans he
    exact hdeep
  · rw [deepening_eq_ending body hle] at he
    cases hbody : body (w.atDepth (w.session.depth + 1)) with
    | ok a w₁ =>
      rw [hbody] at he
      cases he
    | error e₁ w₁ =>
      rw [hbody] at he
      cases he
      exact h _ _ hbody

/-- **A leaf fails to be built** over a question about types, or because it is too deep. -/
theorem raises_buildRoot {w : Walk} (hwrapper : d.shape.isWrapper = false)
    (hinline : w.session.Settles (env.isInline d) true) :
    Raises (fun e => e.isDepth = true ∨ e.OfQuestion) (env.buildRoot d) w := by
  refine Raises.bind (raises_deepening (.inl rfl) ?_) fun _ _ _ => .pure _
  have hdeeper : (w.atDepth (w.session.depth + 1)).session.Settles (env.isInline d) true :=
    hinline.mono (.refl w.session)
  exact (raises_buildShape hwrapper hdeeper).mono fun _ => .inr

end Environment

end Schemata
