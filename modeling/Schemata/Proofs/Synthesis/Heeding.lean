import Schemata.Proofs.Synthesis.Growth
import Schemata.Proofs.Tally

/-!
# What questions about types heed

A question about a type --- what it is, where its bases end, how it is published --- is answered
from what has been read and what is being visited, and from nothing else that a walk knows.  Two
walks that are *abreast* have read the same and visit the same.  They get the same answers, and are
abreast again (`Build.Heeds`), however much they differ in what is stored and claimed, or in how
deep they are.  The schema of a leaf is built from such answers alone (`tallies_leaf`).

The answers need not have been given before.  That is what sets this apart from answers that are
settled: of two walks that are abreast, neither has to be ahead of the other.
-/

namespace Schemata

/-- Two walks have read the same and visit the same. -/
structure Walk.Abreast (w v : Walk) : Prop where
  readings : v.session.readings = w.session.readings
  visited : v.visited = w.visited

theorem Walk.Abreast.below {w v : Walk} (h : w.Abreast v) : w.session.Below v.session := by
  unfold Session.Below
  exact h.readings ▸ List.prefix_refl _

/-- A computation heeds nothing but what has been read and what is visited. -/
structure Build.Heeds {α : Type} (x : Build α) : Prop where
  tallies : ∀ {w v : Walk}, w.Abreast v → Tallies Walk.Abreast (fun _ => False) (x w) (x v)

namespace Build.Heeds

variable {α β : Type}

theorem pure (a : α) : Heeds (pure a : Build α) :=
  ⟨fun h => .ok h⟩

theorem lift (r : Except Fault α) : Heeds (Build.lift r) :=
  ⟨tallies_lift r⟩

theorem isVisited (k : Key) : Heeds (Build.isVisited k) :=
  ⟨fun h => tallies_isVisited k h.visited.symm h⟩

theorem bind {x : Build α} {f : α → Build β} (hx : Heeds x) (hf : ∀ a, Heeds (f a)) :
    Heeds (x >>= f) :=
  ⟨fun h => (hx.tallies h).bind fun {a _ _} _ _ => (hf a).tallies⟩

theorem ite {c : Prop} [Decidable c] {x y : Build α} (hx : Heeds x) (hy : Heeds y) :
    Heeds (if c then x else y) := by
  split
  · exact hx
  · exact hy

/-- A walk that is abreast of one that succeeds succeeds as well. -/
theorem exists_ok {x : Build α} (hx : Heeds x) {w v w' : Walk} {a : α} (hwv : w.Abreast v)
    (h : x w = .ok a w') : ∃ v', x v = .ok a v' ∧ w'.Abreast v' :=
  Tallies.exists_ok (h ▸ hx.tallies hwv)

end Build.Heeds

namespace Environment

open Build

variable {env : Environment}

/-! ## Questions -/

theorem heeds_readNew (t : Token) : Heeds (env.readNew t) := by
  refine ⟨fun {w v} h => ?_⟩
  unfold readNew
  cases env.program.read env.kinds t with
  | error e => exact .error h
  | ok d =>
    simp only [h.readings]
    exact .ok ⟨rfl, h.visited⟩

theorem heeds_describe (t : Token) : Heeds (env.describe t) := by
  by_cases ht : ∃ i, t = .crafted i
  · obtain ⟨i, rfl⟩ := ht
    rw [describe_crafted]
    exact Heeds.pure _
  rw [describe_eq env fun i hi => ht ⟨i, hi⟩]
  refine Heeds.ite ⟨fun {w v} h => ?_⟩ (Heeds.bind (Heeds.lift _) fun _ => Heeds.pure _)
  refine (tallies_asks (by rw [h.readings]) h).bind fun {found _ _} _ _ => ?_
  cases found with
  | some e => exact (Heeds.pure _).tallies
  | none => exact (heeds_readNew _).tallies

theorem heeds_basesFrom (fuel : Nat) (seen : List Identity) (d : Descriptor) :
    Heeds (env.basesFrom fuel seen d) := by
  induction fuel generalizing seen d with
  | zero => exact Heeds.pure _
  | succ fuel ih =>
    unfold basesFrom
    cases d.base with
    | none => exact Heeds.pure _
    | some t =>
      refine Heeds.bind (heeds_describe t) fun b => ?_
      refine Heeds.ite (Heeds.pure _) (Heeds.ite (Heeds.pure _) ?_)
      exact Heeds.bind (ih _ b) fun _ => Heeds.pure _

theorem heeds_baseChain (d : Descriptor) : Heeds (env.baseChain d) :=
  heeds_basesFrom _ _ d

theorem heeds_primitiveKind (d : Descriptor) : Heeds (env.primitiveKind d) := by
  unfold primitiveKind
  refine Heeds.ite (Heeds.pure _) (Heeds.bind (heeds_baseChain d) fun bases => ?_)
  cases bases.getLast? with
  | none => exact Heeds.pure _
  | some b => exact Heeds.pure _

theorem heeds_publishesArray (d : Descriptor) : Heeds (env.publishesArray d) := by
  unfold publishesArray
  refine Heeds.ite (Heeds.pure _) (Heeds.bind (heeds_primitiveKind d) fun kind => ?_)
  exact Heeds.ite (Heeds.pure _) (Heeds.bind (Heeds.lift _) fun _ => Heeds.pure _)

theorem heeds_isInline (d : Descriptor) : Heeds (env.isInline d) := by
  unfold isInline
  exact Heeds.ite (Heeds.pure _) (Heeds.bind (heeds_primitiveKind d) fun _ => Heeds.pure _)

theorem heeds_isAwaited (d : Descriptor) : Heeds (env.isAwaited d) :=
  Heeds.bind (Heeds.isVisited _) fun _ =>
    Heeds.ite (Heeds.bind (heeds_publishesArray d) fun _ => Heeds.pure _) (Heeds.pure _)

theorem heeds_isArrayVisited (d : Descriptor) : Heeds (env.isArrayVisited d) :=
  Heeds.bind (Heeds.isVisited _) fun _ => Heeds.ite (heeds_publishesArray d) (Heeds.pure _)

theorem heeds_namedLeaf (d : Descriptor) (kind : Kind) : Heeds (env.namedLeaf d kind) := by
  unfold namedLeaf
  refine Heeds.bind (heeds_baseChain d) fun bases => Heeds.bind (Heeds.lift _) fun c => ?_
  cases c.apply kind.schema with
  | leaf k type => exact Heeds.pure _
  | _ => exact Heeds.pure _

theorem heeds_checkRequired (d : Descriptor) (o : ObjectParts) : Heeds (env.checkRequired d o) := by
  unfold checkRequired
  exact Heeds.bind (heeds_baseChain d) fun _ => Heeds.ite (Heeds.pure _) ⟨fun h => .error h⟩

theorem heeds_annotate (records : List Record) (n : Node) : Heeds (annotate records n) :=
  Heeds.bind (Heeds.lift _) fun _ => Heeds.pure _

/-! ## Leaves -/

section

variable {builder builder' : Descriptor → Build Built} {d : Descriptor} {w v : Walk}

theorem tallies_namedNode {kind : Kind}
    (hkind : w.session.Settles (env.primitiveKind d) (some kind)) (h : w.Abreast v) :
    Tallies Walk.Abreast (fun _ => False) (env.namedNode builder d w)
      (env.namedNode builder' d v) := by
  obtain ⟨base, hbase⟩ := exists_base_of_primitiveKind (hkind w (.refl _))
  unfold namedNode
  rw [hbase]
  refine ((heeds_isArrayVisited d).tallies h).bind fun {visited w₁ v₁} hvisited _ h₁ => ?_
  refine .ite (fun _ => .ok h₁) fun _ => ?_
  -- the bases end at a leaf, as they did when it was asked
  have hleaf := hkind w₁ ((learns_isArrayVisited d).ok hvisited).below
  refine Tallies.bind ?_ fun {what _ _} hwhat _ h₂ => ?_
  · unfold inherit
    refine ((heeds_primitiveKind d).tallies h₁).bind fun {answer _ _} hanswer _ h₂ => ?_
    cases hanswer.symm.trans hleaf
    exact (Heeds.bind (heeds_namedLeaf d kind) fun _ => Heeds.pure _).tallies h₂
  · rw [inherit_of_primitiveKind base hleaf] at hwhat
    obtain ⟨leaf, _, _, hwhole⟩ := bind_eq_ok.mp hwhat
    obtain ⟨rfl, -⟩ := pure_eq_ok.mp hwhole
    exact .ok h₂

/-- **The schema of a leaf** is the same for all walks that are abreast. -/
theorem tallies_leaf (hwrapper : d.shape.isWrapper = false)
    (hinline : w.session.Settles (env.isInline d) true) (h : w.Abreast v) :
    Tallies Walk.Abreast (fun _ => False) (env.buildShape builder d w)
      (env.buildShape builder' d v) := by
  have hnamed (hshape : d.shape.isInline = false) : Tallies Walk.Abreast (fun _ => False)
      (env.namedNode builder d w) (env.namedNode builder' d v) := by
    obtain ⟨kind, hkind⟩ := exists_settles_primitiveKind hinline hshape
    exact tallies_namedNode hkind h
  unfold buildShape
  cases hshape : d.shape with
  | nullable | array | map =>
    rw [hshape] at hwrapper
    cases hwrapper
  | primitive | unknown =>
    exact (Heeds.bind (heeds_annotate _ _) fun _ => Heeds.pure _).tallies h
  | enum | object => exact hnamed (by rw [hshape]; rfl)

end

end Environment

end Schemata
