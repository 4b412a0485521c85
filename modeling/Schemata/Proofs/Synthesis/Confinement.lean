import Schemata.Proofs.Synthesis.Meaning

/-!
# What a synthesis reads

A synthesis reads the types that descriptors name, and no others.  So if the types of a set name
types of the set only (`Environment.Closed`), then a synthesis of them reads types of the set, and
a session that had read nothing else stays confined to the set, also when the synthesis fails.

This is a property of the start and the end of a computation, `Walk.Stays`, and is put together
along sequences.  The one step that has to be looked at is the description of a type: the type is
of the set, and so are those that its descriptor names (`stays_describing`).
-/

namespace Schemata

open Build
open Environment (ObjectParts mapInner)

/-- A session is still confined to the types of a set. -/
def Session.Stays (env : Environment) (T : Token → Prop) (s s' : Session) : Prop :=
  s.Confined env T → s'.Confined env T

/-- The session of a walk is still confined to the types of a set. -/
def Walk.Stays (env : Environment) (T : Token → Prop) (w w' : Walk) : Prop :=
  w.session.Stays env T w'.session

instance {env : Environment} {T : Token → Prop} : IsPreorder Session (Session.Stays env T) where
  refl _ := id
  trans _ _ _ h₁ h₂ := h₂ ∘ h₁

instance {env : Environment} {T : Token → Prop} : IsPreorder Walk (Walk.Stays env T) where
  refl _ := id
  trans _ _ _ h₁ h₂ := h₂ ∘ h₁

variable {env : Environment} {T : Token → Prop} {d : Descriptor} {t : Token} {α β : Type}
  {x : Build α} {w w' : Walk} {s s' : Session}

theorem Session.Stays.of_readings (h : s'.readings = s.readings) : s.Stays env T s' := by
  intro hs
  refine ⟨fun i t d hi => hs.wellRead i t d (h ▸ hi), fun e he => hs.readings e (h ▸ he)⟩

/-- A computation that reads no type. -/
theorem stays_of_unread (h : ∀ w, (after x w).session.readings = w.session.readings) :
    Keeps (Walk.Stays env T) x :=
  fun w => .of_readings (h w)

/-! ## Basic steps -/

theorem stays_lift (r : Except Fault α) : Keeps (Walk.Stays env T) (Build.lift r) :=
  .of_still (after_lift r)

theorem stays_asks (f : Session → α) : Keeps (Walk.Stays env T) (asks f) :=
  .of_still fun _ => rfl

theorem stays_update {f : Session → Session} (h : ∀ s, (f s).readings = s.readings) :
    Keeps (Walk.Stays env T) (update f) :=
  stays_of_unread fun w => h w.session

theorem stays_isVisited (k : Key) : Keeps (Walk.Stays env T) (isVisited k) :=
  .of_still (after_isVisited k)

theorem stays_annotate (records : List Record) (n : Node) :
    Keeps (Walk.Stays env T) (Environment.annotate records n) :=
  (stays_lift _).bind fun _ => Keeps.pure _

theorem stays_whileVisiting {k : Key} (h : Keeps (Walk.Stays env T) x) :
    Keeps (Walk.Stays env T) (whileVisiting k x) := by
  intro w
  have hx := h { w with visited := k :: w.visited }
  unfold after whileVisiting at *
  cases hrun : x { w with visited := k :: w.visited } with
  | ok a w' =>
    rw [hrun] at hx
    exact hx
  | error e w' =>
    rw [hrun] at hx
    exact hx

theorem stays_instanceOf (d : Descriptor) : Keeps (Walk.Stays env T) (instanceOf d) := by
  refine (stays_lift _).bind fun _ => (stays_asks _).bind fun found => ?_
  cases found with
  | some e => exact Keeps.pure _
  | none => exact Keeps.bind (stays_of_unread fun _ => rfl) fun _ => Keeps.pure _

theorem stays_capture (d : Descriptor) (q : Property) :
    Keeps (Walk.Stays env T) (capture d q) := by
  refine (stays_instanceOf d).bind fun made => ?_
  cases made.bind fun v => v.held? q.accessorName with
  | none => exact Keeps.pure _
  | some v => exact (stays_lift _).bind fun _ => Keeps.ite (Keeps.pure _) (Keeps.pure _)

namespace Environment

theorem stays_claim (name : String) (d : Descriptor) :
    Keeps (Walk.Stays env T) (env.claim name d) := by
  refine (stays_asks _).bind fun owner => ?_
  cases owner with
  | none => exact stays_update fun _ => rfl
  | some owner => exact Keeps.ite (Keeps.pure _) (Keeps.throw _)

theorem stays_dress (d : Descriptor) (q : Property) (c : Constraints) (held : Node) :
    Keeps (Walk.Stays env T) (env.dress d q c held) := by
  rw [dress_eq]
  exact Keeps.ite ((stays_capture d q).bind fun _ => Keeps.pure _) (Keeps.pure _)

/-! ## Asking about types -/

section

variable (hclosed : env.Closed T)
include hclosed

/-- What the descriptor of a type of the set names is of the set. -/
theorem within_of_describe (hw : w'.session.Confined env T) (ht : T t)
    (h : env.describe t w = .ok d w') : d.Within T := by
  obtain ⟨u, d₀, hu, -, hmeaning, halike⟩ := hw.exists_meaning ht ((reads_describe t).settles h)
  exact fun v hv => hclosed _ _ hu hmeaning v (halike.names hv)

/-- **A type of the set is described**, and what its descriptor names is of the set. -/
theorem stays_describing {f : Descriptor → Build β} (ht : T t)
    (hf : ∀ d, d.Within T → Keeps (Walk.Stays env T) (f d)) :
    Keeps (Walk.Stays env T) (env.describe t >>= f) := by
  intro w hw
  refine Keeps.after_bind (R := Walk.Stays env T) (fun hw => hw.describe ht)
    (fun {d w₁} hd => hf d ?_ w₁) hw
  exact within_of_describe hclosed (after_of_ok hd ▸ hw.describe ht) ht hd

theorem stays_basesFrom (fuel : Nat) (seen : List Identity) (hd : d.Within T) :
    Keeps (Walk.Stays env T) (env.basesFrom fuel seen d) := by
  induction fuel generalizing seen d with
  | zero => exact Keeps.pure _
  | succ fuel ih =>
    unfold basesFrom
    cases hbase : d.base with
    | none => exact Keeps.pure _
    | some t =>
      refine stays_describing hclosed (hd t (.base hbase)) fun b hb => ?_
      exact Keeps.ite (Keeps.pure _) (Keeps.ite (Keeps.pure _)
        ((ih _ hb).bind fun _ => Keeps.pure _))

theorem stays_baseChain (hd : d.Within T) : Keeps (Walk.Stays env T) (env.baseChain d) :=
  stays_basesFrom hclosed _ _ hd

theorem stays_primitiveKind (hd : d.Within T) :
    Keeps (Walk.Stays env T) (env.primitiveKind d) := by
  refine Keeps.ite (Keeps.pure _) ((stays_baseChain hclosed hd).bind fun bases => ?_)
  cases bases.getLast? <;> exact Keeps.pure _

theorem stays_isInline (hd : d.Within T) : Keeps (Walk.Stays env T) (env.isInline d) :=
  Keeps.ite (Keeps.pure _) ((stays_primitiveKind hclosed hd).bind fun _ => Keeps.pure _)

theorem stays_publishesArray (hd : d.Within T) :
    Keeps (Walk.Stays env T) (env.publishesArray d) :=
  Keeps.ite (Keeps.pure _) ((stays_primitiveKind hclosed hd).bind fun _ =>
    Keeps.ite (Keeps.pure _) ((stays_lift _).bind fun _ => Keeps.pure _))

theorem stays_isAwaited (hd : d.Within T) : Keeps (Walk.Stays env T) (env.isAwaited d) :=
  (stays_isVisited _).bind fun _ =>
    Keeps.ite ((stays_publishesArray hclosed hd).bind fun _ => Keeps.pure _) (Keeps.pure _)

theorem stays_isArrayVisited (hd : d.Within T) :
    Keeps (Walk.Stays env T) (env.isArrayVisited d) :=
  (stays_isVisited _).bind fun _ =>
    Keeps.ite (stays_publishesArray hclosed hd) (Keeps.pure _)

theorem stays_namedLeaf (hd : d.Within T) (kind : Kind) :
    Keeps (Walk.Stays env T) (env.namedLeaf d kind) := by
  rw [namedLeaf_eq]
  exact (stays_baseChain hclosed hd).bind fun _ => (stays_lift _).bind fun _ => Keeps.pure _

theorem stays_checkRequired (hd : d.Within T) (o : ObjectParts) :
    Keeps (Walk.Stays env T) (env.checkRequired d o) :=
  (stays_baseChain hclosed hd).bind fun _ => Keeps.ite (Keeps.pure _) (Keeps.throw _)

/-! ## The functions of the synthesis -/

variable {builder : Descriptor → Build Built}
  (hb : ∀ d, d.Within T → Keeps (Walk.Stays env T) (builder d))
include hb

theorem stays_refer (hd : d.Within T) : Keeps (Walk.Stays env T) (env.refer builder d) := by
  refine (stays_isInline hclosed hd).bind fun _ => Keeps.ite ?_ ?_
  · exact (hb d hd).bind fun _ => Keeps.pure _
  refine (stays_asks _).bind fun _ => Keeps.ite ?_ ?_
  · exact (stays_claim _ d).bind fun _ => Keeps.pure _
  refine (stays_isAwaited hclosed hd).bind fun _ => Keeps.ite (Keeps.pure _) ?_
  exact (hb d hd).bind fun _ => Keeps.pure _

theorem stays_referTo (ht : T t) : Keeps (Walk.Stays env T) (env.referTo builder t) :=
  stays_describing hclosed ht fun _ hd => stays_refer hclosed hb hd

theorem stays_addProperty (hd : d.Within T) {q : Property} (hq : q ∈ d.properties)
    (o : ObjectParts) : Keeps (Walk.Stays env T) (env.addProperty builder d o q) := by
  have hheld := stays_referTo hclosed hb (hd _ (.property hq))
  refine (stays_lift _).bind fun c => Keeps.ite (hheld.bind fun _ => Keeps.pure _) ?_
  exact (hheld.bind fun held => stays_dress d q c held).bind fun _ => Keeps.pure _

theorem stays_addProperties (hd : d.Within T) {qs : List Property} (hqs : qs ⊆ d.properties)
    (o : ObjectParts) : Keeps (Walk.Stays env T) (env.addProperties builder d o qs) := by
  induction qs generalizing o with
  | nil => exact Keeps.pure _
  | cons q qs ih =>
    obtain ⟨hq, hqs⟩ := List.cons_subset.mp hqs
    exact (stays_addProperty hclosed hb hd hq o).bind fun o => ih hqs o

theorem stays_populate (hd : d.Within T) (o : ObjectParts) :
    Keeps (Walk.Stays env T) (env.populate builder d o) :=
  (stays_addProperties hclosed hb hd (List.Subset.refl _) o).bind fun o =>
    (stays_checkRequired hclosed hd o).bind fun _ => Keeps.pure _

theorem stays_composedArray (hd : d.Within T) (c : Constraints) (base : Node) :
    Keeps (Walk.Stays env T) (env.composedArray builder d c base) := by
  refine Keeps.ite (Keeps.throw _) ?_
  exact (stays_whileVisiting (stays_populate hclosed hb hd _)).bind fun _ => Keeps.pure _

theorem stays_inherit (hd : d.Within T) (ht : T t) :
    Keeps (Walk.Stays env T) (env.inherit builder d t) := by
  refine (stays_primitiveKind hclosed hd).bind fun kind => ?_
  cases kind with
  | some kind => exact (stays_namedLeaf hclosed hd kind).bind fun _ => Keeps.pure _
  | none =>
    refine (stays_lift _).bind fun c => (stays_referTo hclosed hb ht).bind fun node => ?_
    refine Keeps.ite (Keeps.pure _) (Keeps.ite ?_ (Keeps.pure _))
    exact (stays_composedArray hclosed hb hd c node).bind fun _ => Keeps.pure _

theorem stays_mapNode (hd : d.Within T) (hshape : d.shape = .map) :
    Keeps (Walk.Stays env T) (env.mapNode builder d) := by
  refine stays_describing hclosed (hd _ (.value hshape)) fun value hvalue =>
    Keeps.bind ?_ fun node => stays_annotate _ node
  exact Keeps.ite (Keeps.pure _) ((stays_refer hclosed hb hvalue).bind fun _ => Keeps.pure _)

theorem stays_ownNode (hd : d.Within T) (base : Option Node) :
    Keeps (Walk.Stays env T) (env.ownNode builder d base) := by
  refine Keeps.ite (stays_annotate _ _) ?_
  exact (stays_lift _).bind fun c => (stays_populate hclosed hb hd _).bind fun _ => Keeps.pure _

theorem stays_storeNode (hd : d.Within T) (base : Option Node) :
    Keeps (Walk.Stays env T) (env.storeNode builder d base) := by
  refine (stays_isVisited _).bind fun _ => Keeps.ite (Keeps.pure _) ?_
  refine (stays_of_unread fun _ => rfl).bind fun _ => (stays_claim _ d).bind fun _ => ?_
  refine (stays_asks _).bind fun found => ?_
  cases found with
  | some n => exact Keeps.pure _
  | none =>
    refine (stays_ownNode hclosed hb hd base).bind fun node => ?_
    exact (stays_of_unread fun _ => rfl).bind fun _ => Keeps.pure _

theorem stays_namedNode (hd : d.Within T) :
    Keeps (Walk.Stays env T) (env.namedNode builder d) := by
  unfold namedNode
  cases hbase : d.base with
  | none => exact stays_storeNode hclosed hb hd none
  | some t =>
    refine (stays_isArrayVisited hclosed hd).bind fun _ => Keeps.ite (Keeps.pure _) ?_
    refine (stays_inherit hclosed hb hd (hd t (.base hbase))).bind fun inherited => ?_
    cases inherited with
    | whole node => exact Keeps.pure _
    | base node => exact stays_storeNode hclosed hb hd (some node)

theorem stays_buildShape (hd : d.Within T) :
    Keeps (Walk.Stays env T) (env.buildShape builder d) := by
  have hinner (hshape : d.shape.isWrapper = true) :=
    stays_referTo hclosed hb (hd _ (.inner hshape))
  unfold buildShape
  cases hshape : d.shape with
  | nullable => exact (hinner (by rw [hshape]; rfl)).bind fun _ => Keeps.pure _
  | primitive | unknown => exact (stays_annotate _ _).bind fun _ => Keeps.pure _
  | array =>
    exact (hinner (by rw [hshape]; rfl)).bind fun _ =>
      (stays_annotate _ _).bind fun _ => Keeps.pure _
  | map => exact (stays_mapNode hclosed hb hd hshape).bind fun _ => Keeps.pure _
  | enum | object => exact stays_namedNode hclosed hb hd

end

/-- **Building a type of the set reads types of the set only.** -/
theorem stays_build (hclosed : env.Closed T) (n : Nat) (hd : d.Within T) :
    Keeps (Walk.Stays env T) (env.build n d) := by
  induction n generalizing d with
  | zero => exact Keeps.throw _
  | succ n ih =>
    intro w hw
    obtain ⟨w₁, hw₁, heq⟩ := after_deepening env d (env.buildShape (env.build n) d) w
    rw [build, heq]
    -- the depth that is counted has nothing to do with what is read
    have hdeeper : (w.atDepth (w.session.depth + 1)).session.Confined env T :=
      Session.Stays.of_readings (s := w.session) rfl hw
    refine Session.Stays.of_readings (s := w₁.session) rfl ?_
    rcases hw₁ with rfl | rfl
    · exact hdeeper
    · exact stays_buildShape hclosed (fun _ hd => ih hd) hd _ hdeeper

end Environment

end Schemata
