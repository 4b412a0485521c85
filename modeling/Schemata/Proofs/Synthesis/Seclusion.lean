import Schemata.Proofs.Synthesis.Canonical
import Schemata.Proofs.Synthesis.Handmade

/-!
# Graphs that nothing is read for

In a graph made by hand (`Environment.Linked`) nothing is ever read off the program, so that it is
no matter what else the program declares.  This is made use of in one way.  Whether types have
distinct keys is a question about all types of an environment, those that are read off the program
included, and a descriptor made by hand may name one of these for its source without taking its
place.  `Environment.secluded` is the environment in which every declaration is a leaf, and nothing
but descriptors made by hand is published by name: there the question is one about these alone
(`keysDistinct_secluded`).

What is asked, built and published is the same in both.

* `Build.Agree` says of two computations that they do the same and read nothing.  The lemmas
  `agree_…` follow the functions of the synthesis.
* The graph is the same (`Linked.reaches_withKinds`), and so is how its types are published.
-/

namespace Schemata

open Environment (ObjectParts mapInner)

/-- Every declaration of a program as a leaf. -/
def Program.leaves (p : Program) : Kinds :=
  Builtin.all.map (fun b => (.builtin b, .any)) ++
    (List.range p.classes.length).map (fun i => (.declared i, .any)) ++
    (List.range p.brands.length).map fun i => (.brand i, .any)

namespace Environment

/-- The environment with other leaf types. -/
def withKinds (env : Environment) (ks : Kinds) : Environment :=
  { env with kinds := ks }

/-- **The environment in which every declaration is a leaf.** -/
def secluded (env : Environment) : Environment :=
  env.withKinds env.program.leaves

end Environment

/-! ## Keys of descriptors made by hand -/

namespace Program

variable {p : Program} {t : Token} {d : Descriptor}

/-- A declaration among leaf types is one of them. -/
theorem isSome_kindOf? {ks : Kinds} {k : Kind} (hdeclared : t.isDeclaration = true)
    (h : (t, k) ∈ ks) : (ks.kindOf? t).isSome = true := by
  have hkey : t.checkKey = .ok () := by
    cases t with
    | builtin | brand | declared => rfl
    | _ => cases hdeclared
  unfold Kinds.kindOf?
  rw [hkey]
  cases hfind : ks.find? fun e => e.1.same t with
  | some e => rfl
  | none =>
    exact absurd (Token.same_of_isDeclaration hdeclared) (List.find?_eq_none.mp hfind (t, k) h)

/-- A declaration is one of the leaves, unless the program has none there. -/
theorem mem_leaves (hdeclared : t.isDeclaration = true) : (t, .any) ∈ p.leaves ∨
    (∃ i, t = .declared i ∧ p.classes[i]? = none) ∨ ∃ i, t = .brand i ∧ p.brands[i]? = none := by
  unfold leaves
  cases t with
  | builtin b =>
    refine .inl (List.mem_append_left _ (List.mem_append_left _ (List.mem_map_of_mem ?_)))
    cases b <;> decide
  | declared i =>
    by_cases hi : i < p.classes.length
    · exact .inl (List.mem_append_left _ (List.mem_append_right _
        (List.mem_map_of_mem (List.mem_range.mpr hi))))
    · exact .inr (.inl ⟨i, rfl, List.getElem?_eq_none (Nat.le_of_not_lt hi)⟩)
  | brand i =>
    by_cases hi : i < p.brands.length
    · exact .inl (List.mem_append_right _ (List.mem_map_of_mem (List.mem_range.mpr hi)))
    · exact .inr (.inr ⟨i, rfl, List.getElem?_eq_none (Nat.le_of_not_lt hi)⟩)
  | _ => cases hdeclared

/-- Where every declaration is a leaf, a declaration is a leaf or it is not there. -/
theorem isInline_read_leaves (h : p.read p.leaves t = .ok d) : d.shape.isInline = true := by
  by_contra hshape
  rw [Bool.not_eq_true] at hshape
  obtain ⟨-, hdeclared⟩ := source_of_read h hshape
  unfold read at h
  dsimp only at h
  cases hleaf : Kinds.kindOf? p.leaves t.bare with
  | some k =>
    rw [hleaf] at h
    cases h
    cases hshape
  | none =>
    rw [hleaf] at h
    rcases mem_leaves (p := p) hdeclared with hmem | ⟨i, hi, hnone⟩ | ⟨i, hi, hnone⟩
    · have hsome := isSome_kindOf? hdeclared hmem
      rw [hleaf] at hsome
      cases hsome
    all_goals
      rw [hi] at h
      simp only [optional?, readStructure, hnone] at h
      cases h
      cases hshape

end Program

namespace Environment

variable {env : Environment}

/-- **Objects and enumerations made by hand have distinct keys and distinct names.** -/
structure Distinct (env : Environment) : Prop where
  keys : ∀ {i j}, i < env.size → j < env.size → (env.handmade i).shape.isInline = false →
    (env.handmade j).shape.isInline = false →
    (env.handmade i).key.same (env.handmade j).key = true → i = j
  names : ∀ {i j}, i < env.size → j < env.size → (env.handmade i).shape.isInline = false →
    (env.handmade j).shape.isInline = false →
    (env.handmade i).name = (env.handmade j).name → i = j

/-- Keys and names that can be told apart one by one. -/
theorem distinct_of_fin (h : ∀ i j : Fin env.size,
    ((env.handmade i).key.same (env.handmade j).key = true ∨
      (env.handmade i).name = (env.handmade j).name) → i = j) : env.Distinct where
  keys hi hj _ _ hsame := Fin.mk.inj (h ⟨_, hi⟩ ⟨_, hj⟩ (.inl hsame))
  names hi hj _ _ hname := Fin.mk.inj (h ⟨_, hi⟩ ⟨_, hj⟩ (.inr hname))

/-- **Where every declaration is a leaf**, keys are distinct if those of descriptors made by hand
are. -/
theorem keysDistinct_secluded (h : env.Distinct) : env.secluded.KeysDistinct := by
  have hcrafted {d : Descriptor} (hd : env.secluded.Declares d)
      (hshape : d.shape.isInline = false) :
      ∃ i, i < env.size ∧ env.program.crafted[i]? = some d := by
    rcases hd with hd | ⟨t, ht⟩
    · obtain ⟨i, hi⟩ := List.mem_iff_getElem?.mp hd
      exact ⟨i, (List.getElem?_eq_some_iff.mp hi).1, hi⟩
    · cases hshape.symm.trans (Program.isInline_read_leaves ht)
  intro d d' t t' hd hd' hshape hshape' hsource hsource' hsame
  obtain ⟨i, hi, hget⟩ := hcrafted hd hshape
  obtain ⟨j, hj, hget'⟩ := hcrafted hd' hshape'
  have hhand : env.handmade i = { d with identity := .crafted i } := by rw [handmade, hget]; rfl
  have hhand' : env.handmade j = { d' with identity := .crafted j } := by rw [handmade, hget']; rfl
  obtain rfl : i = j := by
    refine h.keys hi hj (by rw [hhand]; exact hshape) (by rw [hhand']; exact hshape') ?_
    rw [hhand, hhand']
    unfold Key.same Descriptor.key
    rw [hsource, hsource']
    exact Bool.or_eq_true _ _ ▸ .inl hsame
  cases hget.symm.trans hget'
  exact .refl d

end Environment

/-! ## Computations that read nothing -/

/-- Nothing is read between two walks. -/
def Walk.Unread (w w' : Walk) : Prop :=
  w'.session.readings = w.session.readings

instance : IsPreorder Walk Walk.Unread where
  refl _ := rfl
  trans _ _ _ h₁ h₂ := h₂.trans h₁

namespace Build

variable {α β : Type}

/-- **Two computations do the same and read nothing.** -/
structure Agree (x y : Build α) : Prop where
  eq : x = y
  unread : Keeps Walk.Unread x

namespace Agree

variable {x y : Build α}

theorem of_unread (h : Keeps Walk.Unread x) : Agree x x :=
  ⟨rfl, h⟩

theorem pure (a : α) : Agree (pure a : Build α) (pure a) :=
  .of_unread (Keeps.pure a)

/-- Computations that only give an answer. -/
theorem of_pure (hx : ∃ a, x = Pure.pure a) (h : y = x) : Agree x y := by
  obtain ⟨a, rfl⟩ := hx
  exact ⟨h.symm, Keeps.pure a⟩

theorem throw (e : Fault) : Agree (throw e : Build α) (throw e) :=
  .of_unread (Keeps.throw e)

theorem lift (r : Except Fault α) : Agree (Build.lift r) (Build.lift r) :=
  .of_unread (Keeps.of_still (after_lift r))

theorem asks (f : Session → α) : Agree (Build.asks f) (Build.asks f) :=
  .of_unread (Keeps.of_still fun _ => rfl)

theorem bind {f g : α → Build β} (h : Agree x y) (hfg : ∀ a, Agree (f a) (g a)) :
    Agree (x >>= f) (y >>= g) where
  eq := by
    rw [h.eq]
    exact congrArg (y >>= ·) (funext fun a => (hfg a).eq)
  unread := h.unread.bind fun a => (hfg a).unread

/-- The two sides of a choice. -/
theorem ite {c : Prop} [Decidable c] {x' y' : Build α} (h : Agree x y) (h' : Agree x' y') :
    Agree (if c then x else x') (if c then y else y') := by
  split
  · exact h
  · exact h'

theorem isVisited (k : Key) : Agree (Build.isVisited k) (Build.isVisited k) :=
  .bind (.lift _) fun _ => .of_unread (Keeps.of_still fun _ => rfl)

theorem visit (k : Key) : Agree (Build.visit k) (Build.visit k) :=
  .of_unread fun _ => rfl

theorem whileVisiting {k : Key} (h : Agree x y) :
    Agree (Build.whileVisiting k x) (Build.whileVisiting k y) where
  eq := by rw [h.eq]
  unread := by
    intro w
    have hbody := h.unread { w with visited := k :: w.visited }
    unfold after Build.whileVisiting at *
    cases hx : x { w with visited := k :: w.visited } with
    | ok a w' =>
      rw [hx] at hbody
      exact hbody
    | error e w' =>
      rw [hx] at hbody
      exact hbody

theorem capture (d : Descriptor) (q : Property) :
    Agree (Build.capture d q) (Build.capture d q) := by
  unfold Build.capture
  refine .bind ?_ fun made => ?_
  · refine .bind (.lift _) fun _ => .bind (.asks _) fun found => ?_
    cases found with
    | some e => exact .pure _
    | none => exact .bind (.of_unread fun _ => rfl) fun _ => .pure _
  · split
    · exact .pure _
    · exact .bind (.lift _) fun _ => .ite (.pure _) (.pure _)

end Agree

end Build

namespace Environment

open Build

variable {env : Environment} {i n : Nat} (ks : Kinds)

theorem agree_annotate (records : List Record) (m : Node) :
    Agree (annotate records m) (annotate records m) :=
  .bind (.lift _) fun _ => .pure _

theorem agree_claim (name : String) (d : Descriptor) :
    Agree (env.claim name d) ((env.withKinds ks).claim name d) := by
  show Agree (env.claim name d) (env.claim name d)
  unfold claim
  refine .bind (.asks _) fun owner => ?_
  cases owner with
  | none => exact .of_unread fun _ => rfl
  | some owner => exact .ite (.pure _) (.throw _)

theorem agree_dress (d : Descriptor) (q : Property) (c : Constraints) (held : Node) :
    Agree (env.dress d q c held) ((env.withKinds ks).dress d q c held) := by
  show Agree (env.dress d q c held) (env.dress d q c held)
  unfold dress
  simp only
  split
  · refine .ite (.bind (.capture d q) fun v => ?_) (.pure _)
    cases v with
    | some v => exact .pure _
    | none => exact .pure _
  · exact .pure _

/-- A computation that reads nothing reads nothing while depth is counted. -/
theorem agree_deepening {α : Type} {x y : Build α} (h : Agree x y)
    (d : Descriptor) : Agree (env.deepening d x) ((env.withKinds ks).deepening d y) where
  eq := by
    rw [h.eq]
    rfl
  unread := by
    intro w
    obtain ⟨w₁, hw₁, heq⟩ := after_deepening env d x w
    rw [heq]
    rcases hw₁ with rfl | rfl
    · rfl
    · exact h.unread (w.atDepth (w.session.depth + 1))

namespace Linked

variable (hlinked : env.Linked)
include hlinked

/-! ## Questions about descriptors made by hand -/

theorem basesFrom_withKinds (fuel : Nat) (seen : List Identity) (hi : i < env.size) :
    (env.withKinds ks).basesFrom fuel seen (env.handmade i) =
      env.basesFrom fuel seen (env.handmade i) := by
  induction fuel generalizing seen i with
  | zero => rfl
  | succ fuel ih =>
    unfold basesFrom
    cases hbase : (env.handmade i).base with
    | none => rfl
    | some t =>
      obtain ⟨j, hj, rfl⟩ := hlinked.exists_of_mem hi (Descriptor.base_mem_tokens hbase)
      show (pure (env.handmade j) >>= _ : Build _) = pure (env.handmade j) >>= _
      simp only [pure_bind, ih _ hj]

theorem baseChain_withKinds (hi : i < env.size) :
    (env.withKinds ks).baseChain (env.handmade i) = env.baseChain (env.handmade i) :=
  hlinked.basesFrom_withKinds ks _ _ hi

theorem primitiveKind_withKinds (hi : i < env.size) :
    (env.withKinds ks).primitiveKind (env.handmade i) = env.primitiveKind (env.handmade i) := by
  unfold primitiveKind
  rw [hlinked.baseChain_withKinds ks hi]

theorem agree_baseChain (hi : i < env.size) :
    Agree (env.baseChain (env.handmade i)) ((env.withKinds ks).baseChain (env.handmade i)) :=
  .of_pure (hlinked.baseChain_eq hi) (hlinked.baseChain_withKinds ks hi)

theorem agree_primitiveKind (hi : i < env.size) :
    Agree (env.primitiveKind (env.handmade i))
      ((env.withKinds ks).primitiveKind (env.handmade i)) :=
  .of_pure (hlinked.primitiveKind_eq hi) (hlinked.primitiveKind_withKinds ks hi)

theorem agree_isInline (hi : i < env.size) :
    Agree (env.isInline (env.handmade i)) ((env.withKinds ks).isInline (env.handmade i)) := by
  unfold isInline
  exact .ite (.pure _) (.bind (hlinked.agree_primitiveKind ks hi) fun _ => .pure _)

theorem agree_publishesArray (hi : i < env.size) :
    Agree (env.publishesArray (env.handmade i))
      ((env.withKinds ks).publishesArray (env.handmade i)) := by
  unfold publishesArray
  refine .ite (.pure _) (.bind (hlinked.agree_primitiveKind ks hi) fun kind => ?_)
  exact .ite (.pure _) (.bind (.lift _) fun _ => .pure _)

theorem agree_isAwaited (hi : i < env.size) :
    Agree (env.isAwaited (env.handmade i)) ((env.withKinds ks).isAwaited (env.handmade i)) :=
  .bind (.isVisited _) fun _ =>
    .ite (.bind (hlinked.agree_publishesArray ks hi) fun _ => .pure _) (.pure _)

theorem agree_isArrayVisited (hi : i < env.size) :
    Agree (env.isArrayVisited (env.handmade i))
      ((env.withKinds ks).isArrayVisited (env.handmade i)) :=
  .bind (.isVisited _) fun _ => .ite (hlinked.agree_publishesArray ks hi) (.pure _)

theorem agree_checkRequired (hi : i < env.size) (o : ObjectParts) :
    Agree (env.checkRequired (env.handmade i) o)
      ((env.withKinds ks).checkRequired (env.handmade i) o) := by
  unfold checkRequired
  exact .bind (hlinked.agree_baseChain ks hi) fun _ => .ite (.pure _) (.throw _)

theorem agree_namedLeaf (hi : i < env.size) (kind : Kind) :
    Agree (env.namedLeaf (env.handmade i) kind)
      ((env.withKinds ks).namedLeaf (env.handmade i) kind) := by
  unfold namedLeaf
  refine .bind (hlinked.agree_baseChain ks hi) fun bases => .bind (.lift _) fun c => ?_
  cases c.apply kind.schema with
  | leaf k type => exact .pure _
  | _ => exact .pure _

/-! ## The functions of the synthesis -/

section

variable {builder builder' : Descriptor → Build Built}
  (hb : ∀ i, i < env.size → Agree (builder (env.handmade i)) (builder' (env.handmade i)))
include hb

theorem agree_refer (hi : i < env.size) :
    Agree (env.refer builder (env.handmade i))
      ((env.withKinds ks).refer builder' (env.handmade i)) := by
  unfold refer
  refine .bind (hlinked.agree_isInline ks hi) fun _ => .ite ?_ ?_
  · exact .bind (hb i hi) fun _ => .pure _
  refine .bind (.asks _) fun _ => .ite ?_ ?_
  · exact .bind (agree_claim ks _ _) fun _ => .pure _
  refine .bind (hlinked.agree_isAwaited ks hi) fun _ => .ite (.pure _) ?_
  exact .bind (hb i hi) fun _ => .pure _

/-- What holds a type that a descriptor names. -/
theorem agree_referTo (hi : i < env.size) {t : Token} (ht : t ∈ (env.handmade i).tokens) :
    Agree (env.referTo builder t) ((env.withKinds ks).referTo builder' t) := by
  obtain ⟨j, hj, rfl⟩ := hlinked.exists_of_mem hi ht
  unfold referTo
  rw [describe_handmade, show (env.withKinds ks).describe (.crafted j) = pure (env.handmade j)
    from rfl, pure_bind, pure_bind]
  exact hlinked.agree_refer ks hb hj

theorem agree_addProperty (hi : i < env.size) (o : ObjectParts) {q : Property}
    (hq : q ∈ (env.handmade i).properties) :
    Agree (env.addProperty builder (env.handmade i) o q)
      ((env.withKinds ks).addProperty builder' (env.handmade i) o q) := by
  have hrefer := hlinked.agree_referTo ks hb hi (Descriptor.type_mem_tokens hq)
  unfold addProperty propertyNode
  refine .bind (.lift _) fun c => .ite ?_ ?_
  · exact .bind hrefer fun _ => .pure _
  · exact .bind (.bind hrefer fun held => agree_dress ks _ q c held) fun _ => .pure _

theorem agree_addProperties (hi : i < env.size) (o : ObjectParts) {qs : List Property}
    (hqs : qs ⊆ (env.handmade i).properties) :
    Agree (env.addProperties builder (env.handmade i) o qs)
      ((env.withKinds ks).addProperties builder' (env.handmade i) o qs) := by
  induction qs generalizing o with
  | nil => exact .pure _
  | cons q qs ih =>
    obtain ⟨hq, hqs⟩ := List.cons_subset.mp hqs
    exact .bind (hlinked.agree_addProperty ks hb hi o hq) fun o => ih o hqs

theorem agree_populate (hi : i < env.size) (o : ObjectParts) :
    Agree (env.populate builder (env.handmade i) o)
      ((env.withKinds ks).populate builder' (env.handmade i) o) :=
  .bind (hlinked.agree_addProperties ks hb hi o fun _ => id) fun _ =>
    .bind (hlinked.agree_checkRequired ks hi _) fun _ => .pure _

theorem agree_composedArray (hi : i < env.size) (c : Constraints) (base : Node) :
    Agree (env.composedArray builder (env.handmade i) c base)
      ((env.withKinds ks).composedArray builder' (env.handmade i) c base) := by
  unfold composedArray
  refine .ite (.throw _) ?_
  exact .bind (.whileVisiting (hlinked.agree_populate ks hb hi _)) fun _ => .pure _

theorem agree_inherit (hi : i < env.size) {base : Token}
    (hbase : base ∈ (env.handmade i).tokens) :
    Agree (env.inherit builder (env.handmade i) base)
      ((env.withKinds ks).inherit builder' (env.handmade i) base) := by
  unfold inherit
  refine .bind (hlinked.agree_primitiveKind ks hi) fun kind => ?_
  cases kind with
  | some kind => exact .bind (hlinked.agree_namedLeaf ks hi kind) fun _ => .pure _
  | none =>
    refine .bind (.lift _) fun c => .bind (hlinked.agree_referTo ks hb hi hbase) fun node => ?_
    refine .ite (.pure _) (.ite ?_ (.pure _))
    exact .bind (hlinked.agree_composedArray ks hb hi c node) fun _ => .pure _

theorem agree_mapNode (hi : i < env.size) (hshape : (env.handmade i).shape = .map) :
    Agree (env.mapNode builder (env.handmade i))
      ((env.withKinds ks).mapNode builder' (env.handmade i)) := by
  have hinner : (env.handmade i).inner ∈ (env.handmade i).tokens :=
    Descriptor.inner_mem_tokens (by rw [hshape]; rfl)
  obtain ⟨j, hj, heq⟩ := hlinked.exists_of_mem hi hinner
  unfold mapNode mapTo
  rw [mapInner, heq, if_neg (by exact Bool.false_ne_true), describe_handmade,
    show (env.withKinds ks).describe (.crafted j) = pure (env.handmade j) from rfl, pure_bind,
    pure_bind]
  refine .bind (.ite (.pure _) ?_) fun node => agree_annotate _ node
  exact .bind (hlinked.agree_refer ks hb hj) fun _ => .pure _

theorem agree_ownNode (hi : i < env.size) (base : Option Node) :
    Agree (env.ownNode builder (env.handmade i) base)
      ((env.withKinds ks).ownNode builder' (env.handmade i) base) := by
  unfold ownNode ownObject
  refine .ite (agree_annotate _ _) ?_
  exact .bind (.lift _) fun c => .bind (hlinked.agree_populate ks hb hi _) fun o => .pure _

theorem agree_storeNode (hi : i < env.size) (base : Option Node) :
    Agree (env.storeNode builder (env.handmade i) base)
      ((env.withKinds ks).storeNode builder' (env.handmade i) base) := by
  unfold storeNode
  refine .bind (.isVisited _) fun _ => .ite (.pure _) (.bind (.visit _) fun _ => ?_)
  refine .bind (agree_claim ks _ _) fun _ => .bind (.asks _) fun found => ?_
  cases found with
  | some n => exact .pure _
  | none =>
    refine .bind (hlinked.agree_ownNode ks hb hi base) fun node => .bind ?_ fun _ => .pure _
    exact .of_unread fun _ => rfl

theorem agree_namedNode (hi : i < env.size) :
    Agree (env.namedNode builder (env.handmade i))
      ((env.withKinds ks).namedNode builder' (env.handmade i)) := by
  unfold namedNode
  cases hbase : (env.handmade i).base with
  | none => exact hlinked.agree_storeNode ks hb hi none
  | some base =>
    refine .bind (hlinked.agree_isArrayVisited ks hi) fun _ => .ite (.pure _) ?_
    refine .bind (hlinked.agree_inherit ks hb hi (Descriptor.base_mem_tokens hbase))
      fun inherited => ?_
    cases inherited with
    | whole node => exact .pure _
    | base node => exact hlinked.agree_storeNode ks hb hi (some node)

theorem agree_buildShape (hi : i < env.size) :
    Agree (env.buildShape builder (env.handmade i))
      ((env.withKinds ks).buildShape builder' (env.handmade i)) := by
  have hinner (hshape : (env.handmade i).shape.isWrapper = true) :=
    hlinked.agree_referTo ks hb hi (Descriptor.inner_mem_tokens hshape)
  unfold buildShape
  cases hshape : (env.handmade i).shape with
  | nullable => exact .bind (hinner (by rw [hshape]; rfl)) fun _ => .pure _
  | primitive | unknown => exact .bind (agree_annotate _ _) fun _ => .pure _
  | array =>
    exact .bind (hinner (by rw [hshape]; rfl)) fun _ => .bind (agree_annotate _ _) fun _ => .pure _
  | map => exact .bind (hlinked.agree_mapNode ks hb hi hshape) fun _ => .pure _
  | enum | object => exact hlinked.agree_namedNode ks hb hi

end

/-- **Building a type made by hand** is the same whatever else is declared, and reads nothing. -/
theorem agree_build (n : Nat) (hi : i < env.size) :
    Agree (env.build n (env.handmade i)) ((env.withKinds ks).build n (env.handmade i)) := by
  induction n generalizing i with
  | zero => exact .throw _
  | succ n ih => exact agree_deepening ks (hlinked.agree_buildShape ks (fun _ => ih) hi) _

theorem agree_referRoot (hi : i < env.size) :
    Agree (env.referRoot (env.handmade i)) ((env.withKinds ks).referRoot (env.handmade i)) :=
  hlinked.agree_refer ks (fun _ => hlinked.agree_build ks env.levels) hi

/-! ## The graph

What is known of descriptors made by hand in one session is known in every other, and whatever else
is declared. -/

variable {s : Session} (s' : Session) {x : Descriptor} {t : Token}

/-- What is settled for a descriptor made by hand is an answer that needs no session. -/
theorem settles_primitiveKind_withKinds (hi : i < env.size) {kind : Option Kind}
    (h : s.Settles (env.primitiveKind (env.handmade i)) kind) :
    s'.Settles ((env.withKinds ks).primitiveKind (env.handmade i)) kind := by
  rw [hlinked.primitiveKind_withKinds ks hi]
  obtain ⟨kind', heq⟩ := hlinked.primitiveKind_eq hi
  rw [heq] at h ⊢
  obtain ⟨rfl, -⟩ := pure_eq_ok.mp (h ⟨s, []⟩ (.refl s))
  exact fun _ _ => rfl

theorem published_withKinds (hi : i < env.size) (h : Published env s (env.handmade i)) :
    Published (env.withKinds ks) s' (env.handmade i) :=
  ⟨h.shape, hlinked.settles_primitiveKind_withKinds ks s' hi h.kind, h.base⟩

theorem arrayed_withKinds (hi : i < env.size) (h : Arrayed env s (env.handmade i)) :
    Arrayed (env.withKinds ks) s' (env.handmade i) :=
  ⟨h.shape, hlinked.settles_primitiveKind_withKinds ks s' hi h.kind, h.base, h.properties, h.array⟩

theorem partOf_withKinds (hi : i < env.size) (h : PartOf env s (env.handmade i) t) :
    PartOf (env.withKinds ks) s' (env.handmade i) t := by
  cases h with
  | inner hshape => exact .inner hshape
  | value hshape => exact .value hshape
  | base hshape hkind hbase =>
    exact .base hshape (hlinked.settles_primitiveKind_withKinds ks s' hi hkind) hbase
  | property hkind hobject hq =>
    exact .property (hlinked.settles_primitiveKind_withKinds ks s' hi hkind)
      (hobject.imp_right (hlinked.arrayed_withKinds ks s' hi)) hq

/-- A descriptor that another one names was made by hand. -/
theorem exists_of_settles (hi : i < env.size) (ht : t ∈ (env.handmade i).tokens)
    (h : s.Settles (env.describe t) x) : ∃ j, j < env.size ∧ x = env.handmade j ∧
      s'.Settles ((env.withKinds ks).describe t) x := by
  obtain ⟨j, hj, rfl⟩ := hlinked.exists_of_mem hi ht
  obtain ⟨rfl, -⟩ := pure_eq_ok.mp (h ⟨s, []⟩ (.refl s))
  exact ⟨j, hj, rfl, fun _ _ => rfl⟩

/-- **Descriptors made by hand lead to the same descriptors** in every session, and whatever else
is declared. -/
theorem reaches_withKinds (hi : i < env.size) (h : Reaches env s (env.handmade i) x) :
    ∃ j, j < env.size ∧ x = env.handmade j ∧
      Reaches (env.withKinds ks) s' (env.handmade i) x := by
  induction h with
  | refl => exact ⟨i, hi, rfl, .refl⟩
  | tail _ hpoints ih =>
    obtain ⟨j, hj, rfl, hreaches⟩ := ih
    obtain ⟨t, ht, hx⟩ := hpoints
    obtain ⟨k, hk, rfl, hx'⟩ :=
      hlinked.exists_of_settles ks s' hj (hlinked.mem_tokens_of_partOf hj ht) hx
    exact ⟨k, hk, rfl, hreaches.tail ⟨t, hlinked.partOf_withKinds ks s' hj ht, hx'⟩⟩

theorem selfBased_withKinds (hi : i < env.size) (h : SelfBased env s (env.handmade i)) :
    SelfBased (env.withKinds ks) s' (env.handmade i) := by
  obtain ⟨base, b, x, hbase, hb, hx, hpub, hsame⟩ := h
  obtain ⟨j, hj, rfl, hb'⟩ :=
    hlinked.exists_of_settles ks s' hi (Descriptor.base_mem_tokens hbase) hb
  obtain ⟨k, hk, rfl, hx'⟩ := hlinked.reaches_withKinds ks s' hj hx
  exact ⟨base, _, _, hbase, hb', hx', hlinked.published_withKinds ks s' hk hpub, hsame⟩

theorem selfHeld_withKinds (hi : i < env.size) (h : SelfHeld env s (env.handmade i)) :
    SelfHeld (env.withKinds ks) s' (env.handmade i) := by
  obtain ⟨harr, q, hq, y, x, a, hy, hx, hpub, ha, harr', hsame⟩ := h
  obtain ⟨j, hj, rfl, hy'⟩ :=
    hlinked.exists_of_settles ks s' hi (Descriptor.type_mem_tokens hq) hy
  obtain ⟨k, hk, rfl, hx'⟩ := hlinked.reaches_withKinds ks s' hj hx
  obtain ⟨l, hl, rfl, ha'⟩ := hlinked.reaches_withKinds ks s' hk ha
  exact ⟨hlinked.arrayed_withKinds ks s' hi harr, q, hq, _, _, _, hy', hx',
    hlinked.published_withKinds ks s' hk hpub, ha', hlinked.arrayed_withKinds ks s' hl harr', hsame⟩

end Linked

end Environment

end Schemata
