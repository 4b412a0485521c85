import Schemata.Proofs.Fault.Causes
import Schemata.Proofs.Synthesis.Handmade
import Mathlib.Data.Finset.Card
import Mathlib.Data.Finset.Filter
import Mathlib.Logic.Relation

/-!
# How deep types nest

A synthesis counts the types that it builds inside one another, and gives up when there are too
many.  In a graph made by hand, where neither wrappers nor bases lead back to where they started,
that takes a graph which is large compared to the limit: cycles through properties do not nest
without end.

Whatever is built inside a type is one of two things.

* It is what the type *rests* on: the type that it wraps, or its base.  Nothing more is visited
  then than before, but the part has a smaller *rank*, which counts the types below it.
* It is the type of one of its properties.  Properties are gone through only while the type
  itself is visited, so that there is one less among the types that are not.

`Environment.need` puts the two together, the types that are not visited first.  A type is built at
all only if it is not visited or is none of those that ever are, and in either case what is built
inside it needs less than it does.  So a type that is built with as many levels to spare as it
needs is not refused (`clears_build`).  An array of compositions is no exception, although it is
not visited any more when it has been built: what was visited when it was begun is visited when
it is finished.
-/

namespace Schemata

/-- A fault that says that types nest too deep. -/
def Fault.isDepth : Fault → Bool
  | .tooDeep .. => true
  | _ => false

theorem Fault.OfKey.isDepth_eq {e : Fault} (h : e.OfKey) : e.isDepth = false := by
  rcases h with rfl | ⟨_, rfl⟩ <;> rfl

theorem Fault.OfAnnotation.isDepth_eq {e : Fault} (h : e.OfAnnotation) : e.isDepth = false := by
  rcases h with rfl | rfl | rfl <;> rfl

/-- A walk goes on: what was visited is visited still, and the depth is the same. -/
structure Walk.Onward (w w' : Walk) : Prop where
  visited : w.visited ⊆ w'.visited
  depth : w'.session.depth = w.session.depth

namespace Walk.Onward

variable {w w₁ w₂ : Walk}

theorem refl (w : Walk) : w.Onward w :=
  ⟨fun _ => id, rfl⟩

theorem trans (h₁ : w.Onward w₁) (h₂ : w₁.Onward w₂) : w.Onward w₂ :=
  ⟨List.Subset.trans h₁.visited h₂.visited, h₂.depth.trans h₁.depth⟩

end Walk.Onward

/-! ## Computations that do not fail for want of depth -/

namespace Build

variable {env : Environment} {α β : Type} {Q Q' : Walk → Prop} {x : Build α} {w : Walk}

/-- A computation that may fail, but not because types nest too deep, and that ends in a walk of a
sort where it succeeds. -/
def Clears (Q : Walk → Prop) (x : Build α) (w : Walk) : Prop :=
  match x w with
  | .ok _ w' => Q w'
  | .error e _ => e.isDepth = false

namespace Clears

theorem of_ok {w' : Walk} {a : α} (h : x w = .ok a w') (hQ : Q w') : Clears Q x w := by
  rw [Clears, h]
  exact hQ

theorem ok (h : Clears Q x w) {w' : Walk} {a : α} (hx : x w = .ok a w') : Q w' := by
  rwa [Clears, hx] at h

theorem error (h : Clears Q x w) {w' : Walk} {e : Fault} (hx : x w = .error e w') :
    e.isDepth = false := by
  rwa [Clears, hx] at h

theorem mono (h : Clears Q x w) (hQ : ∀ w', Q w' → Q' w') : Clears Q' x w := by
  unfold Clears at h ⊢
  cases hx : x w with
  | ok a w' =>
    rw [hx] at h
    exact hQ w' h
  | error e w' =>
    rw [hx] at h
    exact h

theorem pure (a : α) (hQ : Q w) : Clears Q (pure a : Build α) w :=
  hQ

theorem throw {e : Fault} (h : e.isDepth = false) : Clears Q (throw e : Build α) w :=
  h

theorem bind {f : α → Build β} (hx : Clears Q x w)
    (hf : ∀ a w', x w = .ok a w' → Q w' → Clears Q' (f a) w') : Clears Q' (x >>= f) w := by
  unfold Clears
  cases h : x w with
  | ok a w' =>
    rw [bind_of_ok h]
    exact hf a w' h (hx.ok h)
  | error e w' =>
    rw [show (x >>= f) w = .error e w' from bind_eq_error.mpr (.inl h)]
    exact hx.error h

/-- A sequence that goes on from one part to the next. -/
theorem then_ {f : α → Build β} (hx : Clears w.Onward x w)
    (hf : ∀ a w', w.Onward w' → Clears w'.Onward (f a) w') : Clears w.Onward (x >>= f) w :=
  hx.bind fun a w' _ h => (hf a w' h).mono fun _ => h.trans

theorem ite {c : Prop} [Decidable c] {y : Build α} (hx : Clears Q x w) (hy : Clears Q y w) :
    Clears Q (if c then x else y) w := by
  split
  · exact hx
  · exact hy

theorem lift {r : Except Fault α} (h : FailsOnly (·.isDepth = false) r) (hQ : Q w) :
    Clears Q (lift r) w := by
  cases r with
  | ok a => exact hQ
  | error e => exact h e rfl

theorem merge (records : List Record) (hQ : Q w) :
    Clears Q (Build.lift (Constraints.merge records)) w :=
  lift ((Constraints.failsOnly_merge records).mono fun _ => Fault.OfAnnotation.isDepth_eq) hQ

theorem check (k : Key) (hQ : Q w) : Clears Q (Build.lift k.check) w :=
  lift (k.failsOnly_check.mono fun _ => Fault.OfKey.isDepth_eq) hQ

theorem isVisited (k : Key) (hQ : Q w) : Clears Q (isVisited k) w :=
  (check k hQ).bind fun _ _ h _ => of_ok rfl (by rwa [(lift_eq_ok.mp h).2])

theorem instanceOf (d : Descriptor) : Clears w.Onward (instanceOf d) w := by
  refine (check d.key (.refl w)).then_ fun _ w _ => ?_
  refine (of_ok rfl (.refl w) : Clears w.Onward (asks _) w).then_ fun found w _ => ?_
  cases found with
  | some e => exact pure _ (.refl w)
  | none => exact of_ok rfl ⟨fun _ => id, rfl⟩

theorem capture (d : Descriptor) (q : Property) : Clears w.Onward (capture d q) w := by
  refine (instanceOf d).then_ fun made w _ => ?_
  split
  · exact pure _ (.refl w)
  next v _ =>
    refine Clears.then_ (lift (v.failsOnly_isIntrinsic.mono ?_) (.refl w)) fun _ w _ => ?_
    · rintro _ rfl
      rfl
    · exact ite (pure _ (.refl w)) (pure _ (.refl w))

theorem annotate (records : List Record) (n : Node) :
    Clears w.Onward (Environment.annotate records n) w :=
  (merge records (.refl w)).then_ fun _ w _ => pure _ (.refl w)

theorem dress (d : Descriptor) (q : Property) (c : Constraints) (held : Node) :
    Clears w.Onward (env.dress d q c held) w := by
  unfold Environment.dress
  dsimp only
  split
  · refine ite ?_ (pure _ (.refl w))
    refine (capture d q).then_ fun v w _ => ?_
    cases v with
    | some v => exact pure _ (.refl w)
    | none => exact pure _ (.refl w)
  · exact pure _ (.refl w)

theorem claim (name : String) (d : Descriptor) : Clears w.Onward (env.claim name d) w := by
  unfold Environment.claim
  refine (of_ok rfl (.refl w) : Clears w.Onward (asks _) w).then_ fun owner w _ => ?_
  cases owner with
  | none => exact of_ok rfl ⟨fun _ => id, rfl⟩
  | some owner => exact ite (pure _ (.refl w)) (throw rfl)

end Clears

end Build

namespace Environment

open Build

variable {env : Environment} {i j : Nat} {w : Walk}

/-! ## What descriptors made by hand are asked -/

namespace Linked

variable (hlinked : env.Linked)
include hlinked

theorem clears_isInline (hi : i < env.size) :
    Clears w.Onward (env.isInline (env.handmade i)) w := by
  obtain ⟨b, hb⟩ := hlinked.isInline_eq hi
  rw [hb]
  exact .pure b (.refl w)

theorem clears_publishesArray (hi : i < env.size) :
    Clears w.Onward (env.publishesArray (env.handmade i)) w := by
  obtain ⟨r, hr, heq⟩ := hlinked.publishesArray_eq hi
  rw [heq]
  exact .lift (hr.mono fun _ => Fault.OfAnnotation.isDepth_eq) (.refl w)

theorem clears_isAwaited (hi : i < env.size) :
    Clears w.Onward (env.isAwaited (env.handmade i)) w :=
  (Clears.isVisited _ (.refl w)).then_ fun _ w _ =>
    .ite ((hlinked.clears_publishesArray hi).then_ fun _ w _ => .pure _ (.refl w))
      (.pure _ (.refl w))

theorem clears_isArrayVisited (hi : i < env.size) :
    Clears w.Onward (env.isArrayVisited (env.handmade i)) w :=
  (Clears.isVisited _ (.refl w)).then_ fun _ _ _ =>
    .ite (hlinked.clears_publishesArray hi) (.pure _ (.refl _))

theorem clears_namedLeaf (hi : i < env.size) (kind : Kind) :
    Clears w.Onward (env.namedLeaf (env.handmade i) kind) w := by
  obtain ⟨bases, hbases⟩ := hlinked.baseChain_eq hi
  unfold namedLeaf
  rw [hbases]
  refine Clears.then_ (.pure bases (.refl w)) fun bases w _ => ?_
  refine (Clears.merge _ (.refl w)).then_ fun c w _ => ?_
  cases c.apply kind.schema with
  | leaf k type => exact .pure _ (.refl w)
  | _ => exact .pure _ (.refl w)

theorem clears_checkRequired (hi : i < env.size) (o : ObjectParts) :
    Clears w.Onward (env.checkRequired (env.handmade i) o) w := by
  obtain ⟨bases, hbases⟩ := hlinked.baseChain_eq hi
  unfold checkRequired
  rw [hbases]
  exact Clears.then_ (.pure bases (.refl w)) fun bases w _ => .ite (.pure _ (.refl w)) (.throw rfl)

end Linked

/-- A descriptor that is found not to be visited as an array of compositions, and is one, is not
visited. -/
theorem Linked.not_visited_of_isArrayVisited (hlinked : env.Linked) (hi : i < env.size)
    {w₁ w₂ w₃ : Walk} (h : env.isArrayVisited (env.handmade i) w = .ok false w₁)
    (harray : env.publishesArray (env.handmade i) w₂ = .ok true w₃) :
    (env.handmade i).key.isAmong w.visited = false := by
  obtain ⟨r, -, heq⟩ := hlinked.publishesArray_eq hi
  rw [heq] at harray
  obtain ⟨rfl, -⟩ := lift_eq_ok.mp harray
  obtain ⟨visited, w₄, hv, h⟩ := bind_eq_ok.mp h
  obtain ⟨-, rfl, rfl⟩ := isVisited_eq_ok.mp hv
  split at h
  · rw [heq] at h
    cases (lift_eq_ok.mp h).1
  next hvisited => exact Bool.not_eq_true _ ▸ hvisited

/-! ## What a type needs -/

section

variable (env)

/-- **A descriptor rests on another**: it wraps it, or has it for its base. -/
def Rests (i j : Nat) : Prop :=
  let d := env.handmade i
  d.shape.isWrapper = true ∧ d.inner = .crafted j ∨
    d.shape.isInline = false ∧ d.base = some (.crafted j)

open Classical in
/-- How many descriptors are below one. -/
noncomputable def rank (i : Nat) : Nat :=
  ((Finset.range env.size).filter fun j => Relation.TransGen env.Rests i j).card

/-- How many descriptors are not visited. -/
def unvisited (visited : List Key) : Nat :=
  ((Finset.range env.size).filter fun j => (env.handmade j).key.isAmong visited = false).card

/-- **How many levels a descriptor needs**, where some types are visited. -/
noncomputable def need (i : Nat) (visited : List Key) : Nat :=
  env.size * env.unvisited visited + env.rank i + 1

end

section

variable (hacyclic : ∀ i, ¬ Relation.TransGen env.Rests i i)
include hacyclic

open Classical in
theorem rank_lt (hi : i < env.size) : env.rank i < env.size := by
  have hsub : (Finset.range env.size).filter (Relation.TransGen env.Rests i) ⊂
      Finset.range env.size :=
    Finset.filter_ssubset.mpr ⟨i, Finset.mem_range.mpr hi, hacyclic i⟩
  have hcard := Finset.card_lt_card hsub
  rwa [Finset.card_range] at hcard

open Classical in
/-- What a descriptor rests on has less below it. -/
theorem rank_lt_of_rests (hj : j < env.size) (h : env.Rests i j) : env.rank j < env.rank i := by
  refine Finset.card_lt_card (Finset.ssubset_iff_of_subset ?_ |>.mpr ⟨j, ?_, ?_⟩)
  · exact Finset.monotone_filter_right _ fun _ _ hk => .head h hk
  · exact Finset.mem_filter.mpr ⟨Finset.mem_range.mpr hj, .single h⟩
  · exact fun hmem => hacyclic j (Finset.mem_filter.mp hmem).2

end

theorem isAmong_of_subset {k : Key} {ks ks' : List Key} (h : ks ⊆ ks')
    (hk : k.isAmong ks = true) : k.isAmong ks' = true := by
  obtain ⟨k', hk', hsame⟩ := List.any_eq_true.mp hk
  exact List.any_eq_true.mpr ⟨k', h hk', hsame⟩

theorem unvisited_anti {ks ks' : List Key} (h : ks ⊆ ks') :
    env.unvisited ks' ≤ env.unvisited ks := by
  refine Finset.card_le_card (Finset.monotone_filter_right _ fun j _ hj => ?_)
  refine Bool.eq_false_iff.mpr fun hk => ?_
  cases hj.symm.trans (isAmong_of_subset h hk)

theorem unvisited_le (ks : List Key) : env.unvisited ks ≤ env.size := by
  have h := Finset.card_filter_le (Finset.range env.size)
    fun j => (env.handmade j).key.isAmong ks = false
  rwa [Finset.card_range] at h

/-- A descriptor made by hand has a key that is the same as itself. -/
theorem same_handmade (i : Nat) : (env.handmade i).key.same (env.handmade i).key = true := by
  have hholder : (env.handmade i).identity.same (env.handmade i).identity = true :=
    beq_self_eq_true (Identity.crafted i)
  unfold Key.same Descriptor.key
  cases (env.handmade i).source with
  | none => exact hholder
  | some t =>
    dsimp only
    rw [hholder, Bool.or_true]

/-- Visiting a descriptor that was not visited leaves fewer. -/
theorem unvisited_lt {ks : List Key} (hi : i < env.size)
    (h : (env.handmade i).key.isAmong ks = false) :
    env.unvisited ((env.handmade i).key :: ks) < env.unvisited ks := by
  refine Finset.card_lt_card (Finset.ssubset_iff_of_subset ?_ |>.mpr ⟨i, ?_, ?_⟩)
  · refine Finset.monotone_filter_right _ fun j _ hj => ?_
    refine Bool.eq_false_iff.mpr fun hk => ?_
    cases hj.symm.trans (isAmong_of_subset (List.subset_cons_self _ _) hk)
  · exact Finset.mem_filter.mpr ⟨Finset.mem_range.mpr hi, h⟩
  · intro hmem
    have hnot := (Finset.mem_filter.mp hmem).2
    rw [Key.isAmong, List.any_cons, same_handmade, Bool.true_or] at hnot
    cases hnot

theorem need_anti {ks ks' : List Key} (h : ks ⊆ ks') : env.need i ks' ≤ env.need i ks :=
  Nat.add_le_add_right (Nat.add_le_add_right (Nat.mul_le_mul_left _ (unvisited_anti h)) _) _

section

variable (hacyclic : ∀ i, ¬ Relation.TransGen env.Rests i i)
include hacyclic

/-- There is never more needed than for going through all descriptors once for each of them. -/
theorem need_le (hi : i < env.size) (ks : List Key) :
    env.need i ks ≤ env.size * (env.size + 1) := by
  have hrank := rank_lt hacyclic hi
  have hmul : env.size * env.unvisited ks ≤ env.size * env.size :=
    Nat.mul_le_mul_left _ (unvisited_le ks)
  rw [need, Nat.mul_add, Nat.mul_one]
  omega

/-- What a descriptor rests on needs less. -/
theorem need_lt_of_rests {ks ks' : List Key} (hj : j < env.size) (h : env.Rests i j)
    (hks : ks ⊆ ks') : env.need j ks' < env.need i ks := by
  refine Nat.lt_of_le_of_lt (need_anti hks) ?_
  have := rank_lt_of_rests hacyclic hj h
  unfold need
  omega

/-- While a descriptor is visited that was not visited before, every descriptor needs less. -/
theorem need_lt_of_visits {ks ks' : List Key} (hi : i < env.size) (hj : j < env.size)
    (h : (env.handmade i).key.isAmong ks = false) (hks : (env.handmade i).key :: ks ⊆ ks') :
    env.need j ks' < env.need i ks := by
  refine Nat.lt_of_le_of_lt (need_anti hks) ?_
  have hrank := rank_lt hacyclic hj
  have hmul : env.size * (env.unvisited ((env.handmade i).key :: ks) + 1) ≤
      env.size * env.unvisited ks := Nat.mul_le_mul_left _ (unvisited_lt hi h)
  rw [Nat.mul_add, Nat.mul_one] at hmul
  unfold need
  omega

end

/-! ## The functions of the synthesis -/

/-- What is needed by less than a number of levels is built. -/
def Affords (env : Environment) (builder : Descriptor → Build Built) (depth levels : Nat) :
    Prop :=
  ∀ {j w}, j < env.size → w.session.depth = depth → env.need j w.visited < levels →
    Clears w.Onward (builder (env.handmade j)) w

section Builder

variable {builder : Descriptor → Build Built} {depth levels : Nat} (hlinked : env.Linked)
  (hacyclic : ∀ i, ¬ Relation.TransGen env.Rests i i) (hb : env.Affords builder depth levels)
include hlinked hb

theorem clears_refer (hj : j < env.size) (hdepth : w.session.depth = depth)
    (hneed : env.need j w.visited < levels) :
    Clears w.Onward (env.refer builder (env.handmade j)) w := by
  have hbuild {w' : Walk} (h : w.Onward w') :
      Clears w'.Onward (builder (env.handmade j)) w' :=
    hb hj (h.depth.trans hdepth) (Nat.lt_of_le_of_lt (need_anti h.visited) hneed)
  unfold refer
  refine (hlinked.clears_isInline hj).then_ fun _ w₁ h₁ => .ite ?_ ?_
  · exact (hbuild h₁).then_ fun _ w _ => .pure _ (.refl w)
  refine (Clears.of_ok rfl (.refl w₁) : Clears w₁.Onward (stored? _) w₁).then_
    fun _ w₂ h₂ => .ite ?_ ?_
  · exact (Clears.claim _ _).then_ fun _ w _ => .pure _ (.refl w)
  refine (hlinked.clears_isAwaited hj).then_ fun _ w₃ h₃ => .ite (.pure _ (.refl w₃)) ?_
  exact (hbuild ((h₁.trans h₂).trans h₃)).then_ fun _ w _ => .pure _ (.refl w)

theorem clears_referTo (hj : j < env.size) (hdepth : w.session.depth = depth)
    (hneed : env.need j w.visited < levels) :
    Clears w.Onward (env.referTo builder (.crafted j)) w := by
  unfold referTo
  rw [describe_handmade, pure_bind]
  exact clears_refer hlinked hb hj hdepth hneed

theorem clears_addProperties {d : Descriptor} {o : ObjectParts} {qs : List Property}
    (hqs : ∀ q ∈ qs, ∃ j, j < env.size ∧ q.type = .crafted j) (hdepth : w.session.depth = depth)
    (hneed : ∀ j, j < env.size → env.need j w.visited < levels) :
    Clears w.Onward (env.addProperties builder d o qs) w := by
  induction qs generalizing o w with
  | nil => exact .pure _ (.refl w)
  | cons q qs ih =>
    obtain ⟨j, hj, hq⟩ := hqs q List.mem_cons_self
    have hrefer {w' : Walk} (h : w.Onward w') :
        Clears w'.Onward (env.referTo builder q.type) w' := by
      rw [hq]
      exact clears_referTo hlinked hb hj (h.depth.trans hdepth)
        (Nat.lt_of_le_of_lt (need_anti h.visited) (hneed j hj))
    refine Clears.then_ ?_ fun o₁ w₂ h₂ => ?_
    · refine (Clears.merge _ (.refl w)).then_ fun c w₁ h₁ => .ite ?_ ?_
      · exact (hrefer h₁).then_ fun _ w _ => .pure _ (.refl w)
      · exact ((hrefer h₁).then_ fun _ w _ => .dress d q c _).then_ fun _ w _ => .pure _ (.refl w)
    · exact ih (fun q hq => hqs q (List.mem_cons_of_mem _ hq)) (h₂.depth.trans hdepth)
        fun j hj => Nat.lt_of_le_of_lt (need_anti h₂.visited) (hneed j hj)

theorem clears_populate {o : ObjectParts} (hi : i < env.size) (hdepth : w.session.depth = depth)
    (hneed : ∀ j, j < env.size → env.need j w.visited < levels) :
    Clears w.Onward (env.populate builder (env.handmade i) o) w := by
  refine (clears_addProperties hlinked hb (fun q hq => ?_) hdepth hneed).then_ fun o w _ => ?_
  · exact hlinked.exists_of_mem hi (Descriptor.type_mem_tokens hq)
  · exact (hlinked.clears_checkRequired hi o).then_ fun _ w _ => .pure _ (.refl w)

theorem clears_ownNode {base : Option Node} (hi : i < env.size)
    (hdepth : w.session.depth = depth)
    (hneed : ∀ j, j < env.size → env.need j w.visited < levels) :
    Clears w.Onward (env.ownNode builder (env.handmade i) base) w := by
  unfold ownNode
  refine .ite (.annotate _ _) ((Clears.merge _ (.refl w)).then_ fun c w₁ h₁ => ?_)
  refine (clears_populate hlinked hb hi (h₁.depth.trans hdepth) fun j hj => ?_).then_
    fun _ w _ => .pure _ (.refl w)
  exact Nat.lt_of_le_of_lt (need_anti h₁.visited) (hneed j hj)

include hacyclic

/-- **An array of compositions** is built if it was not visited before its base was built.  What
was visited then is visited still when it is left. -/
theorem clears_composedArray {c : Constraints} {base : Node} {w₀ : Walk} (hi : i < env.size)
    (hdepth : w₀.session.depth = depth) (hneed : env.need i w₀.visited ≤ levels)
    (hfresh : (env.handmade i).key.isAmong w₀.visited = false) (h : w₀.Onward w) :
    Clears w₀.Onward (env.composedArray builder (env.handmade i) c base) w := by
  unfold composedArray
  dsimp only
  refine .ite (.throw rfl) ?_
  refine Clears.bind (Q := w₀.Onward) ?_ fun _ w₁ _ h₁ => .pure _ h₁
  have hvisiting : (env.handmade i).key :: w₀.visited ⊆ (env.handmade i).key :: w.visited :=
    List.cons_subset_cons _ h.visited
  have hown := clears_populate hlinked hb hi
    (o := (ObjectParts.ofNode .emptyObject).requiring c.required)
    (w := { w with visited := (env.handmade i).key :: w.visited }) (h.depth.trans hdepth)
    fun j hj => Nat.lt_of_lt_of_le (need_lt_of_visits hacyclic hi hj hfresh hvisiting) hneed
  unfold Clears whileVisiting at *
  cases hrun : env.populate builder (env.handmade i)
      ((ObjectParts.ofNode .emptyObject).requiring c.required)
      { w with visited := (env.handmade i).key :: w.visited } with
  | error e w₁ =>
    rw [hrun] at hown
    exact hown
  | ok o w₁ =>
    rw [hrun] at hown
    refine ⟨fun k hk => ?_, hown.depth.trans h.depth⟩
    refine List.mem_filter.mpr ⟨hown.visited (List.mem_cons_of_mem _ (h.visited hk)), ?_⟩
    refine Bool.not_eq_true' _ ▸ Bool.eq_false_iff.mpr fun hsame => ?_
    cases hfresh.symm.trans (List.any_eq_true.mpr ⟨k, hk, hsame⟩)

theorem clears_inherit {base : Token} (hi : i < env.size)
    (hbase : (env.handmade i).base = some base)
    (hshape : (env.handmade i).shape.isInline = false) (hdepth : w.session.depth = depth)
    (hneed : env.need i w.visited ≤ levels)
    (hfresh : env.publishesArray (env.handmade i) w = .ok true w →
      (env.handmade i).key.isAmong w.visited = false) :
    Clears w.Onward (env.inherit builder (env.handmade i) base) w := by
  obtain ⟨kind, hkind⟩ := hlinked.primitiveKind_eq hi
  obtain ⟨j, hj, rfl⟩ := hlinked.exists_of_mem hi (Descriptor.base_mem_tokens hbase)
  unfold inherit
  rw [hkind, pure_bind]
  cases kind with
  | some kind =>
    exact (hlinked.clears_namedLeaf hi kind).then_ fun _ w _ => .pure _ (.refl w)
  | none =>
    have hrests : env.Rests i j := .inr ⟨hshape, hbase⟩
    refine Clears.bind (Clears.merge _ rfl : Clears (· = w) _ w) fun c w' hmerge hw => ?_
    subst hw
    obtain ⟨hmerge, -⟩ := lift_eq_ok.mp hmerge
    refine Clears.bind (clears_referTo hlinked hb hj hdepth
      (Nat.lt_of_lt_of_le (need_lt_of_rests hacyclic hj hrests fun _ => id) hneed))
      fun node w₁ _ h₁ => ?_
    split
    · exact .pure _ h₁
    next hprops =>
      split
      next harray =>
        have hpublishes : env.publishesArray (env.handmade i) w' = .ok true w' := by
          unfold publishesArray
          rw [hbase, hkind, pure_bind]
          simp only [Option.isNone_some, Bool.false_or, hprops]
          rw [if_neg Bool.false_ne_true, if_neg (by exact Bool.false_ne_true),
            bind_of_ok (lift_eq_ok.mpr ⟨hmerge, rfl⟩), harray]
          rfl
        refine Clears.bind (clears_composedArray hlinked hacyclic hb hi hdepth hneed
          (hfresh hpublishes) h₁) fun _ w₂ _ h₂ => .pure _ h₂
      next => exact .pure _ h₁

/-- **A type is stored** while it is visited, and it was not visited before. -/
theorem clears_storeNode {base : Option Node} (hi : i < env.size)
    (hdepth : w.session.depth = depth) (hneed : env.need i w.visited ≤ levels) :
    Clears w.Onward (env.storeNode builder (env.handmade i) base) w := by
  unfold storeNode
  refine Clears.bind (Clears.isVisited _ (Walk.Onward.refl w)) fun visited w₁ hv _ => ?_
  obtain ⟨-, rfl, rfl⟩ := isVisited_eq_ok.mp hv
  split
  · exact .pure _ (.refl w₁)
  next hfresh =>
  replace hfresh : (env.handmade i).key.isAmong w₁.visited = false := Bool.not_eq_true _ ▸ hfresh
  refine Clears.bind (.of_ok rfl trivial : Clears (fun _ => True) (visit _) w₁)
    fun _ w₂ hvisit _ => ?_
  cases visit_eq_ok.mp hvisit
  have hvisited : w₁.Onward { w₁ with visited := (env.handmade i).key :: w₁.visited } :=
    ⟨List.subset_cons_self _ _, rfl⟩
  refine Clears.mono ?_ fun _ => hvisited.trans
  refine (Clears.claim _ _).then_ fun _ w₃ h₃ => ?_
  refine (Clears.of_ok rfl (.refl w₃) : Clears w₃.Onward (stored? _) w₃).then_
    fun found w₄ h₄ => ?_
  cases found with
  | some n => exact .pure _ (.refl w₄)
  | none =>
    refine (clears_ownNode hlinked hb hi ?_ fun j hj => ?_).then_ fun node w₅ _ => ?_
    · exact (hvisited.trans (h₃.trans h₄)).depth.trans hdepth
    · exact Nat.lt_of_lt_of_le
        (need_lt_of_visits hacyclic hi hj hfresh (h₃.trans h₄).visited) hneed
    · exact (Clears.of_ok rfl ⟨fun _ => id, rfl⟩ :
        Clears w₅.Onward (Registry.putting _ node) w₅).then_ fun _ w _ => .pure _ (.refl w)

theorem clears_namedNode (hi : i < env.size) (hshape : (env.handmade i).shape.isInline = false)
    (hdepth : w.session.depth = depth) (hneed : env.need i w.visited ≤ levels) :
    Clears w.Onward (env.namedNode builder (env.handmade i)) w := by
  unfold namedNode
  cases hbase : (env.handmade i).base with
  | none => exact clears_storeNode hlinked hacyclic hb hi hdepth hneed
  | some base =>
    refine Clears.bind (hlinked.clears_isArrayVisited hi) fun visited w₁ hv h₁ => ?_
    split
    · exact .pure _ h₁
    next hnot =>
    have hneed₁ : env.need i w₁.visited ≤ levels := Nat.le_trans (need_anti h₁.visited) hneed
    have hdepth₁ := h₁.depth.trans hdepth
    refine Clears.mono (Clears.then_ (clears_inherit hlinked hacyclic hb hi hbase hshape hdepth₁
      hneed₁ ?_) fun inherited w₂ h₂ => ?_) fun _ => h₁.trans
    · -- it has been asked before whether the type is visited as an array of compositions
      intro harray
      rw [((learns_isArrayVisited (env.handmade i)).ok hv).visited]
      rw [Bool.not_eq_true] at hnot
      exact hlinked.not_visited_of_isArrayVisited hi (hnot ▸ hv) harray
    · cases inherited with
      | whole node => exact .pure _ (.refl w₂)
      | base node =>
        exact clears_storeNode hlinked hacyclic hb hi (h₂.depth.trans hdepth₁)
          (Nat.le_trans (need_anti h₂.visited) hneed₁)

theorem clears_mapNode (hi : i < env.size) (hshape : (env.handmade i).shape = .map)
    (hdepth : w.session.depth = depth) (hneed : env.need i w.visited ≤ levels) :
    Clears w.Onward (env.mapNode builder (env.handmade i)) w := by
  have hwrapper : (env.handmade i).shape.isWrapper = true := by rw [hshape]; rfl
  obtain ⟨j, hj, hinner⟩ := hlinked.exists_of_mem hi (Descriptor.inner_mem_tokens hwrapper)
  have hneed' : env.need j w.visited < levels :=
    Nat.lt_of_lt_of_le (need_lt_of_rests hacyclic hj (.inl ⟨hwrapper, hinner⟩) fun _ => id) hneed
  have hvalue : mapInner (env.handmade i) = .crafted j := by
    rw [mapInner, hinner]
    rfl
  unfold mapNode mapTo
  rw [hvalue, describe_handmade, pure_bind]
  refine Clears.then_ (.ite (.pure _ (.refl w)) ?_) fun node w _ => .annotate _ node
  exact (clears_refer hlinked hb hj hdepth hneed').then_ fun _ w _ => .pure _ (.refl w)

/-- Building a type that needs no more than a number of levels, where what needs less is built. -/
theorem clears_buildShape (hi : i < env.size) (hdepth : w.session.depth = depth)
    (hneed : env.need i w.visited ≤ levels) :
    Clears w.Onward (env.buildShape builder (env.handmade i)) w := by
  have hinner (hwrapper : (env.handmade i).shape.isWrapper = true) :
      Clears w.Onward (env.referTo builder (env.handmade i).inner) w := by
    obtain ⟨j, hj, heq⟩ := hlinked.exists_of_mem hi (Descriptor.inner_mem_tokens hwrapper)
    rw [heq]
    exact clears_referTo hlinked hb hj hdepth
      (Nat.lt_of_lt_of_le (need_lt_of_rests hacyclic hj (.inl ⟨hwrapper, heq⟩) fun _ => id) hneed)
  unfold buildShape
  cases hshape : (env.handmade i).shape with
  | nullable => exact (hinner (by rw [hshape]; rfl)).then_ fun _ w _ => .pure _ (.refl w)
  | primitive | unknown => exact (Clears.annotate _ _).then_ fun _ w _ => .pure _ (.refl w)
  | array =>
    refine (hinner (by rw [hshape]; rfl)).then_ fun items w _ => ?_
    exact (Clears.annotate _ _).then_ fun _ w _ => .pure _ (.refl w)
  | map =>
    exact (clears_mapNode hlinked hacyclic hb hi hshape hdepth hneed).then_
      fun _ w _ => .pure _ (.refl w)
  | enum | object =>
    exact clears_namedNode hlinked hacyclic hb hi (by rw [hshape]; rfl) hdepth hneed

end Builder

/-- Within the limit, a type is built as what it is. -/
theorem clears_deepening {α : Type} {d : Descriptor} {body : Build α}
    (hdepth : w.session.depth < env.maxDepth)
    (h : Clears (w.atDepth (w.session.depth + 1)).Onward body
      (w.atDepth (w.session.depth + 1))) : Clears w.Onward (env.deepening d body) w := by
  have hwithin : ¬ env.maxDepth < (w.atDepth (w.session.depth + 1)).session.depth :=
    Nat.not_lt.mpr hdepth
  unfold Clears deepening at *
  simp only [if_neg hwithin]
  cases hbody : body (w.atDepth (w.session.depth + 1)) with
  | ok a w₁ =>
    rw [hbody] at h
    refine ⟨h.visited, ?_⟩
    show w₁.session.depth - 1 = w.session.depth
    rw [h.depth]
    rfl
  | error e w₁ =>
    rw [hbody] at h
    exact h

/-- **A type that is built with as many levels to spare as it needs is not refused.** -/
theorem clears_build (hlinked : env.Linked)
    (hacyclic : ∀ i, ¬ Relation.TransGen env.Rests i i) (n : Nat) {i : Nat} {w : Walk}
    (hi : i < env.size) (hdepth : w.session.depth + n = env.maxDepth + 1)
    (hneed : env.need i w.visited < n) :
    Clears w.Onward (env.build n (env.handmade i)) w := by
  induction n generalizing i w with
  | zero => exact absurd hneed (Nat.not_lt_zero _)
  | succ n ih =>
    have hpositive : 0 < env.need i w.visited := Nat.succ_pos _
    refine clears_deepening (by omega) ?_
    have hafford : env.Affords (env.build n) (w.session.depth + 1) n := by
      intro j w' hj hd hn
      exact ih hj (by omega) hn
    exact clears_buildShape hlinked hacyclic hafford hi rfl (Nat.le_of_lt_succ hneed)

end Environment

end Schemata
