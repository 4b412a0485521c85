import Schemata.Proofs.Synthesis.Ownership

/-!
# What defaults are read from

The defaults of a type are read from an instance, and the instance is made once.  A session keeps
it under the key of the type, along with all others, whatever becomes of the call that asked for
it.  `Session.Recalls` says that this is no matter: what is kept under a key is what the type with
that key makes, so that asking for an instance gives the same at all times (`made_of_instanceOf`),
and the node of a property depends on the declaration and on what holds its type alone
(`dressed_of_dress`).

That a session recalls is an invariant of it, and one that calls which fail keeps as well.  It has
to be known for this that types are built only when they have been described.  The lemmas
`recollects_…` follow the functions of the synthesis once more with that in mind.
-/

namespace Schemata

open Build

/-- What the defaults of a type are read from, if there is such a thing. -/
def Descriptor.made (d : Descriptor) : Option Value :=
  match d.factory with
  | some (.ok v) => some v
  | _ => none

/-- The default that a property has on an instance, if it is worth publishing. -/
def Property.defaultOn (q : Property) (made : Option Value) : Except Fault (Option Value) :=
  match made.bind fun v => v.held? q.accessorName with
  | none => .ok none
  | some v => do if ← v.isIntrinsic then return none else return v.literal.toOption

/-- A node that is made nullable if it has to be, with the annotations laid on it. -/
def Constraints.laidOn (c : Constraints) (held : Node) : Node :=
  c.apply (if c.nullable && !held.isConcrete then held.makeNullable else held)

namespace Node

/-- Whether a node can have a default and has none. -/
def wantsDefault (n : Node) : Bool :=
  n.keywords?.any fun k => k.default.isNone

/-- A node with a default, if there is one. -/
def withDefault (n : Node) : Option Value → Node
  | some v => n.mapKeywords fun k => { k with default := some v }
  | none => n

end Node

/-- **The node of a property**, given its constraints and what holds its type: the node is made
nullable where it has to be, the annotations are laid on it, and it has the default of the property
unless it has one already. -/
def Property.dressed (q : Property) (capturing : Bool) (made : Option Value) (c : Constraints)
    (held : Node) : Except Fault Node :=
  if capturing && (c.laidOn held).wantsDefault then do
    return (c.laidOn held).withDefault (← q.defaultOn made)
  else .ok (c.laidOn held)

/-- **Instances are kept under the keys of the types that make them.** -/
def Session.Recalls (env : Environment) (s : Session) : Prop :=
  ∀ e ∈ s.instances, ∃ x, s.Describes env x ∧ x.shape.isInline = false ∧ e = (x.key, x.made)

variable {env : Environment} {s s' S : Session} {d : Descriptor} {w w' : Walk}

theorem Session.Describes.mono (h : s.Describes env d) (hs : s.Below s') : s'.Describes env d :=
  let ⟨t, ht⟩ := h
  ⟨t, ht.mono hs⟩

theorem Session.Recalls.of_eq (h : s.Recalls env) (hs : s.Below s')
    (heq : s'.instances = s.instances) : s'.Recalls env := by
  intro e he
  obtain ⟨x, hx, hshape, rfl⟩ := h e (heq ▸ he)
  exact ⟨x, hx.mono hs, hshape, rfl⟩

theorem Session.recalls_empty : Session.Recalls env {} :=
  fun _ he => absurd he List.not_mem_nil

/-! ## Asking for an instance -/

namespace Build

/-- An instance is found, or made and kept. -/
theorem instanceOf_eq_ok {made : Option Value} : instanceOf d w = .ok made w' ↔
    d.key.check = .ok () ∧
      match w.session.instances.find? fun e => e.1.same d.key with
      | some e => made = e.2 ∧ w' = w
      | none => made = d.made ∧ w' = { w with session :=
          { w.session with instances := w.session.instances ++ [(d.key, d.made)] } } := by
  have hrun (hkey : d.key.check = .ok ()) : instanceOf d w =
      match w.session.instances.find? fun e => e.1.same d.key with
      | some e => .ok e.2 w
      | none => .ok d.made { w with session :=
          { w.session with instances := w.session.instances ++ [(d.key, d.made)] } } := by
    unfold instanceOf
    rw [bind_of_ok (lift_eq_ok.mpr ⟨hkey, rfl⟩), bind_of_ok (asks_eq_ok.mpr ⟨rfl, rfl⟩)]
    cases w.session.instances.find? fun e => e.1.same d.key <;> rfl
  constructor
  · intro h
    obtain ⟨_, _, hlift, -⟩ := bind_eq_ok.mp h
    obtain ⟨hkey, -⟩ := lift_eq_ok.mp hlift
    rw [hrun hkey] at h
    refine ⟨hkey, ?_⟩
    cases hfind : w.session.instances.find? fun e => e.1.same d.key with
    | some e =>
      rw [hfind] at h
      cases h
      exact ⟨rfl, rfl⟩
    | none =>
      rw [hfind] at h
      cases h
      exact ⟨rfl, rfl⟩
  · rintro ⟨hkey, h⟩
    rw [hrun hkey]
    cases hfind : w.session.instances.find? fun e => e.1.same d.key with
    | some e =>
      rw [hfind] at h
      obtain ⟨rfl, rfl⟩ := h
      rfl
    | none =>
      rw [hfind] at h
      obtain ⟨rfl, rfl⟩ := h
      rfl

/-- Whoever can be looked up has an instance or none, and nothing but instances is changed. -/
theorem exists_instanceOf (w : Walk) (hkey : d.key.check = .ok ()) : ∃ made l,
    instanceOf d w = .ok made { w with session := { w.session with instances := l } } := by
  cases hfind : w.session.instances.find? fun e => e.1.same d.key with
  | some e =>
    exact ⟨e.2, w.session.instances, instanceOf_eq_ok.mpr ⟨hkey, by rw [hfind]; exact ⟨rfl, rfl⟩⟩⟩
  | none => exact ⟨d.made, _, instanceOf_eq_ok.mpr ⟨hkey, by rw [hfind]; exact ⟨rfl, rfl⟩⟩⟩

theorem capture_eq_ok {q : Property} {v : Option Value} : capture d q w = .ok v w' ↔
    ∃ made, instanceOf d w = .ok made w' ∧ q.defaultOn made = .ok v := by
  unfold capture
  rw [bind_eq_ok]
  refine exists_congr fun made => ?_
  unfold Property.defaultOn
  cases made.bind fun v => v.held? q.accessorName with
  | none =>
    constructor
    · rintro ⟨_, hmade, h⟩
      obtain ⟨rfl, rfl⟩ := pure_eq_ok.mp h
      exact ⟨hmade, rfl⟩
    · rintro ⟨hmade, ⟨⟩⟩
      exact ⟨w', hmade, rfl⟩
  | some value =>
    dsimp only
    cases hintrinsic : value.isIntrinsic with
    | error e =>
      constructor
      · rintro ⟨_, _, h⟩
        cases h
      · rintro ⟨_, h⟩
        cases h
    | ok b =>
      have hlift (w : Walk) : lift (.ok b : Except Fault Bool) w = .ok b w := rfl
      constructor
      · rintro ⟨w₁, hmade, h⟩
        rw [bind_of_ok (hlift w₁)] at h
        cases b <;> cases h <;> exact ⟨hmade, rfl⟩
      · rintro ⟨hmade, h⟩
        refine ⟨w', hmade, ?_⟩
        rw [bind_of_ok (hlift w')]
        cases b <;> cases h <;> rfl

end Build

theorem Environment.dress_eq (q : Property) (c : Constraints) (held : Node) :
    env.dress d q c held =
      if env.captureDefaults && (c.laidOn held).wantsDefault then do
        return (c.laidOn held).withDefault (← capture d q)
      else pure (c.laidOn held) := by
  unfold Environment.dress Node.wantsDefault Constraints.laidOn
  dsimp only
  generalize c.apply (if c.nullable && !held.isConcrete then held.makeNullable else held) = node
  cases node.keywords? with
  | none =>
    rw [Option.any_none, Bool.and_false, if_neg Bool.false_ne_true]
  | some k =>
    rw [Option.any_some]
    dsimp only
    split
    · congr 1
      funext v
      cases v <;> rfl
    · rfl

/-- How a property is dressed: with a default that has been asked for, or without asking. -/
theorem Environment.dress_eq_ok {q : Property} {c : Constraints} {held node : Node} :
    env.dress d q c held w = .ok node w' ↔
      if env.captureDefaults && (c.laidOn held).wantsDefault then
        ∃ made v, instanceOf d w = .ok made w' ∧ q.defaultOn made = .ok v ∧
          node = (c.laidOn held).withDefault v
      else node = c.laidOn held ∧ w' = w := by
  rw [Environment.dress_eq]
  split
  · rw [bind_eq_ok]
    constructor
    · rintro ⟨v, w₁, hv, h⟩
      obtain ⟨rfl, rfl⟩ := pure_eq_ok.mp h
      obtain ⟨made, hmade, hdefault⟩ := capture_eq_ok.mp hv
      exact ⟨made, v, hmade, hdefault, rfl⟩
    · rintro ⟨made, v, hmade, hdefault, rfl⟩
      exact ⟨v, w', capture_eq_ok.mpr ⟨made, hmade, hdefault⟩, rfl⟩
  · exact pure_eq_ok

/-! ## Instances of described types -/

section

variable (hS : S.WellRead env) (hkeys : env.KeysDistinct) (hrecalls : S.Recalls env)
  (hd : S.Describes env d) (hshape : d.shape.isInline = false)
include hS hkeys hrecalls hd hshape

/-- **An instance that is asked for is what the type makes.** -/
theorem made_of_instanceOf {made : Option Value} (h : instanceOf d w = .ok made w')
    (hw : w.session.instances <+: S.instances) : made = d.made := by
  obtain ⟨-, h⟩ := instanceOf_eq_ok.mp h
  cases hfind : w.session.instances.find? fun e => e.1.same d.key with
  | none =>
    rw [hfind] at h
    exact h.1
  | some e =>
    rw [hfind] at h
    obtain ⟨x, hx, hshape', rfl⟩ := hrecalls e (hw.subset (List.mem_of_find?_eq_some hfind))
    have hsame : x.key.same d.key = true := by simpa using List.find?_some hfind
    have hkin := kin_of_described hS hkeys hx hd hshape' hshape hsame
    rw [h.1, Descriptor.made, Descriptor.made, hkin.alike]

/-- **The node of a property depends on the declaration** and on what holds its type. -/
theorem dressed_of_dress {q : Property} {c : Constraints} {held node : Node}
    (h : env.dress d q c held w = .ok node w') (hw : w.session.instances <+: S.instances) :
    q.dressed env.captureDefaults d.made c held = .ok node := by
  have hdress := Environment.dress_eq_ok.mp h
  unfold Property.dressed
  split at hdress
  next hasks =>
    obtain ⟨made, v, hmade, hdefault, rfl⟩ := hdress
    rw [if_pos hasks, ← made_of_instanceOf hS hkeys hrecalls hd hshape hmade hw, hdefault]
    rfl
  next hasks =>
    rw [if_neg hasks, hdress.1]

end

/-! ## Recalling -/

open Environment (ObjectParts)

/-- A walk has grown, and recalls instances if it did so before. -/
structure Walk.Recollects (env : Environment) (w w' : Walk) : Prop where
  grows : Walk.Grows env w w'
  recalls : w.session.Recalls env → w'.session.Recalls env

instance : IsPreorder Walk (Walk.Recollects env) where
  refl _ := ⟨.refl _, id⟩
  trans _ _ _ h₁ h₂ := ⟨h₁.grows.trans h₂.grows, h₂.recalls ∘ h₁.recalls⟩

namespace Build

/-- What makes no instances. -/
theorem recollects_of_eq (hgrows : Walk.Grows env w w')
    (h : w'.session.instances = w.session.instances) : w.Recollects env w' :=
  ⟨hgrows, fun hw => hw.of_eq hgrows.below h⟩

theorem recollects_refl (w : Walk) : w.Recollects env w :=
  refl_of (Walk.Recollects env) w

variable {α : Type} {x : Build α}

theorem Reads.recollects (hx : Reads env x) (w : Walk) : w.Recollects env (after x w) :=
  recollects_of_eq (hx.grows w) (hx.instances w)

/-- A computation that is not given up, and what is known after it. -/
theorem recollects_bind {β : Type} {f : α → Build β} (hx : w.Recollects env (after x w))
    (hf : ∀ {a w₁}, x w = .ok a w₁ → Walk.Grows env w w₁ → w₁.Recollects env (after (f a) w₁)) :
    w.Recollects env (after (x >>= f) w) := by
  refine Keeps.after_bind hx fun {a w₁} h => hf h ?_
  rw [after_of_ok h] at hx
  exact hx.grows

/-- Asking whether a type is visited leaves the walk as it is. -/
@[simp] theorem after_isVisited (k : Key) (w : Walk) : after (isVisited k) w = w := by
  unfold after isVisited
  cases h : k.check with
  | ok u =>
    rw [bind_of_ok (lift_eq_ok.mpr ⟨rfl, rfl⟩)]
    rfl
  | error e => rfl

/-- A type that may be published by name is asked for its instance after it has been described. -/
theorem recollects_instanceOf (hd : w.session.Describes env d) (hshape : d.shape.isInline = false) :
    w.Recollects env (after (instanceOf d) w) := by
  refine ⟨keeps_grows (Environment.learns_instanceOf d) w, fun hw => ?_⟩
  unfold after
  cases h : instanceOf d w with
  | error e w₁ =>
    have hlift : after (lift d.key.check) w = w := after_lift _ w
    rcases bind_eq_error.mp h with h | ⟨_, w₂, hlift, h⟩
    · rwa [← after_of_error h, hlift]
    · rcases bind_eq_error.mp h with h | ⟨found, w₃, -, h⟩
      · cases h
      · cases found with
        | some e => cases h
        | none => cases h
  | ok made w₁ =>
    obtain ⟨-, h⟩ := instanceOf_eq_ok.mp h
    cases hfind : w.session.instances.find? fun e => e.1.same d.key with
    | some e =>
      rw [hfind] at h
      obtain ⟨-, rfl⟩ := h
      exact hw
    | none =>
      rw [hfind] at h
      obtain ⟨-, rfl⟩ := h
      intro e he
      rcases List.mem_append.mp he with he | he
      · obtain ⟨x, hx, hxshape, rfl⟩ := hw e he
        exact ⟨x, hx, hxshape, rfl⟩
      · rw [List.mem_singleton.mp he]
        exact ⟨d, hd, hshape, rfl⟩

theorem recollects_capture (hd : w.session.Describes env d) (hshape : d.shape.isInline = false)
    (q : Property) : w.Recollects env (after (capture d q) w) := by
  unfold capture
  refine recollects_bind (recollects_instanceOf hd hshape) fun {made w₁} _ _ => ?_
  split
  · exact recollects_refl w₁
  · refine recollects_bind ?_ fun {b w₂} _ _ => ?_
    · rw [after_lift]
      exact recollects_refl w₁
    · cases b <;> exact recollects_refl w₂

end Build

namespace Environment

theorem recollects_dress (hd : w.session.Describes env d) (hshape : d.shape.isInline = false)
    (q : Property) (c : Constraints) (held : Node) :
    w.Recollects env (after (env.dress d q c held) w) := by
  rw [dress_eq]
  split
  · exact recollects_bind (recollects_capture hd hshape q) fun {_ w₁} _ _ => recollects_refl w₁
  · exact recollects_refl w

theorem recollects_isAwaited (d : Descriptor) (w : Walk) :
    w.Recollects env (after (env.isAwaited d) w) := by
  refine recollects_bind ?_ fun {b w₁} _ _ => ?_
  · rw [after_isVisited]
    exact recollects_refl w
  · split
    · exact recollects_bind ((reads_publishesArray d).recollects w₁) fun {_ w₂} _ _ =>
        recollects_refl w₂
    · exact recollects_refl w₁

theorem recollects_isArrayVisited (d : Descriptor) (w : Walk) :
    w.Recollects env (after (env.isArrayVisited d) w) := by
  refine recollects_bind ?_ fun {b w₁} _ _ => ?_
  · rw [after_isVisited]
    exact recollects_refl w
  · split
    · exact (reads_publishesArray d).recollects w₁
    · exact recollects_refl w₁

theorem recollects_claim (name : String) (d : Descriptor) (w : Walk) :
    w.Recollects env (after (env.claim name d) w) := by
  refine recollects_of_eq (keeps_claim name d w) ?_
  unfold after claim
  rw [bind_of_ok (asks_eq_ok.mpr ⟨rfl, rfl⟩)]
  cases getKey? name w.session.claims with
  | none => rfl
  | some owner =>
    dsimp only
    by_cases h : owner.same d.key = true
    · rw [if_pos h]
      rfl
    · rw [if_neg h]
      rfl

/-- Builds what has been described. -/
def Recollecting (env : Environment) (builder : Descriptor → Build Built) : Prop :=
  ∀ {d : Descriptor} {w : Walk}, w.session.Describes env d →
    w.Recollects env (after (builder d) w)

section Builder

variable {builder : Descriptor → Build Built} (hb : env.Recollecting builder)
include hb

theorem recollects_refer (hd : w.session.Describes env d) :
    w.Recollects env (after (env.refer builder d) w) := by
  unfold refer
  refine recollects_bind ((reads_isInline d).recollects w) fun {inline w₁} _ h₁ => ?_
  have hbuild {w₂ : Walk} (h : Walk.Grows env w₁ w₂) :
      w₂.Recollects env (after (builder d) w₂) := hb (hd.mono (h₁.below.trans h.below))
  split
  · exact recollects_bind (hbuild (.refl _)) fun {_ w₂} _ _ => recollects_refl w₂
  refine recollects_bind (recollects_refl w₁) fun {found w₂} hfound h₂ => ?_
  split
  · exact recollects_bind (recollects_claim _ d w₂) fun {_ w₃} _ _ => recollects_refl w₃
  refine recollects_bind (recollects_isAwaited d w₂) fun {awaited w₃} _ h₃ => ?_
  split
  · exact recollects_refl w₃
  · exact recollects_bind (hbuild (h₂.trans h₃)) fun {_ w₄} _ _ => recollects_refl w₄

theorem recollects_referTo (t : Token) (w : Walk) :
    w.Recollects env (after (env.referTo builder t) w) := by
  refine recollects_bind ((reads_describe t).recollects w) fun {d w₁} hd _ => ?_
  exact recollects_refer hb ⟨t, (reads_describe t).settles hd⟩

theorem recollects_addProperties (hd : w.session.Describes env d)
    (hshape : d.shape.isInline = false) (o : ObjectParts) (qs : List Property) :
    w.Recollects env (after (env.addProperties builder d o qs) w) := by
  induction qs generalizing o w with
  | nil => exact recollects_refl w
  | cons q qs ih =>
    refine recollects_bind ?_ fun {o₁ w₂} _ h₂ => ih (hd.mono h₂.below) o₁
    refine recollects_bind ?_ fun {c w₁} _ h₁ => ?_
    · rw [after_lift]
      exact recollects_refl w
    split
    · exact recollects_bind (recollects_referTo hb _ w₁) fun {_ w₂} _ _ => recollects_refl w₂
    · refine recollects_bind ?_ fun {_ w₂} _ _ => recollects_refl w₂
      refine recollects_bind (recollects_referTo hb _ w₁) fun {held w₂} _ h₂ => ?_
      exact recollects_dress (hd.mono (h₁.below.trans h₂.below)) hshape q c held

theorem recollects_populate (hd : w.session.Describes env d) (hshape : d.shape.isInline = false)
    (o : ObjectParts) : w.Recollects env (after (env.populate builder d o) w) :=
  recollects_bind (recollects_addProperties hb hd hshape o _) fun {o₁ w₁} _ _ =>
    recollects_bind ((reads_checkRequired d o₁).recollects w₁) fun {_ w₂} _ _ => recollects_refl w₂

theorem recollects_composedArray (hd : w.session.Describes env d)
    (hshape : d.shape.isInline = false) (c : Constraints) (base : Node) :
    w.Recollects env (after (env.composedArray builder d c base) w) := by
  unfold composedArray
  dsimp only
  split
  · exact recollects_refl w
  refine recollects_bind ?_ fun {_ w₁} _ _ => recollects_refl w₁
  have hown : (w.visiting d).Recollects env (after (env.populate builder d
      ((ObjectParts.ofNode .emptyObject).requiring c.required)) (w.visiting d)) :=
    recollects_populate (w := w.visiting d) hb hd hshape _
  unfold after whileVisiting Walk.visiting at *
  cases hrun : env.populate builder d ((ObjectParts.ofNode .emptyObject).requiring c.required)
      { w with visited := d.key :: w.visited } with
  | ok o w₁ =>
    rw [hrun] at hown
    exact ⟨hown.grows, hown.recalls⟩
  | error e w₁ =>
    rw [hrun] at hown
    exact ⟨hown.grows, hown.recalls⟩

theorem recollects_inherit (hd : w.session.Describes env d) (hshape : d.shape.isInline = false)
    (base : Token) : w.Recollects env (after (env.inherit builder d base) w) := by
  unfold inherit
  refine recollects_bind ((reads_primitiveKind d).recollects w) fun {kind w₁} _ h₁ => ?_
  cases kind with
  | some kind =>
    exact recollects_bind ((reads_namedLeaf d kind).recollects w₁) fun {_ w₂} _ _ =>
      recollects_refl w₂
  | none =>
    refine recollects_bind ?_ fun {c w₂} _ h₂ => ?_
    · rw [after_lift]
      exact recollects_refl w₁
    refine recollects_bind (recollects_referTo hb base w₂) fun {node w₃} _ h₃ => ?_
    split
    · exact recollects_refl w₃
    split
    · have hd₃ := hd.mono ((h₁.below.trans h₂.below).trans h₃.below)
      exact recollects_bind (recollects_composedArray hb hd₃ hshape c node) fun {_ w₄} _ _ =>
        recollects_refl w₄
    · exact recollects_refl w₃

theorem recollects_storeNode (hd : w.session.Describes env d) (hshape : d.shape.isInline = false)
    (base : Option Node) : w.Recollects env (after (env.storeNode builder d base) w) := by
  unfold storeNode
  refine recollects_bind ?_ fun {visited w₁} hv h₁ => ?_
  · rw [after_isVisited]
    exact recollects_refl w
  split
  · exact recollects_refl w₁
  refine recollects_bind (recollects_of_eq (keeps_visit _ w₁) rfl) fun {_ w₂} _ h₂ => ?_
  refine recollects_bind (recollects_claim _ d w₂) fun {_ w₃} hclaim h₃ => ?_
  refine recollects_bind (recollects_refl w₃) fun {found w₄} hfound h₄ => ?_
  obtain ⟨_, rfl⟩ := stored?_eq_ok.mp hfound
  cases found with
  | some n => exact recollects_refl w₄
  | none =>
    have hd₄ := hd.mono (((h₁.trans h₂).trans h₃).below)
    refine recollects_bind ?_ fun {node w₅} _ h₅ => ?_
    · unfold ownNode ownObject
      split
      · exact recollects_bind (by rw [after_lift]; exact recollects_refl w₄) fun {_ w₅} _ _ =>
          recollects_refl w₅
      · refine recollects_bind (by rw [after_lift]; exact recollects_refl w₄)
          fun {c w₅} _ h₅ => ?_
        exact recollects_bind (recollects_populate hb (hd₄.mono h₅.below) hshape _)
          fun {_ w₆} _ _ => recollects_refl w₆
    · have hname := mem_claimed_of_claim hclaim
      exact recollects_bind (recollects_of_eq (grows_putting (h₅.claimed_subset hname)) rfl)
        fun {_ w₆} _ _ => recollects_refl w₆

theorem recollects_namedNode (hd : w.session.Describes env d) (hshape : d.shape.isInline = false) :
    w.Recollects env (after (env.namedNode builder d) w) := by
  unfold namedNode
  cases d.base with
  | none => exact recollects_storeNode hb hd hshape none
  | some base =>
    refine recollects_bind (recollects_isArrayVisited d w) fun {visited w₁} _ h₁ => ?_
    split
    · exact recollects_refl w₁
    have hd₁ := hd.mono h₁.below
    refine recollects_bind (recollects_inherit hb hd₁ hshape base) fun {inherited w₂} _ h₂ => ?_
    cases inherited with
    | whole node => exact recollects_refl w₂
    | base node => exact recollects_storeNode hb (hd₁.mono h₂.below) hshape (some node)

theorem recollects_mapNode (d : Descriptor) (w : Walk) :
    w.Recollects env (after (env.mapNode builder d) w) := by
  refine recollects_bind ((reads_describe _).recollects w) fun {value w₁} hvalue _ => ?_
  refine recollects_bind ?_ fun {node w₂} _ _ => ?_
  · unfold mapTo
    split
    · exact recollects_refl w₁
    · exact recollects_bind (recollects_refer hb ⟨_, (reads_describe _).settles hvalue⟩)
        fun {_ w₂} _ _ => recollects_refl w₂
  · exact recollects_bind (by rw [after_lift]; exact recollects_refl w₂) fun {_ w₃} _ _ =>
      recollects_refl w₃

theorem recollects_buildShape (hd : w.session.Describes env d) :
    w.Recollects env (after (env.buildShape builder d) w) := by
  have hlift {r : Except Fault Constraints} {w : Walk} : w.Recollects env (after (lift r) w) := by
    rw [after_lift]
    exact recollects_refl w
  unfold buildShape
  cases hshape : d.shape with
  | nullable =>
    exact recollects_bind (recollects_referTo hb _ w) fun {_ w₁} _ _ => recollects_refl w₁
  | primitive | unknown =>
    exact recollects_bind (recollects_bind hlift fun {_ w₁} _ _ => recollects_refl w₁)
      fun {_ w₁} _ _ => recollects_refl w₁
  | array =>
    refine recollects_bind (recollects_referTo hb _ w) fun {_ w₁} _ _ => ?_
    exact recollects_bind (recollects_bind hlift fun {_ w₂} _ _ => recollects_refl w₂)
      fun {_ w₂} _ _ => recollects_refl w₂
  | map => exact recollects_bind (recollects_mapNode hb d w) fun {_ w₁} _ _ => recollects_refl w₁
  | enum | object => exact recollects_namedNode hb hd (by rw [hshape]; rfl)

end Builder

/-- **Building a type that has been described keeps a session recalling.** -/
theorem recollects_build (n : Nat) : env.Recollecting (env.build n) := by
  induction n with
  | zero => exact fun {_ w} _ => recollects_refl w
  | succ n ih =>
    intro d w hd
    obtain ⟨w₁, hw₁, heq⟩ := after_deepening env d (env.buildShape (env.build n) d) w
    have hdeeper : w.deeper.Recollects env w₁ := by
      rcases hw₁ with rfl | rfl
      · exact recollects_refl _
      · exact recollects_buildShape ih hd
    rw [show after (env.build (n + 1) d) w = _ from heq]
    refine ⟨heq ▸ keeps_build (n + 1) d w, hdeeper.recalls⟩

theorem recollects_referRoot (hd : w.session.Describes env d) :
    w.Recollects env (after (env.referRoot d) w) :=
  recollects_refer (recollects_build _) hd

end Environment

end Schemata
