import Schemata.Proofs.Outcome
import Mathlib.Data.List.Basic

/-!
# What a session knows

Asking what a type is, where its bases end or whether it is published as an array changes
nothing but what the session has learned: readings are added, and none is ever changed or
dropped, and the same goes for the instances that defaults are read from.  An answer once given is
therefore given again by every session that knows as much, and this time without anything being
learned.  `Build.Reads` says that a computation is of this sort, and `Session.Settles` that its
answer is settled.

With this, the answers that a walk gets at different times are all answers of the session it
ends in, and what is said about the graph of types can be said about that session.
-/

namespace Schemata

/-- Everything read in one session has been read in another. -/
def Session.Below (s s' : Session) : Prop :=
  s.readings <+: s'.readings

namespace Session.Below

variable {s s₁ s₂ : Session}

theorem refl (s : Session) : s.Below s :=
  List.prefix_refl _

theorem trans (h₁ : s.Below s₁) (h₂ : s₁.Below s₂) : s.Below s₂ :=
  List.IsPrefix.trans h₁ h₂

end Session.Below

/-- The answer of a computation is settled: every session that knows as much gives it, and
learns nothing by it. -/
def Session.Settles {α : Type} (s : Session) (x : Build α) (a : α) : Prop :=
  ∀ w : Walk, s.Below w.session → x w = .ok a w

theorem Session.Settles.mono {α : Type} {s s' : Session} {x : Build α} {a : α}
    (h : s.Settles x a) (hs : s.Below s') : s'.Settles x a :=
  fun w hw => h w (hs.trans hw)

/-- A settled answer is the only one. -/
theorem Session.Settles.unique {α : Type} {s : Session} {x : Build α} {a b : α}
    (ha : s.Settles x a) (hb : s.Settles x b) : a = b := by
  have h := (ha ⟨s, []⟩ (.refl s)).symm.trans (hb ⟨s, []⟩ (.refl s))
  injection h

/-- Every reading says of its type what the program says, and stands where its identity
tells. -/
def Session.WellRead (env : Environment) (s : Session) : Prop :=
  ∀ (i : Nat) (t : Token) (d : Descriptor), s.readings[i]? = some (t, d) →
    ∃ d₀, env.program.read env.kinds t = .ok d₀ ∧ d = { d₀ with identity := .kept i }

/-- A session has learned something and stored nothing. -/
structure Session.Learns (env : Environment) (s s' : Session) : Prop where
  below : s.Below s'
  registry : s'.registry = s.registry
  claims : s'.claims = s.claims
  depth : s'.depth = s.depth
  wellRead : s.WellRead env → s'.WellRead env
  instances : s.instances <+: s'.instances

namespace Session.Learns

variable {env : Environment} {s s₁ s₂ : Session}

theorem refl (s : Session) : s.Learns env s :=
  ⟨.refl _, rfl, rfl, rfl, id, List.prefix_refl _⟩

theorem trans (h₁ : s.Learns env s₁) (h₂ : s₁.Learns env s₂) : s.Learns env s₂ where
  below := h₁.below.trans h₂.below
  registry := h₂.registry.trans h₁.registry
  claims := h₂.claims.trans h₁.claims
  depth := h₂.depth.trans h₁.depth
  wellRead := h₂.wellRead ∘ h₁.wellRead
  instances := List.IsPrefix.trans h₁.instances h₂.instances

instance : IsPreorder Session (Session.Learns env) where
  refl := refl
  trans _ _ _ := trans

end Session.Learns

/-- A walk has learned something, and visits what it visited. -/
structure Walk.Learns (env : Environment) (w w' : Walk) : Prop where
  session : w.session.Learns env w'.session
  visited : w'.visited = w.visited

namespace Walk.Learns

variable {env : Environment} {w w₁ w₂ : Walk}

theorem refl (w : Walk) : w.Learns env w :=
  ⟨.refl _, rfl⟩

theorem trans (h₁ : w.Learns env w₁) (h₂ : w₁.Learns env w₂) : w.Learns env w₂ :=
  ⟨h₁.session.trans h₂.session, h₂.visited.trans h₁.visited⟩

theorem below (h : w.Learns env w₁) : w.session.Below w₁.session :=
  h.session.below

instance : IsPreorder Walk (Walk.Learns env) where
  refl := refl
  trans _ _ _ := trans

end Walk.Learns

namespace Build

variable {env : Environment} {α β : Type}

/-- A computation that only reads types, and whose answers are settled once they are given. -/
structure Reads (env : Environment) (x : Build α) : Prop where
  learns : Keeps (Walk.Learns env) x
  settles : ∀ {w a w'}, x w = .ok a w' → w'.session.Settles x a
  instances : ∀ w, (after x w).session.instances = w.session.instances

namespace Reads

theorem pure (a : α) : Reads env (pure a : Build α) where
  learns := Keeps.pure a
  settles := by
    rintro w _ _ ⟨⟩
    exact fun _ _ => rfl
  instances _ := rfl

theorem lift (r : Except Fault α) : Reads env (Build.lift r) where
  learns := Keeps.of_still (after_lift r)
  settles := by
    intro w a w' h
    rw [(lift_eq_ok.mp h).1]
    exact fun _ _ => rfl
  instances w := by rw [after_lift]

theorem throw (e : Fault) : Reads env (throw e : Build α) where
  learns := Keeps.throw e
  settles := nofun
  instances _ := rfl

theorem bind {x : Build α} {f : α → Build β} (hx : Reads env x) (hf : ∀ a, Reads env (f a)) :
    Reads env (x >>= f) where
  learns := hx.learns.bind fun a => (hf a).learns
  settles := by
    intro w b w' h
    obtain ⟨a, w₁, hxa, hfb⟩ := bind_eq_ok.mp h
    have hbelow : w₁.session.Below w'.session := ((hf a).learns.ok hfb).below
    intro v hv
    rw [bind_of_ok (hx.settles hxa v (hbelow.trans hv))]
    exact (hf a).settles hfb v hv
  instances w := by
    show (after (EStateM.bind x f) w).session.instances = _
    have hw := hx.instances w
    unfold after EStateM.bind
    cases h : x w with
    | ok a w₁ =>
      rw [after_of_ok h] at hw
      exact ((hf a).instances w₁).trans hw
    | error e w₁ =>
      rw [after_of_error h] at hw
      exact hw

/-- The two sides of a choice that is made before anything is read. -/
theorem ite {c : Prop} [Decidable c] {x y : Build α} (hx : Reads env x) (hy : Reads env y) :
    Reads env (if c then x else y) := by
  split
  · exact hx
  · exact hy

/-- What a successful answer is, seen from any session that knows as much as the one it was
given in. -/
theorem settles_of_below {x : Build α} (hx : Reads env x) {w w' : Walk} {a : α}
    (h : x w = .ok a w') {s : Session} (hs : w'.session.Below s) : s.Settles x a :=
  (hx.settles h).mono hs

end Reads

end Build

@[simp] theorem Token.asType_asType (t : Token) : t.asType.asType = t.asType := by
  cases t <;> rfl

theorem Token.asType_ne_crafted {t : Token} {i : Nat} (h : t ≠ .crafted i) :
    t.asType ≠ .crafted i := by
  cases t with
  | none => exact nofun
  | _ => exact h

namespace Environment

open Build

variable (env : Environment)

/-! ## Reading types -/

theorem describe_crafted (i : Nat) :
    env.describe (.crafted i) =
      Pure.pure { (env.program.crafted[i]?).getD default with identity := .crafted i } := by
  rw [describe]

@[simp] theorem describe_asType (t : Token) : env.describe t.asType = env.describe t := by
  cases t <;> rfl

theorem describe_eq {t : Token} (ht : ∀ i, t ≠ .crafted i) :
    env.describe t =
      if t.asType.isKey then do
        match ← asks fun s => s.readings.find? fun e => e.1.same t.asType with
        | some e => return e.2
        | none => env.readNew t.asType
      else do
        return { ← lift (env.program.read env.kinds t.asType) with identity := .passing } := by
  cases t with
  | crafted i => exact absurd rfl (ht i)
  | _ => rfl

variable {env}

theorem readNew_eq_ok {t : Token} {d : Descriptor} {w w' : Walk} :
    env.readNew t w = .ok d w' ↔ ∃ d₀, env.program.read env.kinds t = .ok d₀ ∧
      d = { d₀ with identity := .kept w.session.readings.length } ∧
      w' = { w with session :=
        { w.session with readings := w.session.readings ++ [(t, d)] } } := by
  unfold readNew
  cases env.program.read env.kinds t with
  | error e => exact ⟨nofun, by rintro ⟨_, ⟨⟩, _⟩⟩
  | ok d₀ =>
    constructor
    · rintro ⟨⟩
      exact ⟨d₀, rfl, rfl, rfl⟩
    · rintro ⟨_, ⟨⟩, rfl, rfl⟩
      rfl

theorem wellRead_append {s : Session} {t : Token} {d₀ : Descriptor} (hs : s.WellRead env)
    (h : env.program.read env.kinds t = .ok d₀) :
    Session.WellRead env { s with readings :=
      s.readings ++ [(t, { d₀ with identity := .kept s.readings.length })] } := by
  intro i t' d hi
  rw [List.getElem?_append] at hi
  split at hi
  · exact hs i t' d hi
  · rw [List.getElem?_singleton] at hi
    split at hi
    next hlt hi0 =>
      have hlen : i = s.readings.length := by omega
      obtain ⟨rfl, rfl⟩ := Prod.mk.inj (Option.some.inj hi)
      exact ⟨d₀, h, by rw [hlen]⟩
    next => cases hi

theorem keeps_readNew (t : Token) : Keeps (Walk.Learns env) (env.readNew t) := by
  refine Keeps.of_outcomes ?_ ?_
  · intro w d w' h
    obtain ⟨d₀, hr, rfl, rfl⟩ := readNew_eq_ok.mp h
    exact ⟨⟨List.prefix_append _ _, rfl, rfl, rfl, fun hw => wellRead_append hw hr,
      List.prefix_refl _⟩, rfl⟩
  · intro w e w' h
    unfold readNew at h
    cases hr : env.program.read env.kinds t with
    | ok d₀ =>
      rw [hr] at h
      cases h
    | error e =>
      rw [hr] at h
      cases h
      exact .refl _

theorem instances_readNew (t : Token) (w : Walk) :
    (after (env.readNew t) w).session.instances = w.session.instances := by
  unfold after readNew
  cases env.program.read env.kinds t <;> rfl

/-- A reading that has been kept is found again. -/
theorem find?_of_below {s s' : Session} (h : s.Below s') {p : Token × Descriptor → Bool}
    {e : Token × Descriptor} (he : s.readings.find? p = some e) :
    s'.readings.find? p = some e := by
  obtain ⟨l, hl⟩ := h
  rw [← hl, List.find?_append, he]
  rfl

/-- **A type is read once**, and asking for it again gives the reading. -/
theorem reads_describe (t : Token) : Reads env (env.describe t) := by
  by_cases ht : ∃ i, t = .crafted i
  · obtain ⟨i, rfl⟩ := ht
    rw [describe_crafted]
    exact Reads.pure _
  rw [describe_eq env fun i hi => ht ⟨i, hi⟩]
  generalize t.asType = t
  by_cases hk : t.isKey = true
  · rw [if_pos hk]
    have hself : t.same t = true := (Bool.and_eq_true _ _ ▸ hk).2
    constructor
    · refine Keeps.bind (Keeps.of_still fun _ => rfl) fun found => ?_
      cases found with
      | some e => exact Keeps.pure _
      | none => exact keeps_readNew t
    · intro w d w' h v hv
      obtain ⟨found, w₁, hf, h⟩ := bind_eq_ok.mp h
      obtain ⟨hfound, rfl⟩ := asks_eq_ok.mp hf
      -- in the later session the reading is found, be it the one found before or the new one
      suffices hv' : ∃ t', v.session.readings.find? (fun e => e.1.same t) = some (t', d) by
        obtain ⟨t', hv'⟩ := hv'
        rw [bind_of_ok (asks_eq_ok.mpr ⟨rfl, rfl⟩), hv']
        rfl
      cases found with
      | some e =>
        obtain ⟨rfl, rfl⟩ := pure_eq_ok.mp h
        exact ⟨e.1, find?_of_below hv hfound.symm⟩
      | none =>
        obtain ⟨d₀, _, rfl, rfl⟩ := readNew_eq_ok.mp h
        refine ⟨t, find?_of_below hv ?_⟩
        show (w₁.session.readings ++ [_]).find? _ = _
        rw [List.find?_append, ← hfound, Option.none_or]
        exact List.find?_cons_of_pos hself
    · intro w
      unfold after
      rw [bind_of_ok (asks_eq_ok.mpr ⟨rfl, rfl⟩)]
      cases w.session.readings.find? fun e => e.1.same t with
      | some e => rfl
      | none => exact instances_readNew t w
  · rw [if_neg hk]
    exact Reads.bind (Reads.lift _) fun _ => Reads.pure _

/-! ## Bases -/

theorem reads_basesFrom (fuel : Nat) (seen : List Identity) (d : Descriptor) :
    Reads env (env.basesFrom fuel seen d) := by
  induction fuel generalizing seen d with
  | zero => exact Reads.pure _
  | succ fuel ih =>
    unfold basesFrom
    cases d.base with
    | none => exact Reads.pure _
    | some t =>
      refine Reads.bind (reads_describe t) fun b => ?_
      refine Reads.ite (Reads.pure _) (Reads.ite (Reads.pure _) ?_)
      exact Reads.bind (ih _ b) fun _ => Reads.pure _

theorem reads_baseChain (d : Descriptor) : Reads env (env.baseChain d) :=
  reads_basesFrom _ _ d

theorem reads_primitiveKind (d : Descriptor) : Reads env (env.primitiveKind d) := by
  unfold primitiveKind
  refine Reads.ite (Reads.pure _) (Reads.bind (reads_baseChain d) fun bases => ?_)
  cases bases.getLast? with
  | none => exact Reads.pure _
  | some b => exact Reads.pure _

theorem reads_publishesArray (d : Descriptor) : Reads env (env.publishesArray d) := by
  unfold publishesArray
  refine Reads.ite (Reads.pure _) (Reads.bind (reads_primitiveKind d) fun kind => ?_)
  exact Reads.ite (Reads.pure _) (Reads.bind (Reads.lift _) fun _ => Reads.pure _)

theorem reads_isInline (d : Descriptor) : Reads env (env.isInline d) := by
  unfold isInline
  exact Reads.ite (Reads.pure _) (Reads.bind (reads_primitiveKind d) fun _ => Reads.pure _)

theorem reads_namedLeaf (d : Descriptor) (kind : Kind) : Reads env (env.namedLeaf d kind) := by
  unfold namedLeaf
  refine Reads.bind (reads_baseChain d) fun bases => Reads.bind (Reads.lift _) fun c => ?_
  cases c.apply kind.schema with
  | leaf k type => exact Reads.pure _
  | _ => exact Reads.pure _

theorem reads_checkRequired (d : Descriptor) (o : ObjectParts) :
    Reads env (env.checkRequired d o) := by
  unfold checkRequired
  refine Reads.bind (reads_baseChain d) fun bases => ?_
  exact Reads.ite (Reads.pure _) (Reads.throw _)

/-! ## What else only learns

Whether a type is being visited and what its default is are not settled answers: the one is up
to the walk, and an instance is made once, whatever comes of it.  Asking still changes nothing
else. -/

theorem learns_asks {α : Type} (f : Session → α) : Keeps (Walk.Learns env) (asks f) :=
  Keeps.of_still fun _ => rfl

theorem learns_lift {α : Type} (r : Except Fault α) : Keeps (Walk.Learns env) (lift r) :=
  Keeps.of_still (after_lift r)

theorem learns_isVisited (k : Key) : Keeps (Walk.Learns env) (isVisited k) :=
  (learns_lift _).bind fun _ => Keeps.of_still fun _ => rfl

theorem learns_isAwaited (d : Descriptor) : Keeps (Walk.Learns env) (env.isAwaited d) :=
  (learns_isVisited _).bind fun _ =>
    Keeps.ite ((reads_publishesArray d).learns.bind fun _ => Keeps.pure _) (Keeps.pure _)

theorem learns_isArrayVisited (d : Descriptor) :
    Keeps (Walk.Learns env) (env.isArrayVisited d) :=
  (learns_isVisited _).bind fun _ => Keeps.ite (reads_publishesArray d).learns (Keeps.pure _)

theorem learns_annotate (records : List Record) (n : Node) :
    Keeps (Walk.Learns env) (annotate records n) :=
  (learns_lift _).bind fun _ => Keeps.pure _

theorem learns_instanceOf (d : Descriptor) : Keeps (Walk.Learns env) (instanceOf d) := by
  unfold instanceOf
  refine (learns_lift _).bind fun _ => (learns_asks _).bind fun found => ?_
  cases found with
  | some e => exact Keeps.pure _
  | none =>
    refine Keeps.bind (fun w => ?_) fun _ => Keeps.pure _
    exact ⟨⟨.refl _, rfl, rfl, rfl, id, List.prefix_append _ _⟩, rfl⟩

theorem learns_capture (d : Descriptor) (q : Property) :
    Keeps (Walk.Learns env) (capture d q) := by
  unfold capture
  refine (learns_instanceOf d).bind fun made => ?_
  split
  · exact Keeps.pure _
  · exact (learns_lift _).bind fun _ => Keeps.ite (Keeps.pure _) (Keeps.pure _)

theorem learns_dress (d : Descriptor) (q : Property) (c : Constraints) (held : Node) :
    Keeps (Walk.Learns env) (env.dress d q c held) := by
  unfold dress
  simp only
  split
  · refine Keeps.ite ((learns_capture d q).bind fun v => ?_) (Keeps.pure _)
    cases v with
    | some v => exact Keeps.pure _
    | none => exact Keeps.pure _
  · exact Keeps.pure _

end Environment

end Schemata
