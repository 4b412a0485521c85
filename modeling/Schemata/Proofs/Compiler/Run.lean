import Schemata.Proofs.Synthesis.References

/-!
# Runs of a compiler

A host works with a compiler by calling it, again and again, on types it finds; some of the
calls fail.  `Compiler.run` is the session after any number of calls on a compiler of its own.

What a call leaves behind is one of two things.  A call that succeeds has made the session grow:
everything that was stored or claimed is there as it was, with the new behind it.  A call that
fails has only learned.  Two mechanisms see to the latter: the writes of a call are a group that
is dropped as a whole, and claims on names that are not stored are forgotten.  That both come to
the same is an invariant of the session between calls, `Session.Tidy`: names are claimed that
are stored, and no others.

Inferring a schema is not done in a group.  It never stores anything (`learns_inferWithin`), since
it builds only leaves.
-/

namespace Schemata

/-! ## The end of a call -/

/-- Claims on stored names are not forgotten. -/
theorem filter_contains_of_subset {r : Registry Node} {claims : List (String × Key)}
    (h : ∀ c ∈ claims, c.1 ∈ r.names) : claims.filter (fun c => r.contains c.1) = claims :=
  List.filter_eq_self.mpr fun c hc => Registry.contains_iff.mpr (h c hc)

/-- What is left of a scene when a call ends: nothing is visited, and claims on names that are not
stored are forgotten. -/
def Scene.resting (σ : Scene) : Scene :=
  ⟨σ.registry, σ.claims.filter fun c => σ.registry.contains c.1, []⟩

/-- Where all that is claimed is stored, nothing is forgotten. -/
theorem Scene.resting_eq {σ : Scene} (h : σ.claimed ⊆ σ.names) :
    σ.resting = { σ with visited := [] } := by
  rw [resting, filter_contains_of_subset fun c hc => h (List.mem_map_of_mem hc)]

/-! ## Calls in turn -/

/-- What a host asks of a compiler. -/
inductive Call where
  | ensure (t : Token)
  | schemaFor (t : Token) (inlined : Bool)
  | infer (t : Token) (inlined : Bool)

/-- The type that a call is to publish. -/
def Call.published? : Call → Option Token
  | .ensure t => some t
  | .schemaFor t _ => some t
  | .infer _ _ => none

namespace Compiler

/-- What a compiler does about a call. -/
def answer (c : Compiler) : Call → Request Node
  | .ensure t => c.ensure t
  | .schemaFor t inlined => c.schemaFor t inlined
  | .infer t inlined => c.infer t inlined

/-- **The session after some calls**, whether they succeed or fail. -/
def run (c : Compiler) (calls : List Call) : Session :=
  calls.foldl (fun s call => after (c.answer call) s) {}

@[simp] theorem run_append (c : Compiler) (before : List Call) (call : Call) :
    c.run (before ++ [call]) = after (c.answer call) (c.run before) :=
  List.foldl_append

/-- What holds at first and is kept by every call holds after any number of them. -/
theorem run_induction (c : Compiler) {P : Session → Prop} (calls : List Call) (hfirst : P {})
    (hcall : ∀ s, ∀ call ∈ calls, P s → P (after (c.answer call) s)) : P (c.run calls) := by
  have hfold : ∀ (later : List Call) (s : Session), later ⊆ calls → P s →
      P (later.foldl (fun s call => after (c.answer call) s) s) := by
    intro later
    induction later with
    | nil => exact fun _ _ => id
    | cons call later ih =>
      intro s hsub hs
      obtain ⟨hmem, hsub⟩ := List.cons_subset.mp hsub
      exact ih _ hsub (hcall s call hmem hs)
  exact hfold calls {} (List.Subset.refl calls) hfirst

end Compiler

namespace Session

variable {env : Environment} {s s' : Session} {α : Type}

/-! ## Computations with nothing visited -/

theorem run_eq_ok {x : Build α} {a : α} :
    Session.run x s = .ok a s' ↔ ∃ w, x ⟨s, []⟩ = .ok a w ∧ s' = w.session := by
  unfold Session.run
  cases x ⟨s, []⟩ with
  | ok b w =>
    constructor
    · rintro ⟨⟩
      exact ⟨w, rfl, rfl⟩
    · rintro ⟨_, ⟨⟩, rfl⟩
      rfl
  | error e w => exact ⟨nofun, by rintro ⟨_, ⟨⟩, _⟩⟩

@[simp] theorem after_run (x : Build α) (s : Session) :
    after (Session.run x) s = (after x ⟨s, []⟩).session := by
  unfold after Session.run
  cases x ⟨s, []⟩ <;> rfl

theorem learns_run {x : Build α} (h : Keeps (Walk.Learns env) x) :
    Keeps (Session.Learns env) (Session.run x) := by
  intro s
  rw [after_run]
  exact (h ⟨s, []⟩).session

/-! ## Between calls -/

/-- The scene between calls: nothing is visited. -/
def scene (s : Session) : Scene :=
  Walk.scene ⟨s, []⟩

theorem Learns.scene (h : s.Learns env s') : s'.scene = s.scene := by
  have hwalk : Walk.Learns env ⟨s, []⟩ ⟨s', []⟩ := ⟨h, rfl⟩
  exact hwalk.scene

/-- The state of a session between calls: what is claimed is what is stored. -/
structure Tidy (env : Environment) (s : Session) : Prop where
  claimed : ∀ name, name ∈ s.claimed ↔ name ∈ s.registry.names
  depth : s.depth = 0
  nodup : s.registry.names.Nodup
  wellRead : s.WellRead env

theorem tidy_empty : Tidy env {} := by
  refine ⟨fun name => Iff.rfl, rfl, List.nodup_nil, fun i t d hi => ?_⟩
  rw [List.getElem?_nil] at hi
  cases hi

theorem Tidy.of_learns (h : s.Tidy env) (hlearns : s.Learns env s') : s'.Tidy env where
  claimed := by
    rw [Session.claimed, hlearns.claims, hlearns.registry]
    exact h.claimed
  depth := hlearns.depth.trans h.depth
  nodup := hlearns.registry ▸ h.nodup
  wellRead := hlearns.wellRead h.wellRead

/-- **A group that is dropped** takes its claims with it. -/
theorem learns_of_rollback (hs : s.Tidy env)
    (h : Session.Grows env (Registry.within Registry.open_ s) s') :
    s.Learns env (Registry.within Registry.rollback s').prune := by
  obtain ⟨new, hgrown⟩ := h.registry
  obtain ⟨claims, hclaims, hfree⟩ := h.claims
  have hregistry : s'.registry.rollback = s.registry := hgrown.rollback
  refine ⟨h.below, hregistry, ?_, h.depth, h.wellRead, h.instances⟩
  show s'.claims.filter (fun c => s'.registry.rollback.contains c.1) = s.claims
  rw [hregistry, hclaims, List.filter_append]
  have hold : s.claims.filter (fun c => s.registry.contains c.1) = s.claims :=
    filter_contains_of_subset fun c hc => (hs.claimed _).mp (List.mem_map_of_mem hc)
  have hnew : claims.filter (fun c => s.registry.contains c.1) = [] := by
    refine List.filter_eq_nil_iff.mpr fun c hc hmem => ?_
    exact hfree c hc ((hs.claimed _).mpr (Registry.contains_iff.mp hmem))
  show s.claims.filter _ ++ _ = s.claims
  rw [hold, hnew, List.append_nil]

/-- **A group that is kept** leaves everything as it was, with the new behind it. -/
theorem grows_of_commit (hs : s.Tidy env)
    (h : Session.Grows env (Registry.within Registry.open_ s) s') :
    s.Grows env (Registry.within Registry.commit s').prune ∧
      (Registry.within Registry.commit s').prune.Tidy env := by
  obtain ⟨new, hgrown⟩ := h.registry
  obtain ⟨claims, hclaims, hfree⟩ := h.claims
  have hcommit : Registry.Grown s.registry new s'.registry.commit := hgrown.commit
  have hnames : s'.registry.commit.names = s'.registry.names := by
    rw [hcommit.names, hgrown.names]
    rfl
  have hpruned : (Registry.within Registry.commit s').prune.claims =
      s.claims ++ claims.filter (fun c => s'.registry.commit.contains c.1) := by
    show s'.claims.filter (fun c => s'.registry.commit.contains c.1) = _
    rw [hclaims, List.filter_append]
    show s.claims.filter (fun c => s'.registry.commit.contains c.1) ++ _ = _
    rw [filter_contains_of_subset fun c hc =>
      hcommit.names_subset ((hs.claimed _).mp (List.mem_map_of_mem hc))]
  have hclaimed : ∀ name, name ∈ (Registry.within Registry.commit s').prune.claimed ↔
      name ∈ s'.registry.commit.names := by
    intro name
    constructor
    · intro hname
      obtain ⟨c, hc, rfl⟩ := List.mem_map.mp hname
      exact Registry.contains_iff.mp (List.mem_filter.mp hc).2
    · intro hname
      have hbefore : name ∈ s'.claimed := by
        rcases h.owned name (hnames ▸ hname) with hold | hnew
        · exact h.claimed_subset ((hs.claimed name).mpr hold)
        · exact hnew
      obtain ⟨c, hc, rfl⟩ := List.mem_map.mp hbefore
      exact List.mem_map_of_mem (List.mem_filter.mpr ⟨hc, Registry.contains_iff.mpr hname⟩)
  refine ⟨⟨h.below, h.wellRead, h.depth, ⟨new, hcommit⟩, ⟨_, hpruned, ?_⟩, ?_, h.instances⟩, ?_⟩
  · exact fun c hc => hfree c (List.mem_filter.mp hc).1
  · exact fun name hname => .inr ((hclaimed name).mpr hname)
  · exact ⟨hclaimed, h.depth.trans hs.depth, hcommit.names_nodup hs.nodup, h.wellRead hs.wellRead⟩

end Session

namespace Compiler

variable {c : Compiler} {s s' : Session} {t : Token} {n : Node}

/-! ## Publishing -/

theorem learns_describe (c : Compiler) (t : Token) :
    Keeps (Session.Learns c.environment) (c.describe t) :=
  Session.learns_run (Environment.reads_describe t).learns

/-- How a type is published: it is described, it is referred to in a group of writes of its
own, and the group is kept. -/
theorem ensure_eq_ok : c.ensure t s = .ok n s' ↔ ∃ d s₁ w, c.describe t s = .ok d s₁ ∧
    c.environment.referRoot d ⟨Registry.within Registry.open_ s₁, []⟩ = .ok n w ∧
    s' = (Registry.within Registry.commit w.session).prune := by
  unfold ensure
  rw [bind_eq_ok]
  refine exists_congr fun d => ?_
  constructor
  · rintro ⟨s₁, hd, h⟩
    unfold Session.pruning Registry.transaction Session.run at h
    cases hr : c.environment.referRoot d ⟨Registry.within Registry.open_ s₁, []⟩ with
    | ok m w =>
      rw [hr] at h
      cases h
      exact ⟨s₁, w, hd, hr, rfl⟩
    | error e w =>
      rw [hr] at h
      cases h
  · rintro ⟨s₁, w, hd, hr, rfl⟩
    refine ⟨s₁, hd, ?_⟩
    unfold Session.pruning Registry.transaction Session.run
    rw [hr]

/-- How publishing a type fails: it cannot be described, or the group is dropped. -/
theorem ensure_error {e : Fault} (h : c.ensure t s = .error e s') :
    c.describe t s = .error e s' ∨ ∃ d s₁ w, c.describe t s = .ok d s₁ ∧
      c.environment.referRoot d ⟨Registry.within Registry.open_ s₁, []⟩ = .error e w ∧
      s' = (Registry.within Registry.rollback w.session).prune := by
  rcases bind_eq_error.mp h with hd | ⟨d, s₁, hd, h⟩
  · exact .inl hd
  · unfold Session.pruning Registry.transaction Session.run at h
    cases hr : c.environment.referRoot d ⟨Registry.within Registry.open_ s₁, []⟩ with
    | ok m w =>
      rw [hr] at h
      cases h
    | error e₁ w =>
      rw [hr] at h
      cases h
      exact .inr ⟨d, s₁, w, hd, hr, rfl⟩

/-- A group that fails is dropped. -/
theorem ensure_of_error {d : Descriptor} {s₁ : Session} {e : Fault} {w : Walk}
    (hd : c.describe t s = .ok d s₁)
    (h : c.environment.referRoot d ⟨Registry.within Registry.open_ s₁, []⟩ = .error e w) :
    c.ensure t s = .error e (Registry.within Registry.rollback w.session).prune := by
  refine bind_eq_error.mpr (.inr ⟨d, s₁, hd, ?_⟩)
  unfold Session.pruning Registry.transaction Session.run
  rw [h]

theorem grows_of_ensure (hs : s.Tidy c.environment) (h : c.ensure t s = .ok n s') :
    s.Grows c.environment s' ∧ s'.Tidy c.environment := by
  obtain ⟨d, s₁, w, hd, hr, rfl⟩ := ensure_eq_ok.mp h
  have hlearns := (learns_describe c t).ok hd
  obtain ⟨hgrows, htidy⟩ := Session.grows_of_commit (hs.of_learns hlearns)
    ((Environment.keeps_referRoot d).ok hr)
  exact ⟨hlearns.grows.trans hgrows, htidy⟩

theorem learns_of_ensure {e : Fault} (hs : s.Tidy c.environment)
    (h : c.ensure t s = .error e s') : s.Learns c.environment s' := by
  rcases ensure_error h with hd | ⟨d, s₁, w, hd, hr, rfl⟩
  · exact (learns_describe c t).error hd
  · have hlearns := (learns_describe c t).ok hd
    exact hlearns.trans (Session.learns_of_rollback (hs.of_learns hlearns)
      ((Environment.keeps_referRoot d).error hr))

/-- **The course of a successful call**, seen from any session that knows as much as the one that
it ends in.  It starts with nothing visited, and when it has ended the claims are forgotten that are
on names that are not stored. -/
theorem course_of_ensure {S : Session} {g : List (Key × Option Value)} (h : c.ensure t s = .ok n s')
    (hS : s'.Below S) (hg : s'.instances <+: g) :
    ∃ d w w', S.Settles (c.environment.describe t) d ∧
      Course c.environment S g c.environment.levels (.refers d n) w w' ∧
      w.scene = s.scene ∧ w.session.depth = s.depth ∧ s'.scene = w'.scene.resting := by
  obtain ⟨d, s₁, w, hd, hr, rfl⟩ := ensure_eq_ok.mp h
  have hgrows : s₁.Below w.session := ((Environment.keeps_referRoot d).ok hr).below
  have hlearns := (learns_describe c t).ok hd
  obtain ⟨v, hv, rfl⟩ := Session.run_eq_ok.mp hd
  refine ⟨d, _, w, (Environment.reads_describe t).settles_of_below hv (hgrows.trans hS),
    Environment.course_referRoot hr ⟨hS, hg⟩, hlearns.scene, hlearns.depth, ?_⟩
  have hbare := Registry.bare_commit w.session.registry
  have hcontains (name : String) :
      w.session.registry.commit.contains name = w.session.registry.bare.contains name := by
    rw [← hbare]
    rfl
  show Scene.mk w.session.registry.commit.bare (w.session.claims.filter fun c =>
    w.session.registry.commit.contains c.1) [] = _
  simp only [hbare, hcontains]
  rfl

/-- **What a successful call derives.**  It ends with nothing visited, and with the claims on names
that are stored. -/
theorem derives_of_ensure {S : Session} (h : c.ensure t s = .ok n s') (hS : s'.Below S) :
    ∃ d σ, S.Settles (c.environment.describe t) d ∧
      Derives c.environment S (.refers d n) s.scene σ ∧ s'.scene = σ.resting := by
  obtain ⟨d, w, w', hd, hcourse, hstart, -, hend⟩ := course_of_ensure h hS (List.prefix_refl _)
  exact ⟨d, w'.scene, hd, hstart ▸ derives_of_course hcourse, hend⟩

/-- Where a successful call gives a reference, there is something to refer to. -/
theorem mem_names_of_ensure (h : c.ensure t s = .ok n s') :
    n.LeadsInto s'.registry.names := by
  obtain ⟨d, σ, _, hderives, hend⟩ := derives_of_ensure h (.refl _)
  show n.LeadsInto s'.scene.names
  rw [hend]
  exact stored_of_derives hderives rfl

theorem reference_eq_ok {name : String} {copied : Bool} {requester : Option String} :
    reference name copied requester s = .ok n s' ↔ ∃ stored,
      s.registry.get? name = some stored ∧ n = (if copied then stored else .refTo name) ∧
        s' = s := by
  unfold reference
  rw [bind_eq_ok]
  constructor
  · rintro ⟨_, _, ⟨⟩, h⟩
    cases hget : s.registry.get? name with
    | none =>
      rw [hget] at h
      cases h
    | some stored =>
      rw [hget] at h
      exact ⟨stored, rfl, pure_eq_ok.mp h⟩
  · rintro ⟨stored, hget, rfl, rfl⟩
    refine ⟨s', s', rfl, ?_⟩
    rw [hget]
    rfl

theorem learns_reference (name : String) (copied : Bool) (requester : Option String) :
    Keeps (Session.Learns c.environment) (reference name copied requester) := by
  refine Keeps.bind (Keeps.of_still fun _ => rfl) fun s => ?_
  split
  · exact Keeps.throw _
  · exact Keeps.pure _

/-- Giving a copy adds nothing to publishing. -/
theorem schemaFor_eq_ok {inlined : Bool} (h : c.schemaFor t inlined s = .ok n s') :
    ∃ m, c.ensure t s = .ok m s' ∧ (n = m ∨ ∃ name, s'.registry.get? name = some n) := by
  obtain ⟨m, s₁, hm, h⟩ := bind_eq_ok.mp h
  split at h
  next name _ _ _ _ _ =>
    obtain ⟨stored, hget, rfl, rfl⟩ := reference_eq_ok.mp h
    exact ⟨_, hm, .inr ⟨_, hget⟩⟩
  next =>
    obtain ⟨rfl, rfl⟩ := pure_eq_ok.mp h
    exact ⟨_, hm, .inl rfl⟩

/-- A copy can be given of whatever has been published. -/
theorem schemaFor_error {inlined : Bool} {e : Fault}
    (h : c.schemaFor t inlined s = .error e s') : c.ensure t s = .error e s' := by
  rcases bind_eq_error.mp h with h | ⟨m, s₁, hm, h⟩
  · exact h
  · split at h
    next name _ _ _ =>
      obtain ⟨stored, hget⟩ := Option.isSome_iff_exists.mp
        (Registry.isSome_get?_iff.mpr (mem_names_of_ensure hm _ _ _ rfl))
      have hok : reference name true none s₁ = .ok stored s₁ :=
        reference_eq_ok.mpr ⟨stored, hget, rfl, rfl⟩
      cases hok.symm.trans h
    next => cases h

/-! ## Inferring -/

theorem keeps_get {R : Session → Session → Prop} [IsPreorder Session R] :
    Keeps R (get : Request Session) :=
  Keeps.of_still fun _ => rfl

/-- A type that is published in place and wraps nothing is a leaf. -/
theorem learns_buildRoot {d : Descriptor} (hwrapper : d.shape.isWrapper = false)
    (hinline : s.Settles (c.environment.isInline d) true) :
    Walk.Learns c.environment ⟨s, []⟩ (after (c.environment.buildRoot d) ⟨s, []⟩) :=
  Keeps.after_bind (Environment.learns_build _ hwrapper hinline) fun _ => .refl _

theorem learns_inferBare (c : Compiler) (inlined : Bool) {d : Descriptor}
    (hwrapper : d.shape.isWrapper = false) :
    Keeps (Session.Learns c.environment) (c.inferBare inlined d) := by
  intro s
  have hinline : Keeps (Session.Learns c.environment) (Session.run (c.environment.isInline d)) :=
    Session.learns_run (Environment.reads_isInline d).learns
  refine Keeps.after_bind (hinline s) fun {b s₁} hb => ?_
  split
  next hyes =>
    subst hyes
    obtain ⟨w, hw, rfl⟩ := Session.run_eq_ok.mp hb
    rw [Session.after_run]
    exact (learns_buildRoot hwrapper ((Environment.reads_isInline d).settles hw)).session
  next =>
    refine (keeps_get.bind fun s => Keeps.ite (learns_reference _ _ _) ?_) s₁
    refine Keeps.ite (Keeps.pure _) (Keeps.bind ?_ fun _ => Keeps.pure _)
    exact fun s => ⟨.refl _, rfl, rfl, rfl, id, List.prefix_refl _⟩

/-- **Inferring a schema stores nothing**, however it ends. -/
theorem learns_inferWithin (c : Compiler) (inlined : Bool) (fuel : Nat) (t : Token) :
    Keeps (Session.Learns c.environment) (c.inferWithin inlined fuel t) := by
  induction fuel generalizing t with
  | zero => exact Keeps.throw _
  | succ fuel ih =>
    unfold inferWithin
    refine (learns_describe c t).bind fun d => ?_
    cases hshape : d.shape with
    | nullable | array => exact (ih _).bind fun _ => Keeps.pure _
    | map =>
      refine (learns_describe c _).bind fun value => Keeps.ite (Keeps.pure _) ?_
      exact (ih _).bind fun _ => Keeps.pure _
    | primitive | unknown | enum | object =>
      exact learns_inferBare c inlined (by rw [hshape]; rfl)

/-! ## Calls -/

variable {call : Call}

/-- A call that succeeds only adds. -/
theorem grows_of_answer (hs : s.Tidy c.environment) (h : c.answer call s = .ok n s') :
    s.Grows c.environment s' ∧ s'.Tidy c.environment := by
  cases call with
  | ensure t => exact grows_of_ensure hs h
  | schemaFor t inlined =>
    obtain ⟨m, hm, _⟩ := schemaFor_eq_ok h
    exact grows_of_ensure hs hm
  | infer t inlined =>
    have hlearns := (learns_inferWithin c inlined nestingLimit t).ok h
    exact ⟨hlearns.grows, hs.of_learns hlearns⟩

/-- A call that fails only learns. -/
theorem learns_of_answer {e : Fault} (hs : s.Tidy c.environment)
    (h : c.answer call s = .error e s') : s.Learns c.environment s' := by
  cases call with
  | ensure t => exact learns_of_ensure hs h
  | schemaFor t inlined => exact learns_of_ensure hs (schemaFor_error h)
  | infer t inlined => exact (learns_inferWithin c inlined nestingLimit t).error h

/-- However a call ends, the session is tidy again. -/
theorem tidy_after_answer (hs : s.Tidy c.environment) :
    (after (c.answer call) s).Tidy c.environment := by
  unfold after
  cases h : c.answer call s with
  | ok n s' => exact (grows_of_answer hs h).2
  | error e s' => exact hs.of_learns (learns_of_answer hs h)

theorem tidy_run (c : Compiler) (calls : List Call) : (c.run calls).Tidy c.environment :=
  c.run_induction calls Session.tidy_empty fun _ _ _ => tidy_after_answer

/-- **Induction on calls.**  What holds at first, is kept where a session only learns and is kept
by calls that succeed, holds after any number of calls.  Every session on the way has grown into the
one that the calls end in. -/
theorem run_induction_of_grows {P : Session → Prop} (calls : List Call) (hfirst : P {})
    (hlearns : ∀ {s s'}, P s → s.Learns c.environment s' → P s')
    (hanswer : ∀ {s call n s'}, call ∈ calls → s.Tidy c.environment → P s →
      c.answer call s = .ok n s' → s'.Grows c.environment (c.run calls) → P s') :
    P (c.run calls) := by
  refine (c.run_induction
    (P := fun s => s.Tidy c.environment ∧ (s.Grows c.environment (c.run calls) → P s)) calls
    ⟨Session.tidy_empty, fun _ => hfirst⟩ ?_).2 (.refl _)
  rintro s call hmem ⟨htidy, hs⟩
  refine ⟨tidy_after_answer htidy, fun hafter => ?_⟩
  unfold after at hafter ⊢
  cases h : c.answer call s with
  | ok n s' =>
    rw [h] at hafter
    exact hanswer hmem htidy (hs ((grows_of_answer htidy h).1.trans hafter)) h hafter
  | error e s' =>
    rw [h] at hafter
    have hlearned := learns_of_answer htidy h
    exact hlearns (hs (hlearned.grows.trans hafter)) hlearned

/-- **Induction on the calls that publish something.**  Inferring a schema only learns, and a copy
is given of what has been published. -/
theorem run_induction_of_ensure {P : Session → Prop} (calls : List Call) (hfirst : P {})
    (hlearns : ∀ {s s'}, P s → s.Learns c.environment s' → P s')
    (hensure : ∀ {s call t n s'}, call ∈ calls → call.published? = some t →
      s.Tidy c.environment → P s → c.ensure t s = .ok n s' →
        s'.Grows c.environment (c.run calls) → P s') :
    P (c.run calls) := by
  refine run_induction_of_grows calls hfirst hlearns ?_
  intro s call n s' hmem htidy hs h hafter
  cases call with
  | ensure t => exact hensure hmem rfl htidy hs h hafter
  | schemaFor t inlined =>
    obtain ⟨m, hm, -⟩ := schemaFor_eq_ok h
    exact hensure hmem rfl htidy hs hm hafter
  | infer t inlined => exact hlearns hs ((learns_inferWithin c inlined nestingLimit t).ok h)

/-- Induction on the calls that publish something, as told by a session that knows as much as the
one that the calls end in. -/
theorem run_induction_below {S : Session} {P : Session → Prop} (hfirst : P {})
    (hlearns : ∀ {s s'}, P s → s.Learns c.environment s' → P s')
    (hensure : ∀ {s t n s'}, s.Tidy c.environment → P s → c.ensure t s = .ok n s' →
      s'.Below S → P s') (calls : List Call) (hbelow : (c.run calls).Below S) :
    P (c.run calls) :=
  run_induction_of_ensure calls hfirst hlearns fun _ _ htidy hs h hgrows =>
    hensure htidy hs h (hgrows.below.trans hbelow)

/-- **Every call is all or nothing, and every name is written once.**  After any number of calls
exactly the stored names are claimed, each is stored once, and nothing is under construction.  A
call that fails then leaves the registry and the claims as they were; a call that succeeds leaves
every entry and every claim as it was and in its place, and puts new ones, under free names,
behind them. -/
theorem run_atomic (c : Compiler) (calls : List Call) (call : Call) :
    ((∀ name, name ∈ (c.run calls).claimed ↔ name ∈ (c.run calls).registry.names) ∧
      (c.run calls).registry.names.Nodup ∧ (c.run calls).depth = 0) ∧
    match c.answer call (c.run calls) with
    | .error _ s' =>
      s'.registry = (c.run calls).registry ∧ s'.claims = (c.run calls).claims
    | .ok _ s' =>
      (∃ new, s'.registry.entries = (c.run calls).registry.entries ++ new ∧
        ∀ e ∈ new, e.1 ∉ (c.run calls).registry.names) ∧
      ∃ new, s'.claims = (c.run calls).claims ++ new ∧ ∀ e ∈ new, e.1 ∉ (c.run calls).claimed := by
  have hs := tidy_run c calls
  refine ⟨⟨hs.claimed, hs.nodup, hs.depth⟩, ?_⟩
  cases h : c.answer call (c.run calls) with
  | error e s' =>
    have hlearns := learns_of_answer hs h
    exact ⟨hlearns.registry, hlearns.claims⟩
  | ok n s' =>
    have hgrows := (grows_of_answer hs h).1
    obtain ⟨new, hnew⟩ := hgrows.registry
    exact ⟨⟨new, hnew.entries, hnew.fresh⟩, hgrows.claims⟩

end Compiler

end Schemata
