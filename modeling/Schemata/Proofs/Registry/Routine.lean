import Schemata.Proofs.Outcome
import Schemata.Proofs.Registry.Growth
import Mathlib.Data.List.Chain

/-!
# Routines on a registry

A host puts entries, ensures names and opens groups in any order it likes, inside one another as
deep as it likes, and any of this may fail at any point.  Builders are routines of their own: they
put entries, ensure names, also the very name that is being ensured, and open groups.  What can be
relied on through all of this are the laws in `Routine.run_store_laws`.

A `Routine` is such a piece of work.  It is a tree whose leaves are the operations of the registry
and whatever else the host does that leaves the registry alone; it may go on depending on what it
was given, and it may go on where something has failed.  It is run by the operations of the registry
themselves (`Routine.run`).

What a routine comes to is a matter of its end, and for the most part so are the laws.  That the
entry of a name *never* changes is not: a name may be stored, dropped with its group, and be stored
again, with another entry, before the routine ends.  So the registries on the way are written down
as well (`Routine.course`), one for every operation that writes and for the beginning and the end of
every group, and the law is about stretches of them.

The invariant behind all laws is that of growth: wherever a routine is run, and however it ends, it
has written new entries behind the old ones and noted them in the innermost journal
(`Routine.grows_run`).  No law needs the registry to be in order when the routine begins.
-/

namespace Schemata

open HoldsRegistry

namespace Registry

variable {σ ε α β γ : Type} [HoldsRegistry σ α]

/-- **What a host does with a registry.** -/
inductive Routine (σ ε : Type) {α : Type} [HoldsRegistry σ α] : Type → Type 1 where
  /-- Anything that leaves the registry alone: to give an answer, to fail, to look at what is
  stored, to change what is beside the registry. -/
  | host {β : Type} (act : EStateM ε σ β)
      (leaves : Keeps (fun s s' => registry s' = registry s) act) : Routine σ ε β
  /-- One thing after the other. -/
  | bind {β γ : Type} (first : Routine σ ε β) (rest : β → Routine σ ε γ) : Routine σ ε γ
  /-- Go on where something has failed. -/
  | attempt {β : Type} (body : Routine σ ε β) (handler : ε → Routine σ ε β) : Routine σ ε β
  | put (name : String) (a : α) : Routine σ ε α
  | ensure (name : String) (builder : Routine σ ε α) : Routine σ ε α
  | transaction {β : Type} (body : Routine σ ε β) : Routine σ ε β

namespace Routine

/-- Do what a routine says. -/
def run {β : Type} : Routine σ ε β → EStateM ε σ β
  | host act _ => act
  | bind first rest => first.run >>= fun b => (rest b).run
  | attempt body handler => fun s =>
    match body.run s with
    | .ok b s => .ok b s
    | .error e s => (handler e).run s
  | put name a => putting name a
  | ensure name builder => ensuring name builder.run
  | transaction body => Registry.transaction body.run

/-- **The registries on the way**, from the first that is written to the one that the routine leaves
behind. -/
def course {β : Type} : Routine σ ε β → σ → List (Registry α)
  | host _ _, _ => []
  | bind first rest, s => first.course s ++
    match first.run s with
    | .ok b s => (rest b).course s
    | .error _ _ => []
  | attempt body handler, s => body.course s ++
    match body.run s with
    | .ok _ _ => []
    | .error e s => (handler e).course s
  | put name a, s => [((registry s).put name a).2]
  | ensure name builder, s =>
    match (registry s).get? name with
    | some _ => []
    | none => builder.course s ++
      match builder.run s with
      | .ok a s => [((registry s).put name a).2]
      | .error _ _ => []
  | transaction body, s =>
    registry (within open_ s) :: body.course (within open_ s) ++
      [registry (after (Registry.transaction body.run) s)]

end Routine

/-! ## Growth -/

@[simp] theorem registry_within (f : Registry α → Registry α) (s : σ) :
    registry (within f s) = f (registry s) :=
  registry_withRegistry _ _

/-- The registry of one state has grown into that of another. -/
def Grows (s s' : σ) : Prop :=
  ∃ new, Grown (registry s) new (registry s')

instance : IsPreorder σ Grows where
  refl _ := ⟨[], Grown.refl _⟩
  trans _ _ _ := fun ⟨_, h⟩ ⟨_, h'⟩ => ⟨_, h.trans h'⟩

theorem grows_of_eq {s s' : σ} (h : registry s' = registry s) : Grows s s' :=
  ⟨[], h ▸ Grown.refl _⟩

theorem grows_putting (name : String) (a : α) : Keeps Grows (putting name a : EStateM ε σ α) := by
  intro s
  obtain ⟨new, h, -⟩ := grown_put (registry s) name a
  refine ⟨new, ?_⟩
  show Grown _ _ (registry (withRegistry s ((registry s).put name a).2))
  rwa [registry_withRegistry]

/-- **A name that is stored is not built**: whatever the builder would do, nothing of it is done. -/
theorem ensuring_of_get? {name : String} {stored : α} {s : σ} (builder : EStateM ε σ α)
    (h : (registry s).get? name = some stored) : ensuring name builder s = .ok stored s := by
  unfold ensuring
  rw [h]

/-- A name that is free is built, and what has been built is put there. -/
theorem ensuring_of_free {name : String} {s : σ} (builder : EStateM ε σ α)
    (h : (registry s).get? name = none) :
    ensuring name builder s = (builder >>= putting name) s := by
  show _ = EStateM.bind builder (putting name) s
  unfold ensuring EStateM.bind
  rw [h]
  cases builder s <;> rfl

theorem grows_ensuring (name : String) {builder : EStateM ε σ α} (h : Keeps Grows builder) :
    Keeps Grows (ensuring name builder) := by
  intro s
  cases hget : (registry s).get? name with
  | some stored =>
    rw [after_of_ok (ensuring_of_get? builder hget)]
    exact refl_of Grows s
  | none =>
    rw [after, ensuring_of_free builder hget]
    exact (h.bind (grows_putting name)) s

theorem transaction_of_ok {body : EStateM ε σ β} {s s₁ : σ} {b : β}
    (h : body (within open_ s) = .ok b s₁) : transaction body s = .ok b (within commit s₁) := by
  unfold transaction
  rw [h]

theorem transaction_of_error {body : EStateM ε σ β} {s s₁ : σ} {e : ε}
    (h : body (within open_ s) = .error e s₁) :
    transaction body s = .error e (within rollback s₁) := by
  unfold transaction
  rw [h]

/-- **A group that fails gives back the registry that it was opened on**, if its body only adds. -/
theorem registry_rollback {s s₁ : σ} (h : Grows (within open_ s) s₁) :
    registry (within rollback s₁) = registry s := by
  obtain ⟨new, h⟩ := h
  rw [registry_within] at h
  rw [registry_within, h.rollback]

theorem grows_transaction {body : EStateM ε σ β} (h : Keeps Grows body) :
    Keeps Grows (transaction body) := by
  intro s
  cases hbody : body (within open_ s) with
  | ok b s₁ =>
    obtain ⟨new, hnew⟩ := h.ok hbody
    rw [registry_within] at hnew
    refine ⟨new, ?_⟩
    rw [after_of_ok (transaction_of_ok hbody), registry_within]
    exact hnew.commit
  | error e s₁ =>
    rw [after_of_error (transaction_of_error hbody)]
    exact grows_of_eq (registry_rollback (h.error hbody))

@[simp] theorem entries_commit (r : Registry α) : r.commit.entries = r.entries := by
  rw [commit]
  split <;> rfl

/-- **A routine only adds**, wherever it is run and however it ends. -/
theorem Routine.grows_run (p : Routine σ ε β) : Keeps Grows p.run := by
  induction p with
  | host act leaves => exact fun s => grows_of_eq (leaves s)
  | bind first rest ihfirst ihrest => exact ihfirst.bind ihrest
  | attempt body handler ihbody ihhandler =>
    intro s
    unfold run after
    beta_reduce
    cases h : body.run s with
    | ok b s₁ => exact ihbody.ok h
    | error e s₁ => exact trans_of Grows (ihbody.error h) (ihhandler e s₁)
  | put name a => exact grows_putting name a
  | ensure name builder ih => exact grows_ensuring name ih
  | transaction body ih => exact grows_transaction ih

/-! ## What does not change -/

/-- Two registries agree on the names that both of them store. -/
def Agrees (r r' : Registry α) : Prop :=
  ∀ name, name ∈ r.names → name ∈ r'.names → r.get? name = r'.get? name

namespace Agrees

variable {r r' : Registry α}

theorem symm (h : r.Agrees r') : r'.Agrees r :=
  fun name hr' hr => (h name hr hr').symm

theorem of_appended (h : r.entries <+: r'.entries) : r.Agrees r' := by
  intro name hr _
  obtain ⟨a, ha⟩ := Option.isSome_iff_exists.mp (isSome_get?_iff.mpr hr)
  obtain ⟨new, hnew⟩ := h
  have hr' : r'.get? name = (r.get? name).or (getKey? name new) := by
    unfold get?
    rw [← hnew, getKey?_append]
  rw [hr', ha, Option.some_or]

theorem of_grown {new : List (String × α)} (h : Grown r new r') : r.Agrees r' :=
  of_appended ⟨new, h.entries.symm⟩

end Agrees

/-- A list of registries on which to get from one registry to another, any two neighbours of which
agree. -/
structure Leads (r : Registry α) (l : List (Registry α)) (r' : Registry α) : Prop where
  agrees : (r :: l).IsChain Agrees
  last : (r :: l).getLast? = some r'

namespace Leads

variable {r r₁ r₂ : Registry α} {l l' : List (Registry α)}

theorem refl (r : Registry α) : Leads r [] r :=
  ⟨.singleton r, rfl⟩

theorem single (h : r.Agrees r₁) : Leads r [r₁] r₁ :=
  ⟨.cons_cons h (.singleton r₁), rfl⟩

theorem trans (h : Leads r l r₁) (h' : Leads r₁ l' r₂) : Leads r (l ++ l') r₂ where
  agrees := by
    rw [← List.cons_append, List.isChain_append]
    refine ⟨h.agrees, h'.agrees.tail, fun x hx y hy => ?_⟩
    rw [h.last] at hx
    obtain rfl := Option.some.inj hx
    exact h'.agrees.rel_head? hy
  last := by
    have hlast := h'.last
    cases l' with
    | nil =>
      rw [List.append_nil, h.last]
      exact hlast
    | cons r' l' => rwa [← List.cons_append, List.getLast?_append_cons]

end Leads

/-- In a stretch of registries that all store a name the entry is the same throughout. -/
theorem get?_eq_of_agrees {l : List (Registry α)} {name : String} (h : l.IsChain Agrees)
    (hname : ∀ r ∈ l, name ∈ r.names) :
    ∀ r ∈ l, ∀ r' ∈ l, r.get? name = r'.get? name := by
  suffices hsame : ∃ entry, ∀ r ∈ l, r.get? name = entry by
    obtain ⟨entry, hsame⟩ := hsame
    exact fun r hr r' hr' => (hsame r hr).trans (hsame r' hr').symm
  induction h with
  | nil => exact ⟨none, nofun⟩
  | singleton r => exact ⟨r.get? name, fun r' hr' => by rw [List.mem_singleton.mp hr']⟩
  | @cons_cons r r₁ l hagrees _ ih =>
    obtain ⟨entry, hsame⟩ := ih fun r hr => hname r (List.mem_cons_of_mem _ hr)
    refine ⟨entry, fun r' hr' => ?_⟩
    rcases List.mem_cons.mp hr' with rfl | hr'
    · rw [hagrees name (hname _ hr') (hname r₁ (by simp))]
      exact hsame r₁ List.mem_cons_self
    · exact hsame r' hr'

/-- **The course of a routine** leads from the registry it is run on to the one it leaves behind. -/
theorem Routine.leads_course (p : Routine σ ε β) (s : σ) :
    Leads (registry s) (p.course s) (registry (after p.run s)) := by
  have hput (name : String) (a : α) (s : σ) :
      Leads (registry s) [((registry s).put name a).2]
        (registry (after (putting name a : EStateM ε σ α) s)) := by
    obtain ⟨new, hnew, -⟩ := grown_put (registry s) name a
    show Leads _ _ (registry (withRegistry s ((registry s).put name a).2))
    rw [registry_withRegistry]
    exact Leads.single (.of_grown hnew)
  induction p generalizing s with
  | host act leaves =>
    show Leads _ [] (registry (after act s))
    rw [leaves s]
    exact Leads.refl _
  | bind first rest ihfirst ihrest =>
    have hfirst := ihfirst s
    cases h : first.run s with
    | ok b s₁ =>
      rw [after_of_ok h] at hfirst
      simp only [course, run, after, h, bind_of_ok h]
      exact hfirst.trans (ihrest b s₁)
    | error e s₁ =>
      rw [after_of_error h] at hfirst
      have hrun : (bind first rest).run s = .error e s₁ := bind_eq_error.mpr (.inl h)
      simp only [course, h, after_of_error hrun, List.append_nil]
      exact hfirst
  | attempt body handler ihbody ihhandler =>
    have hbody := ihbody s
    cases h : body.run s with
    | ok b s₁ =>
      rw [after_of_ok h] at hbody
      simp only [course, run, after, h, List.append_nil]
      exact hbody
    | error e s₁ =>
      rw [after_of_error h] at hbody
      simp only [course, run, after, h]
      exact hbody.trans (ihhandler e s₁)
  | put name a => exact hput name a s
  | ensure name builder ih =>
    have hbuilder := ih s
    cases hget : (registry s).get? name with
    | some stored =>
      simp only [course, run, hget, after_of_ok (ensuring_of_get? builder.run hget)]
      exact Leads.refl _
    | none =>
      have hrun := ensuring_of_free builder.run hget
      cases h : builder.run s with
      | ok a s₁ =>
        rw [after_of_ok h] at hbuilder
        simp only [course, run, after, hget, hrun, h, bind_of_ok h]
        exact hbuilder.trans (hput name a s₁)
      | error e s₁ =>
        rw [after_of_error h] at hbuilder
        simp only [course, run, after, hget, hrun, h, bind_eq_error.mpr (.inl h), List.append_nil]
        exact hbuilder
  | transaction body ih =>
    have hbegin : (registry s).Agrees (registry (within open_ s)) := by
      rw [registry_within]
      exact .of_appended (List.prefix_refl _)
    refine (Leads.single hbegin).trans ((ih _).trans (Leads.single ?_))
    show Agrees _ (registry (after (Registry.transaction body.run) s))
    cases h : body.run (within open_ s) with
    | ok b s₁ =>
      rw [after_of_ok h, after_of_ok (transaction_of_ok h), registry_within]
      exact .of_appended (entries_commit _ ▸ List.prefix_refl _)
    | error e s₁ =>
      -- what is dropped stood behind what was there when the group began
      have hgrows := body.grows_run.error h
      rw [after_of_error h, after_of_error (transaction_of_error h), registry_rollback hgrows]
      obtain ⟨new, hnew⟩ := hgrows
      rw [registry_within] at hnew
      exact .symm (.of_appended ⟨new, hnew.entries.symm⟩)

/-! ## The laws -/

/-- What is stored under a name once something has been put there. -/
theorem get?_put (r : Registry α) (name : String) (a : α) :
    (r.put name a).1 = (r.get? name).getD a ∧
      (r.put name a).2.get? name = some (r.put name a).1 := by
  cases h : r.get? name with
  | some stored =>
    rw [put_of_get? h]
    exact ⟨rfl, h⟩
  | none =>
    rw [put_of_free h]
    exact ⟨rfl, getKey?_concat_self h⟩

theorem exists_putting (name : String) (a : α) (s : σ) :
    ∃ stored s', (putting name a : EStateM ε σ α) s = .ok stored s' ∧
      (registry s').get? name = some stored ∧ stored = ((registry s).get? name).getD a := by
  obtain ⟨hstored, hget⟩ := get?_put (registry s) name a
  exact ⟨_, _, rfl, (congrArg (get? · name) (registry_withRegistry _ _)).trans hget, hstored⟩

/-- **The laws of a registry**, wherever a routine is run and whatever it does, be it by itself or
as a part of another one.

* *An entry never changes while its name is stored*: in any stretch of its course in which a name is
  stored throughout, the entry of the name is the same throughout.  The course ends with the
  registry that the routine leaves behind, and there all is in its place that was there when it
  began.
* *Putting gives the stored entry*: what is stored afterwards is given, and this is what was stored
  before if anything was.
* *Ensuring gives the stored entry*: a name that is stored is given at once, and nothing is done of
  what the builder would do.  A free name is built.  If the builder fails, this is how it ends; if
  not, the stored entry is given, which is the one that the builder has stored under the very name
  if it has.
* *A group is all or nothing*: if its body fails, the registry is the one that the group was opened
  on, with the same entries in the same order and the same journals, whatever inner groups of the
  body had kept; and if not, the entries are those that its body has left. -/
theorem Routine.run_store_laws (p : Routine σ ε β) (s : σ) :
    ((∀ stretch, stretch <:+: registry s :: p.course s →
        ∀ name, (∀ r ∈ stretch, name ∈ r.names) →
          ∀ r ∈ stretch, ∀ r' ∈ stretch, r.get? name = r'.get? name) ∧
      (registry s :: p.course s).getLast? = some (registry (after p.run s)) ∧
      (registry s).entries <+: (registry (after p.run s)).entries) ∧
    (∀ name a, ∃ stored s', (put name a : Routine σ ε α).run s = .ok stored s' ∧
      (registry s').get? name = some stored ∧ stored = ((registry s).get? name).getD a) ∧
    (∀ name (builder : Routine σ ε α),
      match (registry s).get? name with
      | some stored => (ensure name builder).run s = .ok stored s
      | none =>
        match builder.run s with
        | .error e s₁ => (ensure name builder).run s = .error e s₁
        | .ok a s₁ => ∃ stored s', (ensure name builder).run s = .ok stored s' ∧
          (registry s').get? name = some stored ∧
            stored = ((registry s₁).get? name).getD a) ∧
    match p.run (within open_ s) with
    | .error e _ => ∃ s', (transaction p).run s = .error e s' ∧ registry s' = registry s
    | .ok b s₁ => ∃ s', (transaction p).run s = .ok b s' ∧
        (registry s').entries = (registry s₁).entries := by
  have hleads := p.leads_course s
  obtain ⟨new, hgrown⟩ := p.grows_run s
  refine ⟨⟨fun stretch hstretch name hname => ?_, hleads.last, ⟨new, hgrown.entries.symm⟩⟩,
    fun name a => ?_, fun name builder => ?_, ?_⟩
  · have hchain := List.IsChain.infix hleads.agrees hstretch
    exact get?_eq_of_agrees hchain hname
  · exact exists_putting name a s
  · cases hget : (registry s).get? name with
    | some stored => exact ensuring_of_get? builder.run hget
    | none =>
      have hrun : (ensure name builder).run s = (builder.run >>= putting name) s :=
        ensuring_of_free builder.run hget
      cases h : builder.run s with
      | ok a s₁ =>
        rw [hrun, bind_of_ok h]
        exact exists_putting name a s₁
      | error e s₁ => exact hrun.trans (bind_eq_error.mpr (.inl h))
  · cases h : p.run (within open_ s) with
    | ok b s₁ =>
      refine ⟨_, transaction_of_ok h, ?_⟩
      rw [registry_within, entries_commit]
    | error e s₁ => exact ⟨_, transaction_of_error h, registry_rollback (p.grows_run.error h)⟩

/-- Store a number in a group inside a group that then fails, and store another one. -/
def Routine.retried : Routine (Registry Nat) String Nat :=
  .bind (.attempt (.transaction (.bind (.transaction (.put "count" 1)) fun _ => failing))
    fun _ => .put "total" 0) fun _ => .put "count" 2
where
  failing : Routine (Registry Nat) String Nat :=
    .host (throw "no") fun _ => rfl

/-- The first number is stored until it is dropped with the outer group, and then the second one is
stored. -/
theorem Routine.retried_store_laws :
    ((retried.course {}).drop 2).take 2 <:+: {} :: retried.course {} ∧
    (∀ r ∈ ((retried.course {}).drop 2).take 2, "count" ∈ r.names) ∧
    (∀ r ∈ ((retried.course {}).drop 2).take 2, ∀ r' ∈ ((retried.course {}).drop 2).take 2,
      r.get? "count" = r'.get? "count") ∧
    (after retried.run {}).entries = [("total", 0), ("count", 2)] := by
  have hstretch : ((retried.course {}).drop 2).take 2 <:+: {} :: retried.course {} :=
    ⟨{} :: (retried.course {}).take 2, (retried.course {}).drop 4, rfl⟩
  have hname : ∀ r ∈ ((retried.course {}).drop 2).take 2, "count" ∈ r.names := by
    show ∀ r ∈ [_, _], _
    simp only [List.forall_mem_cons]
    exact ⟨List.mem_singleton_self _, List.mem_singleton_self _, nofun⟩
  exact ⟨hstretch, hname, (retried.run_store_laws {}).1.1 _ hstretch "count" hname, rfl⟩

end Registry

end Schemata
