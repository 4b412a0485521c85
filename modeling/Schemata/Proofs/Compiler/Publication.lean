import Schemata.Proofs.Compiler.References
import Schemata.Proofs.Synthesis.Canonical
import Schemata.Proofs.Synthesis.Confinement
import Schemata.Proofs.Synthesis.Independence
import Mathlib.Tactic.FinCases

/-!
# What a host finds stored

After any number of calls, every stored schema is what the declaration of its type is published as:
`Environment.publish` of the declaration, whatever was stored or under construction when the schema
was made (`run_publish`).  This is so where no type that the calls lead to is composed in place, no
derived type has a base that leads back to it, and equal types read alike.

The last is a matter of the readings that a session keeps.  Types that are equal share the reading
of the first, and types can be equal and read otherwise: a list of choices equals the same choices
in another order.  Then what is stored depends on which was read first (`ballot_not_declared`).
Where they read alike, it is enough to know that a session reads nothing but what the calls concern
(`confined_run`).

The defaults of properties are part of this.  They are read from instances that a session keeps over
all calls, also those that fail, so that it has to be known of every call that the instances are
still those that the types make (`recalls_run`).
-/

namespace Schemata

variable {env : Environment} {s s' S : Session}

/-! ## Instances between calls -/

/-- A session still recalls instances. -/
def Session.Recollects (env : Environment) (s s' : Session) : Prop :=
  s.Recalls env → s'.Recalls env

instance : IsPreorder Session (Session.Recollects env) where
  refl _ := id
  trans _ _ _ h₁ h₂ := h₂ ∘ h₁

theorem Session.recollects_of_eq (hs : s.Below s') (h : s'.instances = s.instances) :
    s.Recollects env s' :=
  fun hrecalls => hrecalls.of_eq hs h

/-- A walk from a session with nothing visited. -/
theorem Session.recollects_run {α : Type} {x : Build α}
    (h : Walk.Recollects env ⟨s, []⟩ (after x ⟨s, []⟩)) :
    s.Recollects env (after (Session.run x) s) := by
  rw [Session.after_run]
  exact h.recalls

namespace Compiler

variable {c : Compiler} {t : Token} {n : Node}

theorem recollects_describe (c : Compiler) (t : Token) :
    Keeps (Session.Recollects c.environment) (c.describe t) :=
  fun s => Session.recollects_run ((Environment.reads_describe t).recollects ⟨s, []⟩)

/-- A type that has been described is known to be so. -/
theorem describes_of_describe {d : Descriptor} (h : c.describe t s = .ok d s') :
    s'.Describes c.environment d := by
  obtain ⟨w, hw, rfl⟩ := Session.run_eq_ok.mp h
  exact ⟨t, (Environment.reads_describe t).settles hw⟩

theorem recollects_ensure (c : Compiler) (t : Token) :
    Keeps (Session.Recollects c.environment) (c.ensure t) := by
  refine fun s => Keeps.after_bind (recollects_describe c t s) fun {d s₁} hd => ?_
  have hdescribes := describes_of_describe hd
  -- opening and ending a group, and forgetting claims, is no matter
  have hopened : (Walk.mk (Registry.within Registry.open_ s₁) []).session.Describes
      c.environment d := hdescribes
  have hwalk := (Environment.recollects_referRoot hopened).recalls
  intro hs₁
  have hs : (Registry.within Registry.open_ s₁ : Session).Recalls c.environment := hs₁
  have hafter := hwalk hs
  unfold after Session.pruning Registry.transaction Session.run at *
  cases hr : c.environment.referRoot d ⟨Registry.within Registry.open_ s₁, []⟩ with
  | ok m w =>
    rw [hr] at hafter
    exact hafter
  | error e w =>
    rw [hr] at hafter
    exact hafter

theorem recollects_reference (name : String) (copied : Bool) (requester : Option String) :
    Keeps (Session.Recollects env) (reference name copied requester) := by
  refine Keeps.bind keeps_get fun s => ?_
  split
  · exact Keeps.throw _
  · exact Keeps.pure _

theorem recollects_schemaFor (c : Compiler) (t : Token) (inlined : Bool) :
    Keeps (Session.Recollects c.environment) (c.schemaFor t inlined) := by
  refine (recollects_ensure c t).bind fun n => ?_
  split
  · exact recollects_reference _ _ _
  · exact Keeps.pure _

theorem recollects_inferBare (c : Compiler) (inlined : Bool) {d : Descriptor}
    (hd : s.Describes c.environment d) :
    s.Recollects c.environment (after (c.inferBare inlined d) s) := by
  have hinline : Walk.Recollects c.environment ⟨s, []⟩ (after (c.environment.isInline d) ⟨s, []⟩) :=
    (Environment.reads_isInline d).recollects _
  refine Keeps.after_bind (Session.recollects_run hinline) fun {b s₁} hb => ?_
  split
  · obtain ⟨w, hw, rfl⟩ := Session.run_eq_ok.mp hb
    have hbelow := ((Environment.reads_isInline d).learns.ok hw).below
    refine Session.recollects_run (Build.recollects_bind ?_ fun {_ w₁} _ _ =>
      Build.recollects_refl w₁)
    exact Environment.recollects_build _ (hd.mono hbelow)
  · refine (keeps_get.bind fun s => Keeps.ite (recollects_reference _ _ _) ?_) s₁
    refine Keeps.ite (Keeps.pure _) (Keeps.bind ?_ fun _ => Keeps.pure _)
    exact fun s => Session.recollects_of_eq (.refl _) rfl

theorem recollects_inferWithin (c : Compiler) (inlined : Bool) (fuel : Nat) (t : Token) :
    Keeps (Session.Recollects c.environment) (c.inferWithin inlined fuel t) := by
  induction fuel generalizing t with
  | zero => exact Keeps.throw _
  | succ fuel ih =>
    refine fun s => Keeps.after_bind (recollects_describe c t s) fun {d s₁} hd => ?_
    have hbare := recollects_inferBare c inlined (describes_of_describe hd)
    cases d.shape with
    | nullable | array => exact ((ih _).bind fun _ => Keeps.pure _) s₁
    | map =>
      refine ((recollects_describe c _).bind fun value => Keeps.ite (Keeps.pure _) ?_) s₁
      exact (ih _).bind fun _ => Keeps.pure _
    | primitive | unknown | enum | object => exact hbare

/-- **Instances are recalled over any number of calls**, whether they succeed or fail. -/
theorem recalls_run (c : Compiler) (calls : List Call) :
    (c.run calls).Recalls c.environment := by
  refine c.run_induction calls Session.recalls_empty fun s call _ hs => ?_
  cases call with
  | ensure t => exact recollects_ensure c t s hs
  | schemaFor t inlined => exact recollects_schemaFor c t inlined s hs
  | infer t inlined => exact recollects_inferWithin c inlined _ t s hs

end Compiler

/-! ## Types that calls read -/

/-- The type that a call is about. -/
def Call.token : Call → Token
  | .ensure t | .schemaFor t _ | .infer t _ => t

/-- The types that some calls are about. -/
def Asked (calls : List Call) (t : Token) : Prop :=
  ∃ call ∈ calls, call.token = t

section

variable {T : Token → Prop} {α : Type}

namespace Compiler

variable {c : Compiler} {t : Token}

theorem stays_run {x : Build α} (h : Keeps (Walk.Stays env T) x) :
    Keeps (Session.Stays env T) (Session.run x) := by
  intro s
  rw [Session.after_run]
  exact h ⟨s, []⟩

/-- Opening and ending a group, and forgetting claims, is no matter. -/
theorem stays_pruning {x : Build α} (h : Keeps (Walk.Stays env T) x) :
    Keeps (Session.Stays env T)
      (Session.pruning (Registry.transaction (Session.run x))) := by
  intro s hs
  have hafter := h ⟨Registry.within Registry.open_ s, []⟩
    (Session.Stays.of_readings (s := s) rfl hs)
  unfold after Session.pruning Registry.transaction Session.run at *
  cases hr : x ⟨Registry.within Registry.open_ s, []⟩ with
  | ok a w | error e w =>
    rw [hr] at hafter
    exact Session.Stays.of_readings (s := w.session) rfl hafter

theorem stays_reference (name : String) (copied : Bool) (requester : Option String) :
    Keeps (Session.Stays env T) (reference name copied requester) := by
  refine Keeps.bind keeps_get fun s => ?_
  split
  · exact Keeps.throw _
  · exact Keeps.pure _

variable (hclosed : c.environment.Closed T)
include hclosed

theorem stays_describing {f : Descriptor → Request α} (ht : T t)
    (hf : ∀ d, d.Within T → Keeps (Session.Stays c.environment T) (f d)) :
    Keeps (Session.Stays c.environment T) (c.describe t >>= f) := by
  intro s hs
  have hdescribe : (after (c.describe t) s).Confined c.environment T := by
    rw [describe, Session.after_run]
    exact Session.Confined.describe (w := ⟨s, []⟩) hs ht
  refine Keeps.after_bind (R := Session.Stays c.environment T) (fun _ => hdescribe)
    (fun {d s₁} hd => hf d ?_ s₁) hs
  rw [after_of_ok hd] at hdescribe
  obtain ⟨w, hw, rfl⟩ := Session.run_eq_ok.mp hd
  exact Environment.within_of_describe hclosed hdescribe ht hw

theorem stays_ensure (ht : T t) : Keeps (Session.Stays c.environment T) (c.ensure t) :=
  stays_describing hclosed ht fun _ hd => stays_pruning
    (Environment.stays_refer hclosed (fun _ hd => Environment.stays_build hclosed _ hd) hd)

theorem stays_schemaFor (ht : T t) (inlined : Bool) :
    Keeps (Session.Stays c.environment T) (c.schemaFor t inlined) := by
  refine (stays_ensure hclosed ht).bind fun n => ?_
  split
  · exact stays_reference _ _ _
  · exact Keeps.pure _

theorem stays_inferBare (inlined : Bool) {d : Descriptor} (hd : d.Within T) :
    Keeps (Session.Stays c.environment T) (c.inferBare inlined d) := by
  refine (stays_run (Environment.stays_isInline hclosed hd)).bind fun _ => Keeps.ite ?_ ?_
  · exact stays_run ((Environment.stays_build hclosed _ hd).bind fun _ => Keeps.pure _)
  refine keeps_get.bind fun s => Keeps.ite (stays_reference _ _ _) (Keeps.ite (Keeps.pure _) ?_)
  refine Keeps.bind (fun s => ?_) fun _ => Keeps.pure _
  exact .of_readings rfl

theorem stays_inferWithin (inlined : Bool) (fuel : Nat) (ht : T t) :
    Keeps (Session.Stays c.environment T) (c.inferWithin inlined fuel t) := by
  induction fuel generalizing t with
  | zero => exact Keeps.throw _
  | succ fuel ih =>
    refine stays_describing hclosed ht fun d hd => ?_
    have hnames (hshape : d.shape.isWrapper = true) : T d.inner := hd _ (.inner hshape)
    cases hshape : d.shape with
    | nullable | array =>
      exact (ih (hnames (by rw [hshape]; rfl))).bind fun _ => Keeps.pure _
    | map =>
      have hinner := hnames (by rw [hshape]; rfl)
      refine stays_describing hclosed hinner fun value _ => Keeps.ite (Keeps.pure _) ?_
      exact (ih hinner).bind fun _ => Keeps.pure _
    | primitive | unknown | enum | object => exact stays_inferBare hclosed inlined hd

theorem stays_answer {call : Call} (ht : T call.token) :
    Keeps (Session.Stays c.environment T) (c.answer call) := by
  cases call with
  | ensure t => exact stays_ensure hclosed ht
  | schemaFor t inlined => exact stays_schemaFor hclosed ht inlined
  | infer t inlined => exact stays_inferWithin hclosed inlined _ ht

omit hclosed in
/-- **Calls read types that the types concern that they are about**, and no others. -/
theorem confined_run (c : Compiler) (calls : List Call) :
    (c.run calls).Confined c.environment (c.environment.Concerns (Asked calls)) := by
  have hfirst : Session.Confined c.environment (c.environment.Concerns (Asked calls)) {} :=
    ⟨Session.tidy_empty.wellRead, fun _ he => absurd he List.not_mem_nil⟩
  refine c.run_induction calls hfirst fun s call hcall hs => ?_
  have ht : c.environment.Concerns (Asked calls) call.token := .asked ⟨call, hcall, rfl⟩
  have hstays : Keeps (Session.Stays c.environment (c.environment.Concerns (Asked calls)))
      (c.answer call) := stays_answer (c.environment.closed_concerns _) ht
  exact hstays s hs

end Compiler

end

/-! ## Entries -/

/-- What the types lead to that some calls are to publish. -/
def Requested (env : Environment) (S : Session) (calls : List Call) (x : Descriptor) : Prop :=
  ∃ call ∈ calls, ∃ t d, call.published? = some t ∧ S.Settles (env.describe t) d ∧
    Reaches env S d x

/-- Every entry is what the declaration of a type in a set is published as. -/
def Session.Canonical (env : Environment) (S : Session) (R : Descriptor → Prop) (s : Session) :
    Prop :=
  ∀ e ∈ s.registry.entries, PublishedAs env S R s.claims e

namespace Compiler

variable {c : Compiler} {t : Token} {n : Node} {R : Descriptor → Prop}

/-- **Publishing a type publishes what it leads to**, where none of that leads back to itself in a
way that shows. -/
theorem canonical_of_ensure (hkeys : c.environment.KeysDistinct) (hS : S.WellRead c.environment)
    (hrecalls : S.Recalls c.environment) (htidy : s.Tidy c.environment)
    (hsound : Session.Sound c.environment S s) (hs : Session.Canonical c.environment S R s)
    (h : c.ensure t s = .ok n s') (hbelow : s'.Below S) (hinstances : s'.instances <+: S.instances)
    (hR : ∀ {d}, S.Settles (c.environment.describe t) d →
      Straight c.environment S (Reaches c.environment S d) ∧
        ∀ {x}, Reaches c.environment S d x → R x) :
    Session.Canonical c.environment S R s' := by
  obtain ⟨d, w, w', hd, hcourse, hstart, -, hend⟩ :=
    course_of_sound htidy hsound h hbelow hinstances
  obtain ⟨hstraight, hsub⟩ := hR hd
  have hvisited : w.visited = [] := congrArg Scene.visited hstart
  have hvisits (y : Descriptor) : w.visits y = false := by
    rw [Walk.visits, hvisited]
    rfl
  have howned : w.scene.Owned c.environment S (S.Describes c.environment) := hstart ▸ hsound.owned
  have hready : w.Ready c.environment S (Reaches c.environment S d) [] :=
    ⟨hstraight, howned, fun _ y _ _ _ _ => hvisits y, fun y _ _ => hvisits y⟩
  obtain ⟨hnew, -⟩ := publishes_of_course hS hkeys hrecalls hcourse hready .refl (Nat.le_refl _)
    trivial
  have hadds := howned.adds hereditary_describes (.refers hd) (derives_of_course hcourse)
  have hentries : s'.registry.entries = w'.scene.registry.entries :=
    congrArg (fun σ : Scene => σ.registry.entries) hend
  have hclaims : s'.claims = w'.scene.claims := congrArg Scene.claims hend
  intro e he
  rw [hclaims]
  rw [hentries] at he
  rcases hnew e he with he | ⟨x, k, hx, hentry⟩
  · rw [hstart] at he
    obtain ⟨x, k, hx, hpub, hname, hclaim, hentry⟩ := hs e he
    refine ⟨x, k, hx, hpub, hname, hadds.kept ?_, hentry⟩
    rw [hstart]
    exact hclaim
  · exact ⟨x, k, hsub hx, hentry⟩

/-- **What is stored after any number of calls** is what the declarations are published as of types
that the calls lead to, where none of these leads back to itself in a way that shows. -/
theorem canonical_run (hkeys : c.environment.KeysDistinct) (calls : List Call)
    (hbased : ∀ x, Requested c.environment (c.run calls) calls x →
      Published c.environment (c.run calls) x →
        ¬ SelfBased c.environment (c.run calls) x)
    (hheld : ∀ x, Requested c.environment (c.run calls) calls x →
      ¬ SelfHeld c.environment (c.run calls) x) :
    Session.Canonical c.environment (c.run calls)
      (Requested c.environment (c.run calls) calls) (c.run calls) := by
  generalize hS : c.run calls = S at hbased hheld ⊢
  have hwellRead : S.WellRead c.environment := hS ▸ (tidy_run c calls).wellRead
  have hrecalls : S.Recalls c.environment := hS ▸ recalls_run c calls
  have hstraight {call : Call} (hmem : call ∈ calls) {t : Token} (ht : call.published? = some t)
      {d : Descriptor} (hd : S.Settles (c.environment.describe t) d) :
      Straight c.environment S (Reaches c.environment S d) ∧
        ∀ {x}, Reaches c.environment S d x → Requested c.environment S calls x := by
    have hsub {x : Descriptor} (hx : Reaches c.environment S d x) :
        Requested c.environment S calls x := ⟨call, hmem, t, d, ht, hd, hx⟩
    exact ⟨⟨hereditary_reaches d, Hereditary.of_reaches hereditary_describes ⟨t, hd⟩,
      fun hx => hbased _ (hsub hx), fun hx => hheld _ (hsub hx)⟩, hsub⟩
  suffices h : Session.Sound c.environment S (c.run calls) ∧ Session.Canonical c.environment S
      (Requested c.environment S calls) (c.run calls) from hS ▸ h.2
  refine run_induction_of_ensure
    (P := fun s => Session.Sound c.environment S s ∧
      Session.Canonical c.environment S (Requested c.environment S calls) s) calls
    ⟨Session.sound_empty, nofun⟩ ?_ ?_
  · rintro s s' ⟨hsound, hs⟩ hlearns
    refine ⟨hsound.of_learns hlearns, ?_⟩
    rw [Session.Canonical, hlearns.registry, hlearns.claims]
    exact hs
  · rintro s call t n s' hmem ht htidy ⟨hsound, hs⟩ h hgrows
    rw [hS] at hgrows
    exact ⟨(sound_of_ensure hkeys hwellRead htidy hsound h hgrows.below).1,
      canonical_of_ensure hkeys hwellRead hrecalls htidy hsound hs h hgrows.below hgrows.instances
        (hstraight hmem ht)⟩

/-- What calls lead to is described by a type that they concern, and names such types. -/
theorem exists_token_of_requested {calls : List Call} {d : Descriptor}
    (hs : s.Confined env (env.Concerns (Asked calls))) (h : Requested env s calls d) :
    ∃ t, env.Concerns (Asked calls) t ∧ s.Settles (env.describe t) d ∧
      d.Within (env.Concerns (Asked calls)) := by
  have hwithin {t : Token} {d : Descriptor} (ht : env.Concerns (Asked calls) t)
      (hd : s.Settles (env.describe t) d) : d.Within (env.Concerns (Asked calls)) := by
    have hrun := hd ⟨s, []⟩ (.refl s)
    exact Environment.within_of_describe (env.closed_concerns _) hs ht hrun
  obtain ⟨call, hcall, t, d₀, ht, hd₀, hreaches⟩ := h
  induction hreaches with
  | refl =>
    have hasked : env.Concerns (Asked calls) t := by
      refine .asked ⟨call, hcall, ?_⟩
      cases call with
      | ensure | schemaFor => exact Option.some.inj ht
      | infer => cases ht
    exact ⟨t, hasked, hd₀, hwithin hasked hd₀⟩
  | tail _ hpoints ih =>
    obtain ⟨_, -, -, hx⟩ := ih
    obtain ⟨u, hu, hy⟩ := hpoints
    exact ⟨u, hx u hu.names, hy, hwithin (hx u hu.names) hy⟩

/-- **Every stored schema is what the declaration of its type is published as.**  Let some calls be
made, whether they succeed or not.  Let equal types read alike among those that the calls concern.
If no type that the calls lead to is composed in place, and no type that they lead to and that is
published by name has a base that leads back to it, then every entry is `Environment.publish` of
the declaration of a type that they lead to, that goes by the name of the entry and that the name
is claimed for. -/
theorem run_publish (c : Compiler) (hkeys : c.environment.KeysDistinct) (calls : List Call)
    (halike : c.environment.ReadsAlike (c.environment.Concerns (Asked calls)))
    (harrays : ∀ x, Requested c.environment (c.run calls) calls x →
      ¬ Arrayed c.environment (c.run calls) x)
    (hbased : ∀ x, Requested c.environment (c.run calls) calls x →
      Published c.environment (c.run calls) x → ¬ SelfBased c.environment (c.run calls) x) :
    ∀ e ∈ (c.run calls).registry.entries, ∃ t D d k,
      c.environment.Concerns (Asked calls) t ∧ c.environment.meaning t = some D ∧ D.Alike d ∧
        Requested c.environment (c.run calls) calls d ∧ Published c.environment (c.run calls) d ∧
        D.name = e.1 ∧ (e.1, k) ∈ (c.run calls).claims ∧ k.same d.key = true ∧
        c.environment.publish D = some e.2 := by
  intro e he
  have hclosed : c.environment.Closed (c.environment.Concerns (Asked calls)) :=
    c.environment.closed_concerns _
  have hs := confined_run c calls
  obtain ⟨d, k, hd, hpub, hname, hclaim, hsame, hentry⟩ :=
    canonical_run hkeys calls hbased (fun x hx h => harrays x hx h.1) e he
  obtain ⟨t, ht, hdescribe, hwithin⟩ := exists_token_of_requested hs hd
  obtain ⟨u, D, hu, -, hmeaning, hD⟩ := hs.exists_meaning ht hdescribe
  refine ⟨u, D, d, k, hu, hmeaning, hD, hd, hpub, hD.symm.name.trans hname, hclaim, hsame, ?_⟩
  refine publish_of_told hclosed halike hs ?_ ?_ (fun {x} hx => harrays x hx) _ hd hpub hwithin
    (.of_alike .refl hD.symm) hentry
  · rintro x y ⟨call, hcall, v, d₀, hv, hd₀, hx⟩ hpoints
    exact ⟨call, hcall, v, d₀, hv, hd₀, hx.tail hpoints⟩
  · intro x hx
    obtain ⟨v, -, hv, -⟩ := exists_token_of_requested hs hx
    exact ⟨v, hv⟩

/-- A compiler that knows of works: a work has a title, and a book is a work that may have a
sequel. -/
def bookshop : Compiler where
  environment :=
    { program :=
        { crafted :=
            [{ name := "Text", shape := .primitive, kind := some .text },
             { name := "Work"
               shape := .object
               properties := [{ name := "title", type := .crafted 0, required := true }] },
             { name := "Book"
               shape := .object
               base := some (.crafted 1)
               annotations := [.property [("title", .text "A book")]]
               properties :=
                 [{ name := "sequel"
                    type := .crafted 2
                    annotations := [.property [("nullable", .bool true)]] }] }] }
      maxDepth := 8
      captureDefaults := true }
  refPrefix := .ok "#/components/schemas/"
  release := "3.1.0"

/-- A book is published as a work combined with what it has of its own. -/
theorem bookshop_publish : bookshop.environment.KeysDistinct ∧
    (∃ n, ("Book", n) ∈ (bookshop.run [.ensure (.crafted 2)]).registry.entries) ∧
    ∀ e ∈ (bookshop.run [.ensure (.crafted 2)]).registry.entries, ∃ t D d k,
      bookshop.environment.meaning t = some D ∧ D.Alike d ∧ D.name = e.1 ∧
        (e.1, k) ∈ (bookshop.run [.ensure (.crafted 2)]).claims ∧ k.same d.key = true ∧
        bookshop.environment.publish D = some e.2 := by
  have hkeys : bookshop.environment.KeysDistinct := by
    refine Environment.keysDistinct_of_unsourced fun d hd => ?_
    fin_cases hd <;> rfl
  have hlinked : bookshop.environment.Linked := by
    intro d hd t ht
    fin_cases hd <;> fin_cases ht <;> exact ⟨_, by decide, rfl⟩
  have hrequested {S : Session} {x : Descriptor}
      (h : Requested bookshop.environment S [.ensure (.crafted 2)] x) :
      x = bookshop.environment.handmade 0 ∨ x = bookshop.environment.handmade 1 ∨
        x = bookshop.environment.handmade 2 := by
    obtain ⟨call, hcall, t, d, ht, hd, hx⟩ := h
    rw [List.mem_singleton.mp hcall] at ht
    cases ht
    obtain ⟨rfl, -⟩ := pure_eq_ok.mp (hd ⟨S, []⟩ (.refl S))
    obtain ⟨i, hi, rfl⟩ := Hereditary.of_reaches hlinked.hereditary ⟨2, by decide, rfl⟩ hx
    match i, hi with
    | 0, _ => exact .inl rfl
    | 1, _ => exact .inr (.inl rfl)
    | 2, _ => exact .inr (.inr rfl)
  have harrays {S : Session} : ∀ x, Requested bookshop.environment S [.ensure (.crafted 2)] x →
      ¬ Arrayed bookshop.environment S x := by
    rintro x hx harr
    obtain ⟨c, hmerge, harray⟩ := harr.array
    rcases hrequested hx with rfl | rfl | rfl
    · exact harr.base rfl
    · exact harr.base rfl
    · have hnot : c.array = false := by
        cases hmerge
        rfl
      cases harray.symm.trans hnot
  -- works lead to works and texts only
  have hworks {S : Session} : Hereditary bookshop.environment S fun x =>
      x = bookshop.environment.handmade 0 ∨ x = bookshop.environment.handmade 1 := by
    rintro d x hd ⟨t, ht, hx⟩
    rcases hd with rfl | rfl
    · exact absurd ht (not_partOf_of_leaf (.inl rfl))
    · rcases (partOf_named rfl ht).2 with hbase | ⟨-, q, hq, rfl⟩
      · cases hbase
      · cases List.mem_singleton.mp hq
        exact .inl (pure_eq_ok.mp (hx ⟨S, []⟩ (.refl S))).1
  have hbased {S : Session} : ∀ x, Requested bookshop.environment S [.ensure (.crafted 2)] x →
      Published bookshop.environment S x → ¬ SelfBased bookshop.environment S x := by
    rintro x hx - ⟨base, b, y, hbase, hb, hy, -, hsame⟩
    rcases hrequested hx with rfl | rfl | rfl
    · cases hbase
    · cases hbase
    · cases hbase
      have hwork : b = bookshop.environment.handmade 1 := (pure_eq_ok.mp (hb ⟨S, []⟩ (.refl S))).1
      rcases Hereditary.of_reaches hworks (.inr hwork) hy with rfl | rfl <;> cases hsame
  have halike : bookshop.environment.ReadsAlike
      (bookshop.environment.Concerns (Asked [.ensure (.crafted 2)])) := by
    refine hlinked.readsAlike ?_
    rintro t ⟨call, hcall, rfl⟩
    rw [List.mem_singleton.mp hcall]
    exact ⟨2, by decide, rfl⟩
  refine ⟨hkeys, ⟨_, List.mem_cons_of_mem _ (List.mem_singleton_self _)⟩, fun e he => ?_⟩
  obtain ⟨t, D, d, k, -, hD, halike, -, -, hentry⟩ :=
    run_publish bookshop hkeys _ halike harrays hbased e he
  exact ⟨t, D, d, k, hD, halike, hentry⟩

/-- A compiler that knows of a poll and of a vote, which have the same answers in different
orders. -/
def ballot : Compiler where
  environment :=
    { program :=
        { crafted :=
            [{ name := "Poll"
               shape := .object
               properties := [{ name := "answer", type := .literal [.text "yes", .text "no"] }] },
             { name := "Vote"
               shape := .object
               properties := [{ name := "answer", type := .literal [.text "no", .text "yes"] }] }] }
      maxDepth := 8
      captureDefaults := true }
  refPrefix := .ok "#/components/schemas/"
  release := "3.1.0"

/-- **Equal types need not read alike.**  A list of choices equals the same choices in another
order, so that the answers of a vote stand in its own order, or in that of the poll if this has been
published before.  What is stored for a vote is no matter of its declaration alone. -/
theorem ballot_not_declared : ballot.environment.KeysDistinct ∧
    (ballot.environment.program.crafted.map Descriptor.name).Nodup ∧
    (∀ d ∈ ballot.environment.program.crafted, d.base = none) ∧
    ¬ ∃ publish : Descriptor → Node, ∀ calls, ∀ e ∈ (ballot.run calls).registry.entries,
      ∃ i, (ballot.environment.handmade i).name = e.1 ∧
        publish (ballot.environment.handmade i) = e.2 := by
  refine ⟨?_, by decide, by decide, ?_⟩
  · refine Environment.keysDistinct_of_unsourced fun d hd => ?_
    fin_cases hd <;> rfl
  rintro ⟨publish, hpublish⟩
  have hvote {i : Nat} (h : (ballot.environment.handmade i).name = "Vote") : i = 1 := by
    match i with
    | 0 => exact absurd h (by decide)
    | 1 => rfl
    | i + 2 => exact absurd (show "" = "Vote" from h) (by decide)
  have hown := hpublish [.ensure (.crafted 1)] ("Vote", _) (List.mem_singleton_self _)
  have hlater := hpublish [.ensure (.crafted 0), .ensure (.crafted 1)] ("Vote", _)
    (List.mem_cons_of_mem _ (List.mem_singleton_self _))
  obtain ⟨i, hi, hown⟩ := hown
  obtain ⟨j, hj, hlater⟩ := hlater
  obtain rfl := hvote hi
  obtain rfl := hvote hj
  have heq := hown.symm.trans hlater
  injection heq with _ hproperties
  injection hproperties with hproperty
  injection hproperty with _ hanswer
  injection hanswer with hkeywords
  have hchoices := congrArg Keywords.choices hkeywords
  injection hchoices with hfirst
  injection hfirst with hword
  exact absurd hword (by decide)

end Compiler

end Schemata
