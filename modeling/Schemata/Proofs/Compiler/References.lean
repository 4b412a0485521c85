import Schemata.Proofs.Compiler.Run
import Schemata.Proofs.Descriptor.Reading

/-!
# No reference dangles

Whatever calls a host makes, and however they end, every reference in a stored schema and every
reference in what a call gives leads to a stored schema.

While a type is being built this is not so: a type that is visited is referred to before it is
stored.  What holds all along is that references lead to claimed names (`closed_of_derives`), and
between calls the claimed names are the stored ones.  `Session.Sound` is what is true of the
session between calls; a call that publishes a type keeps it, since whatever the call claims it
also stores (`claimed_subset_of_adds`), and any other call stores nothing.

## What the types have to satisfy

A type that is visited is told by its key.  If a type published by name and one composed in place
had the same key, a visit to the one would be taken for a visit to the other, and the reference
handed out for it would lead nowhere.  So distinct types have to have distinct keys.
-/

namespace Schemata

variable {env : Environment} {s s' S : Session} {σ : Scene} {E : Descriptor → Prop}

/-- References lead to claimed names, and claims belong to types, as told by a session that knows
more. -/
structure Session.Sound (env : Environment) (S s : Session) : Prop where
  owned : s.scene.Owned env S (S.Describes env)
  closed : s.scene.Closed

namespace Session

theorem sound_empty : Sound env S {} where
  owned := ⟨nofun, nofun, List.nil_subset _⟩
  closed := nofun

theorem Sound.of_learns (h : Sound env S s) (hlearns : s.Learns env s') : Sound env S s' := by
  constructor <;> rw [hlearns.scene]
  · exact h.owned
  · exact h.closed

theorem Tidy.claimed_subset (h : s.Tidy env) : s.scene.claimed ⊆ s.scene.names :=
  fun name hname => (h.claimed name).mp hname

/-- **What a call claims it also stores.** -/
theorem Tidy.claimed_subset_of_adds (h : s.Tidy env) (hadds : Adds env S E s.scene σ) :
    σ.claimed ⊆ σ.names := by
  intro name hname
  obtain ⟨c, hc, rfl⟩ := List.mem_map.mp hname
  rcases hadds.claims c hc with hold | ⟨hstored, _⟩
  · exact hadds.names (h.claimed_subset (List.mem_map_of_mem hold))
  · exact hstored

end Session

namespace Compiler

variable {c : Compiler} {t : Token} {n : Node}

/-- **The course of a call in a session that is sound.**  When it has ended nothing is visited, and
all claims stay. -/
theorem course_of_sound {g : List (Key × Option Value)} (htidy : s.Tidy c.environment)
    (hsound : Session.Sound c.environment S s) (h : c.ensure t s = .ok n s') (hbelow : s'.Below S)
    (hinstances : s'.instances <+: g) :
    ∃ d w w', S.Settles (c.environment.describe t) d ∧
      Course c.environment S g c.environment.levels (.refers d n) w w' ∧ w.scene = s.scene ∧
      w.session.depth = s.depth ∧ s'.scene = { w'.scene with visited := [] } := by
  obtain ⟨d, w, w', hd, hcourse, hstart, hdepth, hend⟩ := course_of_ensure h hbelow hinstances
  have hderives := derives_of_course hcourse
  rw [hstart] at hderives
  have hadds := hsound.owned.adds hereditary_describes (.refers hd) hderives
  rw [Scene.resting_eq (htidy.claimed_subset_of_adds hadds)] at hend
  exact ⟨d, w, w', hd, hcourse, hstart, hdepth, hend⟩

/-- **Publishing keeps references leading to stored names.** -/
theorem sound_of_ensure (hkeys : c.environment.KeysDistinct) (hS : S.WellRead c.environment)
    (htidy : s.Tidy c.environment) (hsound : Session.Sound c.environment S s)
    (h : c.ensure t s = .ok n s') (hbelow : s'.Below S) :
    Session.Sound c.environment S s' ∧ n.MentionsOnly s'.registry.names := by
  obtain ⟨d, σ, hd, hderives, hend⟩ := derives_of_ensure h hbelow
  have hadds := hsound.owned.adds hereditary_describes (.refers hd) hderives
  have howned := hsound.owned.of_adds hadds
  obtain ⟨hclosed, hn⟩ :=
    closed_of_derives hS hkeys hderives (.refers hd) hsound.owned hsound.closed trivial
  have hstored := htidy.claimed_subset_of_adds hadds
  rw [Scene.resting_eq hstored] at hend
  constructor
  · constructor <;> rw [hend]
    · exact ⟨howned.claims, nofun, howned.names⟩
    · exact hclosed
  · show n.MentionsOnly s'.scene.names
    rw [hend]
    exact hn.mono hstored

section

variable (hkeys : c.environment.KeysDistinct) (hS : S.WellRead c.environment)
  (htidy : s.Tidy c.environment) (hsound : Session.Sound c.environment S s)

include htidy hsound in
theorem mentionsOnly_of_reference {name : String} {copied : Bool} {requester : Option String}
    (h : reference name copied requester s = .ok n s') : n.MentionsOnly s'.registry.names := by
  obtain ⟨stored, hget, rfl, rfl⟩ := reference_eq_ok.mp h
  split
  · have hclosed := hsound.closed _ (Registry.mem_entries_of_get? hget)
    exact hclosed.mono htidy.claimed_subset
  · exact Node.mentionsOnly_refTo (Registry.mem_names_of_get? hget)

include hkeys hS htidy hsound

/-- What is built without being published refers to stored names as well. -/
theorem mentionsOnly_of_buildRoot {d : Descriptor} {w : Walk}
    (hd : S.Describes c.environment d) (hwrapper : d.shape.isWrapper = false)
    (hinline : s.Settles (c.environment.isInline d) true)
    (h : c.environment.buildRoot d ⟨s, []⟩ = .ok n w) (hbelow : w.session.Below S) :
    n.MentionsOnly w.session.registry.names := by
  have hlearns : Walk.Learns c.environment ⟨s, []⟩ w :=
    after_of_ok h ▸ learns_buildRoot hwrapper hinline
  obtain ⟨r, w₁, hbuild, hend⟩ := bind_eq_ok.mp h
  obtain ⟨rfl, rfl⟩ := pure_eq_ok.mp hend
  have hderives := Environment.derives_build _ hbuild hbelow
  obtain ⟨_, hn, _⟩ := closed_of_derives hS hkeys hderives hd
    hsound.owned hsound.closed trivial
  rw [hlearns.scene] at hn
  rw [hlearns.session.registry]
  exact hn.mono htidy.claimed_subset

theorem mentionsOnly_of_inferBare {d : Descriptor} {inlined : Bool}
    (hd : S.Describes c.environment d) (hwrapper : d.shape.isWrapper = false)
    (h : c.inferBare inlined d s = .ok n s') (hbelow : s'.Below S) :
    n.MentionsOnly s'.registry.names := by
  obtain ⟨inline, s₁, hasked, h⟩ := bind_eq_ok.mp h
  obtain ⟨w, hw, rfl⟩ := Session.run_eq_ok.mp hasked
  have hlearns := ((Environment.reads_isInline d).learns.ok hw).session
  have htidy₁ := htidy.of_learns hlearns
  have hsound₁ := hsound.of_learns hlearns
  split at h
  next hyes =>
    subst hyes
    obtain ⟨w₁, hbuild, rfl⟩ := Session.run_eq_ok.mp h
    exact mentionsOnly_of_buildRoot hkeys hS htidy₁ hsound₁ hd hwrapper
      ((Environment.reads_isInline d).settles hw) hbuild hbelow
  next =>
    obtain ⟨_, _, ⟨⟩, h⟩ := bind_eq_ok.mp h
    split at h
    · exact mentionsOnly_of_reference htidy₁ hsound₁ h
    split at h
    · obtain ⟨rfl, -⟩ := pure_eq_ok.mp h
      exact fun _ hname => absurd hname Node.not_mentions_leaf
    · obtain ⟨_, _, _, hend⟩ := bind_eq_ok.mp h
      obtain ⟨rfl, -⟩ := pure_eq_ok.mp hend
      exact fun _ hname => absurd hname Node.not_mentions_leaf

omit htidy hsound in
/-- **An inferred schema refers to stored names only.** -/
theorem mentionsOnly_of_inferWithin {inlined : Bool} {fuel : Nat} {t : Token}
    (htidy : s.Tidy c.environment) (hsound : Session.Sound c.environment S s)
    (h : c.inferWithin inlined fuel t s = .ok n s') (hbelow : s'.Below S) :
    n.MentionsOnly s'.registry.names := by
  induction fuel generalizing t n s s' with
  | zero => cases h
  | succ fuel ih =>
    obtain ⟨d, s₁, hdescribe, h⟩ := bind_eq_ok.mp h
    have hlearns := (learns_describe c t).ok hdescribe
    have htidy₁ := htidy.of_learns hlearns
    have hsound₁ := hsound.of_learns hlearns
    cases hshape : d.shape with
    | nullable =>
      rw [hshape] at h
      obtain ⟨m, s₂, hm, hend⟩ := bind_eq_ok.mp h
      obtain ⟨rfl, rfl⟩ := pure_eq_ok.mp hend
      exact fun name hname =>
        ih htidy₁ hsound₁ hm hbelow name (Node.mentions_of_makeNullable hname)
    | array =>
      rw [hshape] at h
      obtain ⟨m, s₂, hm, hend⟩ := bind_eq_ok.mp h
      obtain ⟨rfl, rfl⟩ := pure_eq_ok.mp hend
      exact fun name hname => ih htidy₁ hsound₁ hm hbelow name (Node.mentions_array.mp hname)
    | map =>
      rw [hshape] at h
      obtain ⟨value, s₂, hvalue, h⟩ := bind_eq_ok.mp h
      have hlearns₂ := (learns_describe c _).ok hvalue
      split at h
      · obtain ⟨rfl, -⟩ := pure_eq_ok.mp h
        exact fun _ hname => absurd hname Node.not_mentions_bare
      · obtain ⟨m, s₃, hm, hend⟩ := bind_eq_ok.mp h
        obtain ⟨rfl, rfl⟩ := pure_eq_ok.mp hend
        intro name hname
        rcases Node.mentions_object.mp hname with ⟨_, ⟨⟩, _⟩ | ⟨a, ha, hname⟩
        cases ha
        exact ih (htidy₁.of_learns hlearns₂) (hsound₁.of_learns hlearns₂) hm hbelow name hname
    | primitive | unknown | enum | object =>
      have hbare : c.inferBare inlined d s₁ = .ok n s' := by
        rw [hshape] at h
        exact h
      have hwrapper : d.shape.isWrapper = false := by
        rw [hshape]
        rfl
      obtain ⟨w, hw, rfl⟩ := Session.run_eq_ok.mp hdescribe
      have hafter := (learns_inferBare c inlined hwrapper).ok hbare
      exact mentionsOnly_of_inferBare hkeys hS htidy₁ hsound₁
        ⟨t, (Environment.reads_describe t).settles_of_below hw (hafter.below.trans hbelow)⟩
        hwrapper hbare hbelow

/-- What a call keeps, and what it gives. -/
theorem sound_of_answer {call : Call} (h : c.answer call s = .ok n s') (hbelow : s'.Below S) :
    Session.Sound c.environment S s' ∧ n.MentionsOnly s'.registry.names := by
  cases call with
  | ensure t => exact sound_of_ensure hkeys hS htidy hsound h hbelow
  | schemaFor t inlined =>
    obtain ⟨m, hm, hn⟩ := schemaFor_eq_ok h
    obtain ⟨hsound', hmentions⟩ := sound_of_ensure hkeys hS htidy hsound hm hbelow
    refine ⟨hsound', ?_⟩
    rcases hn with rfl | ⟨name, hget⟩
    · exact hmentions
    · have htidy' := (grows_of_ensure htidy hm).2
      have hclosed := hsound'.closed _ (Registry.mem_entries_of_get? hget)
      exact hclosed.mono htidy'.claimed_subset
  | infer t inlined =>
    have hlearns := (learns_inferWithin c inlined nestingLimit t).ok h
    exact ⟨hsound.of_learns hlearns, mentionsOnly_of_inferWithin hkeys hS htidy hsound h hbelow⟩

end

/-- Calls leave a session sound, as told by any session that knows more. -/
theorem sound_run (hkeys : c.environment.KeysDistinct) (hS : S.WellRead c.environment)
    (calls : List Call) (hbelow : (c.run calls).Below S) :
    Session.Sound c.environment S (c.run calls) :=
  run_induction_below Session.sound_empty Session.Sound.of_learns
    (fun htidy hsound h hbelow => (sound_of_ensure hkeys hS htidy hsound h hbelow).1) calls hbelow

/-- **No reference dangles.**  After any number of calls, whether they have succeeded or not,
every reference in a stored schema leads to a stored schema, and so does every reference in what
a further call gives. -/
theorem run_mentionsOnly (c : Compiler) (hkeys : c.environment.KeysDistinct)
    (calls : List Call) :
    (∀ e ∈ (c.run calls).registry.entries, e.2.MentionsOnly (c.run calls).registry.names) ∧
      ∀ call n s', c.answer call (c.run calls) = .ok n s' →
        n.MentionsOnly s'.registry.names := by
  have htidy := tidy_run c calls
  constructor
  · have hsound := sound_run hkeys htidy.wellRead calls (.refl _)
    exact fun e he => (hsound.closed e he).mono htidy.claimed_subset
  · intro call n s' h
    obtain ⟨hgrows, htidy'⟩ := grows_of_answer htidy h
    have hsound := sound_run hkeys htidy'.wellRead calls hgrows.below
    exact (sound_of_answer hkeys htidy'.wellRead htidy hsound h (.refl _)).2

/-- A compiler that knows of trees: a tree has a parent, which is a tree. -/
def forest : Compiler where
  environment :=
    { program :=
        { crafted :=
            [{ name := "Tree"
               shape := .object
               properties := [{ name := "parent", type := .crafted 0 }] }] }
      maxDepth := 8
      captureDefaults := false }
  refPrefix := .ok "#/components/schemas/"
  release := "3.1.0"

/-- A tree is referred to while it is visited, and stored afterwards. -/
theorem forest_mentionsOnly : forest.environment.KeysDistinct ∧
    (forest.run [.ensure (.crafted 0)]).registry.names = ["Tree"] ∧
      ∀ e ∈ (forest.run [.ensure (.crafted 0)]).registry.entries,
        e.2.MentionsOnly (forest.run [.ensure (.crafted 0)]).registry.names := by
  have hkeys : forest.environment.KeysDistinct := by
    refine Environment.keysDistinct_of_unsourced fun d hd => ?_
    rw [List.mem_singleton.mp hd]
  exact ⟨hkeys, by decide, (run_mentionsOnly forest hkeys [.ensure (.crafted 0)]).1⟩

end Compiler

end Schemata
