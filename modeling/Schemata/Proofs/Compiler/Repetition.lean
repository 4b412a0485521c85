import Schemata.Proofs.Compiler.Positions
import Schemata.Proofs.Synthesis.Handmade
import Schemata.Proofs.Synthesis.Repetition

/-!
# Publishing a type again

Publishing a type that has just been published should change nothing and give the same.  The first
is true of every type (`registry_after_ensure_again`): all that the type leads to is stored by then.
The second is true of a type that is published by name from the second call on, since its name is
found to be stored and its own.  For all types `run_ensure_again` tells when it is true of the first
call as well.

## Where it fails

What a host is given is made of the types that the type unfolds to, and two sorts of these are in
the way.

* A derived type whose base leads back to it is given as an empty object by the call that stores it,
  and referred to afterwards (`grove_ensure_again_ne`).
* Another name for a type, or an array of compositions, has no entry.  If its name is that of a type
  which is stored by the same call, then the next call finds the name stored and refuses it
  (`pantry_ensure_again_error`).  Whenever the second call succeeds, no such name is stored
  (`namesFree_of_ensure_again`).
-/

namespace Schemata

/-- A group that is opened and ended leaves nothing behind. -/
@[simp] theorem Registry.commit_open_ {α : Type} (r : Registry α) : r.open_.commit = r :=
  (Registry.Grown.refl r.open_).commit.eq_of_nil

namespace Compiler

variable {c : Compiler} {s s' S : Session} {t : Token} {n : Node} {calls : List Call}

/-- A call that has nothing to do leaves a tidy session as it is. -/
theorem ensure_of_referRoot (htidy : s.Tidy c.environment) {d : Descriptor}
    (hd : s.Settles (c.environment.describe t) d)
    (h : c.environment.referRoot d ⟨Registry.within Registry.open_ s, []⟩ =
      .ok n ⟨Registry.within Registry.open_ s, []⟩) : c.ensure t s = .ok n s := by
  have hdescribe : c.describe t s = .ok d s :=
    Session.run_eq_ok.mpr ⟨⟨s, []⟩, hd ⟨s, []⟩ (.refl s), rfl⟩
  refine ensure_eq_ok.mpr ⟨d, s, _, hdescribe, h, ?_⟩
  have hcommit : Registry.within Registry.commit (Registry.within Registry.open_ s) = s := by
    show ({ s with registry := s.registry.open_.commit } : Session) = s
    rw [Registry.commit_open_]
  have hclaims : s.claims.filter (fun e => s.registry.contains e.1) = s.claims :=
    filter_contains_of_subset fun e he => (htidy.claimed _).mp (List.mem_map_of_mem he)
  rw [hcommit, Session.prune, hclaims]

section

variable (hkeys : c.environment.KeysDistinct) (h : c.ensure t (c.run calls) = .ok n s')
  {d : Descriptor}
include hkeys h

/-- All that a published type leads to has been explored. -/
theorem charted_of_ensure (hS : S.WellRead c.environment) (hbelow : s'.Below S)
    (hd : S.Settles (c.environment.describe t) d) :
    ∃ E, Session.Charted c.environment S s' E ∧ ∀ {x}, Reaches c.environment S d x → E x := by
  have htidy := tidy_run c calls
  obtain ⟨E, hE⟩ := charted_run hkeys hS calls ((grows_of_ensure htidy h).1.below.trans hbelow)
  obtain ⟨d', σ, E', hd', -, hexplores, hE'⟩ := explores_of_ensure hkeys hS htidy hE h hbelow
  obtain rfl := hd.unique hd'
  exact ⟨E', hE', Hereditary.of_reaches hE'.hereditary hexplores.reached⟩

/-- **Publishing a type again stores nothing**, however it ends. -/
theorem registry_after_ensure_again : (after (c.ensure t) s').registry = s'.registry := by
  have htidy' := (grows_of_ensure (tidy_run c calls) h).2
  unfold after
  cases hagain : c.ensure t s' with
  | error e s₂ => exact (learns_of_ensure htidy' hagain).registry
  | ok m s₂ =>
    obtain ⟨hgrows₂, htidy₂⟩ := grows_of_ensure htidy' hagain
    obtain ⟨d, σ, hd, -, -⟩ := derives_of_ensure hagain (.refl s₂)
    obtain ⟨E, hE, hreached⟩ := charted_of_ensure hkeys h htidy₂.wellRead hgrows₂.below hd
    obtain ⟨d', σ', E', hd', hend, hexplores, -⟩ :=
      explores_of_ensure hkeys htidy₂.wellRead htidy' hE hagain (.refl s₂)
    obtain rfl := hd.unique hd'
    have hnames : s₂.registry.names = σ'.names := congrArg Scene.names hend
    have hkept : s'.scene.names ⊆ σ'.names := by
      rw [← hnames]
      exact hgrows₂.names_subset
    obtain ⟨new, hgrown⟩ := hgrows₂.registry
    -- a new entry would be one of a type that the first call has led to
    have hnone : new = [] := by
      refine List.eq_nil_iff_forall_not_mem.mpr fun e he => hgrown.fresh e he ?_
      have hname : e.1 ∈ σ'.names := by
        rw [← hnames, hgrown.names]
        exact List.mem_append_right _ (List.mem_map_of_mem he)
      rcases (hexplores.mem_names_iff hE hexplores.reached hkept e.1).mp hname with
        hold | ⟨x, hx, hpub, hxe⟩
      · exact hold
      · exact hxe ▸ hE.stored (hreached hx) x.apart_nil hpub
    rw [hnone] at hgrown
    exact hgrown.eq_of_nil

/-- **Publishing a type again succeeds only where names are free.** -/
theorem namesFree_of_ensure_again {m : Node} {s₂ : Session}
    (hd : s'.Settles (c.environment.describe t) d) (hagain : c.ensure t s' = .ok m s₂) :
    NamesFree c.environment s' d := by
  have htidy := tidy_run c calls
  obtain ⟨hgrows, htidy'⟩ := grows_of_ensure htidy h
  obtain ⟨hgrows₂, htidy₂⟩ := grows_of_ensure htidy' hagain
  have hbelow := hgrows₂.below
  -- the first call has come to know all that the type leads to
  obtain ⟨E, hE, hreached⟩ := charted_of_ensure hkeys h htidy'.wellRead (.refl s') hd
  have hknows {y : Descriptor} (hy : Reaches c.environment s' d y) : s'.Knows c.environment y :=
    hE.knows (hreached hy)
  have hS := htidy₂.wellRead
  have hsound := sound_run hkeys hS calls (hgrows.below.trans hbelow)
  have hsound' := (sound_of_ensure hkeys hS htidy hsound h hbelow).1
  obtain ⟨d', w, w', hd', hcourse, hstart, -, -⟩ :=
    course_of_ensure hagain (.refl s₂) (List.prefix_refl _)
  obtain rfl := (hd.mono hbelow).unique hd'
  intro x hx hinline hnot
  obtain ⟨hreaches, hunfolds⟩ := Unfolds.mono hbelow hknows hx
  obtain ⟨k, hnear⟩ := hunfolds.exists_near
  have hvisited : w.visited = [] := congrArg Scene.visited hstart
  rw [← hvisited] at hnear
  have hnames : s'.registry.names ⊆ w.scene.names := by
    rw [hstart]
    exact List.Subset.refl _
  exact free_of_course hS hkeys ((hknows hreaches).described.imp fun _ ht => ht.mono hbelow)
    (hinline.mono hbelow) (fun hpub => hnot (hpub.of_below hbelow (hknows hreaches))) hcourse
    ⟨t, hd'⟩ (hstart ▸ hsound'.owned) hnames hnear

end

/-- **Publishing a type a second time.**  After any number of calls, let a call publish a type, and
let it be made once more.

However that ends, the registry is as it was.

If the type is published by name, then the second call gives a reference to its name, and leaves
all of the session as it was.

For any type, the second call succeeds only if no name is stored of a type that the type unfolds to
and that could have an entry by its shape, but has none.  It then gives what the first call gave and
leaves all of the session as it was, if of the types that the type unfolds to none has a base that
leads back to it, among those that are published by name and had yet to be stored before the first
call. -/
theorem run_ensure_again (c : Compiler) (hkeys : c.environment.KeysDistinct) (calls : List Call)
    {t : Token} {n : Node} {s' : Session} (h : c.ensure t (c.run calls) = .ok n s') :
    ∃ d, s'.Settles (c.environment.describe t) d ∧
      (after (c.ensure t) s').registry = s'.registry ∧
      (Published c.environment s' d → c.ensure t s' = .ok (.refTo d.name) s') ∧
      (∀ m s₂, c.ensure t s' = .ok m s₂ → NamesFree c.environment s' d) ∧
      (NamesFree c.environment s' d →
        (∀ x, Unfolds c.environment s' d x → Published c.environment s' x →
          x.name ∉ (c.run calls).registry.names → ¬ SelfBased c.environment s' x) →
        c.ensure t s' = .ok n s') := by
  have htidy := tidy_run c calls
  obtain ⟨hgrows, htidy'⟩ := grows_of_ensure htidy h
  have hw := htidy'.wellRead
  have hsound := sound_run hkeys hw calls hgrows.below
  obtain ⟨d, w, w', hd, hcourse, hstart, hdepth, hend⟩ :=
    course_of_sound htidy hsound h (.refl s') (List.prefix_refl _)
  have htended : w.scene.Tended c.environment s' := by
    rw [hstart]
    exact Scene.tended_of_unvisited hsound.owned rfl
  have hderives := derives_of_course hcourse
  have hkept : s'.claims = w'.scene.claims := congrArg Scene.claims hend
  have hclaims : w'.scene.claims <+: s'.claims := hkept ▸ List.prefix_refl _
  have hstored : s'.claimed ⊆ s'.registry.names := fun name => (htidy'.claimed name).mp
  -- the second call walks beside the first
  have hechoes : w.Echoes c.environment s' ⟨Registry.within Registry.open_ s', []⟩ := by
    have hvisited : w.visited = [] := congrArg Scene.visited hstart
    refine ⟨.refl s', rfl, rfl, rfl, ?_, nofun, fun y _ _ => ?_⟩
    · exact htidy'.depth.trans (hdepth.trans htidy.depth).symm
    · rw [Walk.visits, Walk.visits, hvisited]
  refine ⟨d, hd, registry_after_ensure_again hkeys h, fun hpub => ?_,
    fun _ _ => namesFree_of_ensure_again hkeys h hd, fun hfree hbased => ?_⟩
  · obtain ⟨howns, hclaimed⟩ :=
      hechoes.owns (owns_of_refers hw hkeys htended ⟨t, hd⟩ hpub hderives) hclaims
    exact ensure_of_referRoot htidy' hd
      (Environment.refer_of_owns (.refl s') hpub (hstored hclaimed) howns)
  · have hsteady : Steady c.environment s' (c.run calls).registry.names
        (Unfolds c.environment s' d) := by
      refine ⟨fun {x} hx => ?_, fun hx hpub hpoints => hx.tail ⟨hpub, hpoints⟩, hfree _, hbased _⟩
      cases hx with
      | refl => exact ⟨t, hd⟩
      | tail _ hpoints => exact describes_of_points hpoints.2
    have hK : (c.run calls).registry.names ⊆ w.scene.names := by
      rw [hstart]
      exact List.Subset.refl _
    exact ensure_of_referRoot htidy' hd
      (hcourse.again hw hkeys hsteady hstored .refl hclaims ⟨htended, hK, hechoes⟩)

/-- A volume is another name for a book, and nothing else goes by it. -/
theorem library_ensure_again : library.environment.KeysDistinct ∧
    ∃ n s', library.ensure (.crafted 4) (library.run []) = .ok n s' ∧
      s'.registry.names = ["Shelf", "Book"] ∧ library.ensure (.crafted 4) s' = .ok n s' := by
  have hkeys : library.environment.KeysDistinct := by
    refine Environment.keysDistinct_of_unsourced fun d hd => ?_
    fin_cases hd <;> rfl
  have hnames : yields (library.ensure (.crafted 4)) (library.run []) fun _ s =>
      s.registry.names == ["Shelf", "Book"] := by decide +kernel
  obtain ⟨n, s', h, hnames⟩ := exists_of_yields hnames
  replace hnames := eq_of_beq hnames
  obtain ⟨d, hd, -, -, -, hagain⟩ := run_ensure_again library hkeys [] h
  obtain rfl : d = library.environment.handmade 4 := (pure_eq_ok.mp (hd ⟨s', []⟩ (.refl s'))).1
  -- a volume unfolds to a book, which is published by name
  have hbook : Published library.environment s' (library.environment.handmade 2) :=
    published_of_root rfl rfl
  have hunfolds {x : Descriptor}
      (hx : Unfolds library.environment s' (library.environment.handmade 4) x) :
      x = library.environment.handmade 4 ∨ x = library.environment.handmade 2 := by
    induction hx with
    | refl => exact .inl rfl
    | tail _ hstep ih =>
      obtain ⟨hnot, t, ht, hy⟩ := hstep
      rcases ih with rfl | rfl
      · rcases (partOf_named rfl ht).2 with hbase | ⟨-, q, hq, -⟩
        · cases hbase
          exact .inr (pure_eq_ok.mp (hy ⟨s', []⟩ (.refl s'))).1
        · cases hq
      · exact absurd hbook hnot
  refine ⟨hkeys, n, s', h, hnames, hagain (fun x hx _ hpub => ?_) fun x hx hpub _ hself => ?_⟩
  · rw [hnames]
    rcases hunfolds hx with rfl | rfl
    · decide
    · exact absurd hbook hpub
  · obtain ⟨base, _, _, hbase, -⟩ := hself
    rcases hunfolds hx with rfl | rfl
    · rcases hpub.base with hnone | ⟨hproperties, -⟩
      · cases hnone
      · exact hproperties rfl
    · cases hbase

/-- **A leaf is given as an empty object by the call that stores it**, and then referred to. -/
theorem grove_ensure_again_ne : grove.environment.KeysDistinct ∧
    ∃ n s' m, grove.ensure (.crafted 1) (grove.run []) = .ok n s' ∧
      grove.ensure (.crafted 1) s' = .ok m s' ∧ n = .emptyObject ∧ m = .refTo "Leaf" := by
  refine ⟨Environment.keysDistinct_of_unsourced fun d hd => ?_, _, _, _, rfl, rfl, rfl, rfl⟩
  fin_cases hd <;> rfl

/-- A compiler that knows of two types with one name: an item, and another name for it. -/
def pantry : Compiler where
  environment :=
    { program :=
        { crafted :=
            [{ name := "Item", shape := .object },
             { name := "Item", shape := .object, base := some (.crafted 0) }] }
      maxDepth := 8
      captureDefaults := false }
  refPrefix := .ok "#/components/schemas/"
  release := "3.1.0"

/-- **A type that has just been published is refused.**  The first call stores the item, and the
second one finds its name stored and claimed for it. -/
theorem pantry_ensure_again_error : pantry.environment.KeysDistinct ∧
    ∃ n s' owner other, pantry.ensure (.crafted 1) (pantry.run []) = .ok n s' ∧
      n = .refTo "Item" ∧
      pantry.ensure (.crafted 1) s' = .error (.duplicateName "Item" owner other) s' := by
  refine ⟨Environment.keysDistinct_of_unsourced fun d hd => ?_, _, _, _, _, rfl, rfl, rfl⟩
  fin_cases hd <;> rfl

end Compiler

end Schemata
