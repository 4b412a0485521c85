import Schemata.Proofs.Compiler.Run
import Schemata.Proofs.Descriptor.Metadata
import Schemata.Proofs.Schema.Bounds
import Schemata.Proofs.Synthesis.Serving
import Schemata.Proofs.Synthesis.Stems
import Mathlib.Tactic.FinCases

/-!
# Do published bounds keep out what they should let in?

A field of whole numbers can be declared with any number of bounds.  A number that keeps to all of
them should be accepted by the property that is published of the field.

Mostly it is.  What is published is at each end the value of the last bound, and every number that
keeps to all bounds keeps to this one.  But the value is excluded as soon as *some* bound at this
end excludes its own.  With "more than 0" and "at least 5", in this order, the published property
demands more than 5, and 5 is rejected (`scoring_rejects`).

`run_bounds_accept` says that there is nothing else.  Of the numbers that keep to all bounds, a
property rejects those that are cut off in this way, and of the others just those that the bare
schema of whole numbers rejects; a schema of type `integer` rejects none.  This holds of every
property of every schema that is ever stored or given, in every environment.
-/

namespace Schemata

variable {env : Environment} {s : Session} {d x : Descriptor} {q : Property} {p : String × Node}
  {m : Node} {σ σ₁ : Scene}

/-- The builtin type of whole numbers is a leaf, whatever a host declares it to be. -/
theorem Kinds.exists_kindOf?_integer (ks : Kinds) :
    ∃ k, ks.kindOf? (.builtin .integer) = some k := by
  unfold kindOf?
  cases ks.find? fun e => e.1.same (.builtin .integer) with
  | some e => exact ⟨e.2, rfl⟩
  | none => exact ⟨.integer, rfl⟩

/-- What holds a leaf without annotations is the bare schema of the leaf. -/
theorem schema_of_refers {k : Kind} (hshape : x.shape = .primitive) (hkind : x.kind = some k)
    (hannotations : x.annotations = []) (hrefers : Derives env s (.refers x m) σ σ₁) :
    m = k.schema := by
  cases inlaid_of_refers (by rw [hshape]; rfl) hrefers with
  | primitive _ hmerge =>
    rw [Constraints.eq_empty_of_merge hannotations hmerge, hkind]
    cases k <;> rfl
  | unknown h | nullable h | array h | map h | anyMap h => cases hshape.symm.trans h

/-- **What a property of whole numbers accepts** that is declared with bounds. -/
theorem Stem.accepts_int (h : Stem env s d q p) (hw : s.WellRead env)
    (htype : q.type = .builtin .integer) {k : Kind}
    (hk : env.kinds.kindOf? (.builtin .integer) = some k) {ms : List Metadata} {bs : List Barrier}
    (hannotations : q.annotations = Metadata.recordsOfAll ms)
    (hbs : Metadata.barriersOfAll? ms = some bs) (D : Dialect) (refPrefix : String) (v : Int) :
    D.Accepts (p.2.render refPrefix) (.int v) ↔
      D.Accepts (k.schema.render refPrefix) (.int v) ∧ Barrier.Published bs v := by
  obtain ⟨c, x, m, default, σ, σ₁, hmerge, hdescribe, hrefers, hnode⟩ := h.dressed
  rw [htype] at hdescribe
  obtain ⟨hshape, hkind, hplain⟩ := Environment.leaf_of_describe hw hk hdescribe
  obtain ⟨c', hmerge', honly, hbounds⟩ := Constraints.merge_of_barriers hbs
  rw [hannotations, hmerge'] at hmerge
  cases hmerge
  rw [hnode, schema_of_refers hshape hkind hplain hrefers,
    Node.accepts_laidOn_int honly (fun side => Barrier.lastAt side bs) fun side => (hbounds side).1]
  refine and_congr_right fun _ => forall_congr' fun side => forall₂_congr fun n _ => ?_
  rw [(hbounds side).2]

namespace Compiler

variable {c : Compiler} {t : Token} {n : Node} {s' S : Session}

/-- What a call that publishes a type stores and gives stems from properties of types. -/
theorem stems_of_ensure (hs : s.scene.Stems c.environment S) (h : c.ensure t s = .ok n s')
    (hbelow : s'.Below S) : s'.scene.Stems c.environment S ∧ n.Stems c.environment S := by
  obtain ⟨d, σ, hd, hderives, hend⟩ := derives_of_ensure h hbelow
  obtain ⟨hentries, hn⟩ := stems_of_derives hderives ⟨t, hd⟩ hs
  refine ⟨?_, hn⟩
  rw [hend]
  exact hentries

/-- All that is stored stems from properties of types, after any number of calls. -/
theorem stems_run (calls : List Call) (hbelow : (c.run calls).Below S) :
    (c.run calls).scene.Stems c.environment S := by
  refine run_induction_below (P := fun s => s.scene.Stems c.environment S) nofun ?_ ?_ calls hbelow
  · intro s s' hs hlearns
    rw [hlearns.scene]
    exact hs
  · exact fun _ hs h hbelow => (stems_of_ensure hs h hbelow).1

/-- **Of the numbers that keep to all bounds of a field, its property rejects those that are cut
off.**  Let a call publish a type, after any number of calls.  Every property that is then shown, at
any depth, by what the call gives or by a stored schema stems from a property of a type that was
made by hand, or from one of a declared class, and its annotations are then the records of the
metadata that it was declared with.

If the property is one of whole numbers, and its annotations are the records of metadata that gives
nothing but bounds with whole numbers, then of the numbers that keep to all of them exactly those
are accepted that the bare schema of the type accepts and that are not cut off: a number is, if it
is the value of the last bound at its end and some bound at this end excludes its own value.  The
bare schema of the type accepts every whole number, unless the host has declared the type to be
something other than an integer. -/
theorem run_bounds_accept (c : Compiler) (calls : List Call)
    (h : c.ensure t (c.run calls) = .ok n s') :
    (∀ p, (n.Shows p ∨ ∃ e ∈ s'.registry.entries, e.2.Shows p) →
      ∃ d q, Stem c.environment s' d q p ∧
        ((∃ d₀ ∈ c.environment.program.crafted, d₀.Alike d) ∨
          ∃ i cls ms, c.environment.DescribesClass i d ∧
            c.environment.program.classes[i]? = some cls ∧
            c.environment.program.Carries (.declared i) cls q ms ∧
            q.annotations = Metadata.recordsOfAll ms)) ∧
    ∀ p d q, Stem c.environment s' d q p → q.type = .builtin .integer →
      ∀ ms bs, q.annotations = Metadata.recordsOfAll ms → Metadata.barriersOfAll? ms = some bs →
        ∃ k, c.environment.kinds.kindOf? (.builtin .integer) = some k ∧
          ∀ (D : Dialect) (refPrefix : String) (v : Int), (∀ b ∈ bs, b.Admits v) →
            (D.Accepts (p.2.render refPrefix) (.int v) ↔
              D.Accepts (k.schema.render refPrefix) (.int v) ∧ ¬ Barrier.CutOff bs v) ∧
            (k.jsonType = some .integer → D.Accepts (k.schema.render refPrefix) (.int v)) := by
  have htidy := tidy_run c calls
  obtain ⟨hgrows, htidy'⟩ := grows_of_ensure htidy h
  obtain ⟨hentries, hn⟩ := stems_of_ensure (stems_run calls hgrows.below) h (.refl s')
  constructor
  · intro p hp
    obtain ⟨d, q, hstem⟩ : ∃ d q, Stem c.environment s' d q p := by
      rcases hp with hp | ⟨e, he, hp⟩
      · exact hn p hp
      · exact hentries e he p hp
    refine ⟨d, q, hstem, ?_⟩
    rcases Environment.describesClass_of_property htidy'.wellRead hstem.described hstem.property
      with hcrafted | ⟨i, hclass⟩
    · exact .inl hcrafted
    · obtain ⟨cls, ms, hcls, hcarries, hms⟩ :=
        Environment.carries_of_describesClass hclass hstem.property
      exact .inr ⟨i, cls, ms, hclass, hcls, hcarries, hms⟩
  · intro p d q hstem htype ms bs hannotations hbs
    obtain ⟨k, hk⟩ := Kinds.exists_kindOf?_integer c.environment.kinds
    refine ⟨k, hk, fun D refPrefix v hv => ⟨?_, fun hinteger => ?_⟩⟩
    · rw [hstem.accepts_int htidy'.wellRead htype hk hannotations hbs, Barrier.published_iff hv]
    · rw [Node.accepts_schema_int, hinteger]
      rintro j ⟨⟩
      exact ⟨v, rfl⟩

/-- A compiler that knows of scores: a score has stars, from one to five, and points, which are more
than none and at least five. -/
def scoring : Compiler where
  environment :=
    { program := { classes := [score] }
      maxDepth := 8
      captureDefaults := true }
  refPrefix := .ok "#/components/schemas/"
  release := "3.1.0"
where
  fields : List (String × List Metadata) :=
    [("stars", [.limit (.interval .null (.int 1) (.int 6) .null)]),
     ("points", [.limit (.moreThan (.int 0)), .limit (.atLeast (.int 5))])]
  score : Class :=
    { name := "Score"
      module := "play"
      qualname := "Score"
      form := .record
      fields := fields.map fun f =>
        { name := f.1, type := .annotated (.token (.builtin .integer)) f.2 }
      recordFields := some (fields.map fun f => ⟨f.1, none⟩) }
  properties : List (String × Node) :=
    [("stars", .leaf { minimum := some ⟨.int 1, none⟩
                       maximum := some ⟨.int 6, none⟩
                       exclusiveMaximum := true } (some .integer)),
     ("points", .leaf { minimum := some ⟨.int 5, none⟩, exclusiveMinimum := true }
        (some .integer))]

/-- What is stored when scores are published. -/
theorem scoring_publishes : ∃ n s', scoring.ensure (.declared 0) (scoring.run []) = .ok n s' ∧
    s'.registry.entries =
      [("Score", .object { required := ["stars", "points"] } scoring.properties none none)] :=
  ⟨_, _, rfl, rfl⟩

/-- What a property of a score is declared with. -/
theorem scoring_carries {i : Nat} {cls : Class} {q : Property} {ms : List Metadata}
    (hcls : scoring.environment.program.classes[i]? = some cls)
    (h : scoring.environment.program.Carries (.declared i) cls q ms) {f : String × List Metadata}
    (hf : f ∈ scoring.fields) (hname : q.name = f.1) : q.type = .builtin .integer ∧ ms = f.2 := by
  have hscore : i = 0 ∧ cls = scoring.score := by
    match i, hcls with
    | 0, hcls => exact ⟨rfl, (Option.some.inj hcls).symm⟩
    | i + 1, hcls => cases hcls
  obtain ⟨rfl, rfl⟩ := hscore
  cases h with
  | hinted hhints ht htype =>
    cases hhints
    rw [hname] at ht
    rw [htype, ← ht]
    fin_cases hf <;> exact ⟨rfl, rfl⟩
  | modelled hf => cases hf

/-- Five stars are accepted: they keep to the bounds, and nothing is cut off but six. -/
theorem scoring_bounds_accept : ∃ n s', scoring.ensure (.declared 0) (scoring.run []) = .ok n s' ∧
    ∃ e ∈ s'.registry.entries, ∃ m, e.2.Shows ("stars", m) ∧
      ∀ (D : Dialect) (refPrefix : String), D.Accepts (m.render refPrefix) (.int 5) := by
  obtain ⟨n, s', h, hentries⟩ := scoring_publishes
  obtain ⟨hstems, hbounds⟩ := run_bounds_accept scoring [] h
  have hentry : ("Score", Node.object { required := ["stars", "points"] } scoring.properties none
      none) ∈ s'.registry.entries := by
    rw [hentries]
    exact List.mem_cons_self
  have hshows := Node.Shows.own
    (n := .object { required := ["stars", "points"] } scoring.properties none none)
    (List.mem_of_getElem? (i := 0) rfl)
  refine ⟨n, s', h, _, hentry, _, hshows, fun D refPrefix => ?_⟩
  obtain ⟨d, q, hstem, hd⟩ := hstems _ (.inr ⟨_, hentry, hshows⟩)
  rcases hd with ⟨d₀, hd₀, -⟩ | ⟨i, cls, ms, -, hcls, hcarries, hannotations⟩
  · cases hd₀
  · have hstars : ("stars", [Metadata.limit (.interval .null (.int 1) (.int 6) .null)]) ∈
        scoring.fields := List.mem_cons_self
    obtain ⟨htype, rfl⟩ := scoring_carries hcls hcarries hstars hstem.name
    obtain ⟨k, hk, haccepts⟩ := hbounds _ d q hstem htype _
      [⟨.lower, false, 1⟩, ⟨.upper, true, 6⟩] hannotations rfl
    cases hk
    obtain ⟨hiff, hinteger⟩ := haccepts D refPrefix 5 (by decide)
    refine hiff.mpr ⟨hinteger rfl, ?_⟩
    rintro ⟨⟨⟩, hcut, -⟩ <;> exact absurd hcut (by decide)

/-- **The points of a score can be five, and the published property rejects five.** -/
theorem scoring_rejects : ∃ n s', scoring.ensure (.declared 0) (scoring.run []) = .ok n s' ∧
    ∃ e ∈ s'.registry.entries, ∃ m, e.2.Shows ("points", m) ∧
      ∃ ms bs, ("points", ms) ∈ scoring.fields ∧ Metadata.barriersOfAll? ms = some bs ∧
        (∀ b ∈ bs, b.Admits 5) ∧
        ∀ (D : Dialect) (refPrefix : String), ¬ D.Accepts (m.render refPrefix) (.int 5) := by
  obtain ⟨n, s', h, hentries⟩ := scoring_publishes
  refine ⟨n, s', h, ("Score", _), hentries ▸ List.mem_cons_self, _,
    .own (n := .object { required := ["stars", "points"] } scoring.properties none none)
      (List.mem_of_getElem? (i := 1) rfl), _, [⟨.lower, true, 0⟩, ⟨.lower, false, 5⟩],
    List.mem_of_getElem? (i := 1) rfl, rfl, by decide, fun D refPrefix haccepts => ?_⟩
  rw [Node.accepts_leaf_int ⟨rfl, rfl, rfl⟩
    (fun side => Barrier.lastAt side [⟨.lower, true, 0⟩, ⟨.lower, false, 5⟩])
    (by rintro ⟨⟩ <;> rfl)] at haccepts
  have hlower : (5 : Int) < 5 := haccepts.2 .lower 5 rfl
  omega

end Compiler

end Schemata
