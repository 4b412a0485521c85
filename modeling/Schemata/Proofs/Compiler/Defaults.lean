import Schemata.Proofs.Compiler.Ownership
import Schemata.Proofs.Compiler.Publication
import Schemata.Proofs.Descriptor.Record
import Schemata.Proofs.Synthesis.Serving

/-!
# Do defaults fit their schemas?

A schema is made from the type of a field and its default from the value that the field holds.  The
two are made by functions that go their own ways: one turns types into nodes, the other turns values
into the form in which they are published.  A default that does not fit the schema beside it would
be of no use to a reader, and nothing in either function looks at the other.

They do not always fit.  An enumeration is published as the names of its members and a decimal as a
number, and so is a default that is a member or a decimal.  But inside a list or a mapping defaults
are published in the form that values have everywhere else, with texts for decimals and the values
of members rather than their names.  A list of decimals is then an array of numbers with an array of
texts for its default (`invoicing_rejects`).

How far they do fit is `run_default_accepted`.  The property of a record accepts the *wire form* of
what the field holds, whatever it is; what is published is the wire form for exactly those values
that are faithful; so a faithful value is published as a default that its schema accepts.

For this one has to know which field a property of a stored schema comes from, however deep it is
inside the schema and in whichever call the schema was stored.  An entry that was stored stays as it
was, but what is known grows from call to call.  So the provenance of all entries is told from the
session at the end (`accounted_run`).
-/

namespace Schemata

namespace Compiler

variable {c : Compiler} {t : Token} {n : Node} {s s' S : Session}

/-! ## Where the properties of a registry come from -/

section

variable (hkeys : c.environment.KeysDistinct) (hS : S.WellRead c.environment)
include hkeys hS

section

variable (hrecalls : S.Recalls c.environment)
include hrecalls

/-- **What a call that publishes a type stores and gives** is accounted for, as told by a session
that knows all of the call and has kept its claims. -/
theorem accounted_of_ensure (htidy : s.Tidy c.environment)
    (hsound : Session.Sound c.environment S s) (hs : s.scene.Accounted c.environment S)
    (h : c.ensure t s = .ok n s') (hbelow : s'.Below S) (hclaims : s'.claims <+: S.claims)
    (hinstances : s'.instances <+: S.instances) :
    s'.scene.Accounted c.environment S ∧ n.Originates c.environment S := by
  obtain ⟨d, w, w', hd, hcourse, hstart, -, hend⟩ :=
    course_of_sound htidy hsound h hbelow hinstances
  have htended : w.scene.Tended c.environment S := by
    rw [hstart]
    exact Scene.tended_of_unvisited hsound.owned rfl
  have hkept : s'.claims = w'.scene.claims := congrArg Scene.claims hend
  rw [hkept] at hclaims
  obtain ⟨hentries, hn⟩ := provenance_of_course hS hkeys hrecalls hcourse htended (.refers hd)
    trivial hclaims (hstart ▸ hs)
  have hregistry : s'.scene.registry = w'.scene.registry := by rw [hend]
  exact ⟨hentries.of_registry hregistry, hn⟩

/-- **All entries are accounted for**, after any number of calls, whether they succeed or fail. -/
theorem accounted_run (calls : List Call) (hbelow : (c.run calls).Below S)
    (hclaims : (c.run calls).claims <+: S.claims)
    (hinstances : (c.run calls).instances <+: S.instances) :
    (c.run calls).scene.Accounted c.environment S := by
  suffices h : Session.Sound c.environment S (c.run calls) ∧
      (c.run calls).scene.Accounted c.environment S from h.2
  refine run_induction_of_ensure
    (P := fun s => Session.Sound c.environment S s ∧ s.scene.Accounted c.environment S) calls
    ⟨Session.sound_empty, nofun⟩ ?_ ?_
  · rintro s s' ⟨hsound, hs⟩ hlearns
    refine ⟨hsound.of_learns hlearns, ?_⟩
    rw [hlearns.scene]
    exact hs
  · rintro s call t n s' - - htidy ⟨hsound, hs⟩ h hgrows
    have hbelow' := hgrows.below.trans hbelow
    exact ⟨(sound_of_ensure hkeys hS htidy hsound h hbelow').1,
      (accounted_of_ensure hkeys hS hrecalls htidy hsound hs h hbelow'
        (List.IsPrefix.trans hgrows.claims_prefix hclaims)
        (List.IsPrefix.trans hgrows.instances hinstances)).1⟩

end

/-- **Under the name of an enumeration there is what is published of it**, once the name is its
own. -/
theorem enumerates_of_accounted (htidy : S.Tidy c.environment)
    (hsound : Session.Sound c.environment S S) (hentries : S.scene.Accounted c.environment S)
    {x : Descriptor} (hx : S.Describes c.environment x) (hpub : Published c.environment S x)
    (hshape : x.shape = .enum) (howns : S.scene.Owns x) :
    ∃ n, S.registry.get? x.name = some n ∧ x.Enumerates n := by
  have hstored : x.name ∈ S.registry.names := htidy.claimed_subset howns.mem_claimed
  obtain ⟨n, hget⟩ := Option.isSome_iff_exists.mp (Registry.isSome_get?_iff.mpr hstored)
  obtain ⟨y, hy, hpuby, hname, hownsy, henumerates⟩ :=
    (hentries _ (Registry.mem_entries_of_get? hget)).owner
  have hkin : y.Kin x := kin_of_owns hkeys hS hy hx hpuby hpub hname hsound.owned hownsy howns
  have hshapey : y.shape = .enum := by
    rw [hkin.symm.alike]
    exact hshape
  refine ⟨n, hget, ?_⟩
  rw [hkin.alike]
  exact henumerates hshapey

end

/-! ## Defaults of records -/

/-- **A default that is published for an ordinary field of a record fits its schema if the value is
faithful.**  Let a call publish a type, after any number of calls.  Every property that is then
shown, at any depth, by what the call gives or by a stored schema comes from a property of a type,
which was made by hand or is a declared class.  If it comes from an ordinary field of a record and
has a default, then the field is declared with a value such that

* the default is the published form of the value, which is not what the field would hold anyway;
* the property accepts the wire form of the value, with references followed into the registry;
* the default is the wire form exactly if the value is faithful, and it is then accepted. -/
theorem run_default_accepted (c : Compiler) (hkeys : c.environment.KeysDistinct)
    (hks : c.environment.kinds.LeavesOrdinary) (calls : List Call)
    (h : c.ensure t (c.run calls) = .ok n s') :
    (∀ p, (n.Shows p ∨ ∃ e ∈ s'.registry.entries, e.2.Shows p) →
      ∃ d q, Origin c.environment s' d q p ∧ ((∃ d₀ ∈ c.environment.program.crafted, d₀.Alike d) ∨
        ∃ i, c.environment.DescribesClass i d)) ∧
    ∀ p d q, Origin c.environment s' d q p → ∀ i cls fs type, c.environment.DescribesClass i d →
      OrdinaryField c.environment.program i cls fs p.1 type → ∀ w, p.2.default? = some w →
        ∃ v, ⟨p.1, some (.ok v)⟩ ∈ fs ∧ v.isIntrinsic = .ok false ∧ v.literal = .ok w ∧
          p.2.Accepts s'.registry.get? v.wireForm ∧ (w = v.wireForm ↔ v.isFaithful = true) ∧
          (v.isFaithful = true → p.2.Accepts s'.registry.get? w) := by
  have htidy := tidy_run c calls
  obtain ⟨hgrows, htidy'⟩ := grows_of_ensure htidy h
  have hS := htidy'.wellRead
  have hrecalls : s'.Recalls c.environment :=
    after_of_ok h ▸ recollects_ensure c t _ (recalls_run c calls)
  have hsound := sound_run hkeys hS calls hgrows.below
  have hsound' := (sound_of_ensure hkeys hS htidy hsound h (.refl _)).1
  have hbefore := accounted_run hkeys hS hrecalls calls hgrows.below hgrows.claims_prefix
    hgrows.instances
  obtain ⟨hentries, hn⟩ := accounted_of_ensure hkeys hS hrecalls htidy hsound hbefore h (.refl _)
    (List.prefix_refl _) (List.prefix_refl _)
  constructor
  · intro p hp
    obtain ⟨d, q, horigin⟩ : ∃ d q, Origin c.environment s' d q p := by
      rcases hp with hp | ⟨e, he, hp⟩
      · exact hn p hp
      · exact (hentries e he).originates p hp
    exact ⟨d, q, horigin,
      Environment.describesClass_of_property hS horigin.described horigin.property⟩
  · rintro p d q horigin i cls fs type ⟨d₀, hread, halike⟩ hfield w hw
    have hq : q ∈ d₀.properties := by
      rw [halike.symm]
      exact horigin.property
    rw [← horigin.name] at hfield ⊢
    obtain ⟨hfactory, htype, hannotations, haccessor⟩ := hfield.reads hread hq
    have hdeclared {v : Value} (hv : d.made.bind (fun v => v.held? q.accessorName) = some v) :
        ⟨q.name, some (.ok v)⟩ ∈ fs := by
      rw [haccessor] at hv
      refine hfield.mem_of_held ?_ hv
      rw [halike]
      exact hfactory
    have hplain : ∀ k, Constraints.merge q.annotations = .ok k → k.Undemanding := by
      intro k hk
      rw [Constraints.eq_empty_of_merge hannotations hk]
      exact Constraints.undemanding_empty
    obtain ⟨v, hv, hintrinsic, hliteral, haccepts, hiff⟩ := horigin.accepts hS hkeys hks
      (enumerates_of_accounted hkeys hS htidy' hsound' hentries) hfield.ordinary
      (htype ▸ FieldType.same_token _) hplain (fun v hv => hfield.defaults v (hdeclared hv)) hw
    refine ⟨v, hdeclared hv, hintrinsic, hliteral, haccepts, hiff, fun hfaithful => ?_⟩
    rw [hiff.mpr hfaithful]
    exact haccepts

/-- Whether a stored schema has a property of its own with a name and a node that passes a test. -/
def showsOwn (name : String) (test : Node → Bool) (s : Session) : Bool :=
  s.registry.entries.any fun e => e.2.own.any fun p => p.1 == name && test p.2

theorem exists_of_showsOwn {name : String} {test : Node → Bool}
    (h : showsOwn name test s = true) :
    ∃ e ∈ s.registry.entries, ∃ m, e.2.Shows (name, m) ∧ test m = true := by
  obtain ⟨e, he, h⟩ := List.any_eq_true.mp h
  obtain ⟨⟨key, m⟩, hp, h⟩ := List.any_eq_true.mp h
  obtain ⟨hkey, hm⟩ := Bool.and_eq_true_iff.mp h
  cases eq_of_beq hkey
  exact ⟨e, he, m, .own hp, hm⟩

/-- A compiler that knows of invoices: an invoice has a total and some rates, which are decimals,
the colors of its pages, and a color for each of its marks.  Red is known as `r`, and green by its
own name. -/
def invoicing : Compiler where
  environment :=
    { program :=
        { classes :=
            [{ name := "Color"
               module := "shop"
               qualname := "Color"
               form := .enumeration colors
               bases := [.builtin .enumeration]
               ancestry := [.builtin .enumeration] }, invoice] }
      maxDepth := 8
      captureDefaults := true }
  refPrefix := .ok "#/components/schemas/"
  release := "3.1.0"
where
  color : EnumLabel := ⟨"Color", "Color", false, false, none⟩
  red : Value := .member color "RED" (.text "r")
  green : Value := .member color "GREEN" (.text "GREEN")
  colors : Enumeration := ⟨color, [("RED", red), ("GREEN", green)], ["RED", "GREEN"]⟩
  fields : List (String × FieldType × Value) :=
    [("total", .decimal, .decimal (.finite false 3 0)),
     ("rates", .list false .decimal, .list [.decimal (.finite false 15 (-1))]),
     ("pages", .list false (.enumeration 0), .list [red]),
     ("marks", .dict false (.enumeration 0), .ofFields [("first", green)])]
  held : List RecordField := fields.map fun f => ⟨f.1, some (.ok f.2.2)⟩
  invoice : Class :=
    { name := "Invoice"
      module := "shop"
      qualname := "Invoice"
      form := .record
      fields := fields.map fun f =>
        { name := f.1, type := .token f.2.1.token, factory := some (.ok f.2.2) }
      recordFields := some held }

/-- What a field of an invoice holds. -/
theorem invoicing_held {f : String × FieldType × Value} (hf : f ∈ invoicing.fields) {v : Value}
    (hv : ⟨f.1, some (.ok v)⟩ ∈ invoicing.held) : v = f.2.2 := by
  obtain ⟨g, hg, heq⟩ := List.mem_map.mp hv
  obtain ⟨hname, hvalue⟩ := RecordField.mk.inj heq
  have hnames : (invoicing.fields.map (·.1)).Nodup := by decide
  rw [← List.inj_on_of_nodup_map hnames hg hf hname]
  exact (Except.ok.inj (Option.some.inj hvalue)).symm

/-- All fields of an invoice are ordinary. -/
theorem invoicing_ordinary {f : String × FieldType × Value} (hf : f ∈ invoicing.fields) :
    OrdinaryField invoicing.environment.program 1 invoicing.invoice invoicing.held f.1 f.2.1 := by
  have hcolors : (FieldType.enumeration 0).Declared invoicing.environment.program := by
    refine ⟨_, invoicing.colors, rfl, rfl, fun k hk => ?_⟩
    rw [Constraints.eq_empty_of_merge rfl hk]
    exact ⟨rfl, rfl⟩
  have hred : (FieldType.enumeration 0).Takes invoicing.environment.program invoicing.red :=
    ⟨_, invoicing.colors, invoicing.color, "RED", .text "r", rfl, rfl, rfl, List.mem_cons_self,
      List.mem_cons_self⟩
  have hgreen : (FieldType.enumeration 0).Takes invoicing.environment.program invoicing.green :=
    ⟨_, invoicing.colors, invoicing.color, "GREEN", .text "GREEN", rfl, rfl, rfl,
      List.mem_cons_of_mem _ List.mem_cons_self, List.mem_cons_of_mem _ List.mem_cons_self⟩
  have htype : ∃ hints, invoicing.environment.program.hints (.declared 1) invoicing.invoice =
      .ok hints ∧ getKey? f.1 hints = some f.2.1.token := by
    refine ⟨_, rfl, ?_⟩
    fin_cases hf <;> rfl
  have hordinary : f.2.1.Declared invoicing.environment.program := by
    fin_cases hf <;> trivial
  have htakes : f.2.1.Takes invoicing.environment.program f.2.2 := by
    fin_cases hf
    · exact ⟨_, rfl, ⟨false, 3, 0, rfl⟩, .inl (by decide)⟩
    · refine ⟨_, rfl, fun x hx => ?_⟩
      rw [List.mem_singleton.mp hx]
      exact ⟨_, rfl, ⟨false, 15, -1, rfl⟩, .inr (by decide +kernel)⟩
    · refine ⟨_, rfl, fun x hx => ?_⟩
      rwa [List.mem_singleton.mp hx]
    · refine ⟨_, rfl, by decide, fun e he => ?_⟩
      rwa [List.mem_singleton.mp he]
  exact ⟨rfl, rfl, rfl, htype, hordinary, fun v hv => invoicing_held hf hv ▸ htakes⟩

/-- The classes of an invoice that have properties. -/
theorem invoicing_describes {i : Nat} {d : Descriptor} {q : Property}
    (h : invoicing.environment.DescribesClass i d) (hq : q ∈ d.properties) : i = 1 := by
  obtain ⟨d₀, hread, halike⟩ := h
  have hq₀ : q ∈ d₀.properties := by
    rw [halike.symm]
    exact hq
  match i, hread with
  | 0, hread =>
    cases hread
    cases hq₀
  | 1, _ => rfl
  | i + 2, hread =>
    cases hread
    cases hq₀

/-- The marks of an invoice are of a color that has its own name for its value, and their default is
accepted. -/
theorem invoicing_default_accepted : invoicing.environment.KeysDistinct ∧
    invoicing.environment.kinds.LeavesOrdinary ∧
    ∃ n s', invoicing.ensure (.declared 1) (invoicing.run []) = .ok n s' ∧
      ∃ e ∈ s'.registry.entries, ∃ m, e.2.Shows ("marks", m) ∧
        m.default? = some (.ofFields [("first", .text "GREEN")]) ∧
        m.Accepts s'.registry.get? (.ofFields [("first", .text "GREEN")]) := by
  have hkeys : invoicing.environment.KeysDistinct :=
    Environment.keysDistinct_of_unsourced fun d hd => absurd hd List.not_mem_nil
  have hks : invoicing.environment.kinds.LeavesOrdinary := nofun
  have hshown : yields (invoicing.ensure (.declared 1)) (invoicing.run [])
      (fun _ s => showsOwn "marks" (fun m => m.default?.isSome) s) = true := by decide +kernel
  obtain ⟨n, s', h, hshown⟩ := exists_of_yields hshown
  obtain ⟨e, he, m, hshows, hdefault⟩ := exists_of_showsOwn hshown
  obtain ⟨w, hw⟩ := Option.isSome_iff_exists.mp hdefault
  obtain ⟨horigins, hdefaults⟩ := run_default_accepted invoicing hkeys hks [] h
  have hmarks : ("marks", FieldType.dict false (.enumeration 0),
      Value.ofFields [("first", invoicing.green)]) ∈ invoicing.fields :=
    List.mem_of_getElem? (i := 3) rfl
  obtain ⟨d, q, horigin, hd⟩ := horigins _ (.inr ⟨e, he, hshows⟩)
  rcases hd with ⟨d₀, hd₀, -⟩ | ⟨i, hclass⟩
  · cases hd₀
  · cases invoicing_describes hclass horigin.property
    obtain ⟨v, hv, -, hliteral, -, -, haccepted⟩ :=
      hdefaults _ d q horigin 1 _ _ _ hclass (invoicing_ordinary hmarks) w hw
    rw [invoicing_held hmarks hv] at hliteral haccepted
    cases hliteral
    exact ⟨hkeys, hks, n, s', h, e, he, m, hshows, hw, haccepted rfl⟩

/-! ### Defaults that are rejected -/

/-- Whether a leaf is of numbers, or lists texts that are not a certain one. -/
def refusesText (s : String) : Node → Bool
  | .leaf _ (some .number) => true
  | .leaf k (some .string) => !k.choices.isEmpty && k.choices.all fun v => v.text? != some s
  | _ => false

/-- Whether an array has a text in its default that its items refuse. -/
def rejectsDefault (find : String → Option Node) : Node → Bool
  | .array k items =>
    match k.default, items with
    | some (.list [.text s]), .ref name none none => (find name).any (refusesText s)
    | some (.list [.text s]), items => refusesText s items
    | _, _ => false
  | _ => false

section

variable {find : String → Option Node}

theorem not_accepts_of_refusesText {s : String} (h : refusesText s m = true) :
    ¬ m.Accepts find (.text s) := by
  intro haccepts
  unfold refusesText at h
  split at h
  next =>
    obtain ⟨htakes, -⟩ := haccepts.of_leaf nofun
    cases htakes
  next k =>
    obtain ⟨hsome, hothers⟩ := Bool.and_eq_true_iff.mp h
    obtain ⟨-, hempty | hlisted⟩ := haccepts.of_leaf nofun
    · rw [hempty] at hsome
      cases hsome
    · have hother := List.all_eq_true.mp hothers _ hlisted
      exact absurd rfl (bne_iff_ne.mp hother)
  next => cases h

theorem exists_of_rejectsDefault (h : rejectsDefault find m = true) :
    ∃ w, m.default? = some w ∧ ¬ m.Accepts find w := by
  unfold rejectsDefault at h
  split at h
  next k items =>
    split at h
    next s name hdefault =>
      obtain ⟨target, hfind, htarget⟩ := (Option.any_eq_true _ _).mp h
      refine ⟨_, hdefault, fun haccepts => ?_⟩
      obtain ⟨n, hn, haccepts⟩ := (haccepts.of_array _ List.mem_cons_self).of_refTo
      cases hfind.symm.trans hn
      exact not_accepts_of_refusesText htarget haccepts
    next s items hdefault _ =>
      refine ⟨_, hdefault, fun haccepts => ?_⟩
      exact not_accepts_of_refusesText h (haccepts.of_array _ List.mem_cons_self)
    next => cases h
  next => cases h

end

/-- **The rates and the pages of an invoice have defaults that their schemas reject**: the rates are
published as numbers and the default of the rates as a text, and red is published as `RED` and the
default of the pages as `r`. -/
theorem invoicing_rejects : ∃ n s', invoicing.ensure (.declared 1) (invoicing.run []) = .ok n s' ∧
    ∀ f ∈ [("rates", FieldType.list false .decimal), ("pages", .list false (.enumeration 0))],
      OrdinaryField invoicing.environment.program 1 invoicing.invoice invoicing.held f.1 f.2 ∧
      ∃ e ∈ s'.registry.entries, ∃ m w, e.2.Shows (f.1, m) ∧ m.default? = some w ∧
        ¬ m.Accepts s'.registry.get? w := by
  have hshown : yields (invoicing.ensure (.declared 1)) (invoicing.run [])
      (fun _ s => ["rates", "pages"].all fun name =>
        showsOwn name (rejectsDefault s.registry.get?) s) = true := by decide +kernel
  obtain ⟨n, s', h, hshown⟩ := exists_of_yields hshown
  have hrejects {name : String} (hname : name ∈ ["rates", "pages"]) : ∃ e ∈ s'.registry.entries,
      ∃ m w, e.2.Shows (name, m) ∧ m.default? = some w ∧ ¬ m.Accepts s'.registry.get? w := by
    obtain ⟨e, he, m, hshows, hrejects⟩ :=
      exists_of_showsOwn (List.all_eq_true.mp hshown name hname)
    obtain ⟨w, hw, hrejects⟩ := exists_of_rejectsDefault hrejects
    exact ⟨e, he, m, w, hshows, hw, hrejects⟩
  refine ⟨n, s', h, fun f hf => ?_⟩
  fin_cases hf
  · exact ⟨invoicing_ordinary (List.mem_of_getElem? (i := 1) rfl), hrejects List.mem_cons_self⟩
  · exact ⟨invoicing_ordinary (List.mem_of_getElem? (i := 2) rfl),
      hrejects (List.mem_cons_of_mem _ List.mem_cons_self)⟩

end Compiler

end Schemata
