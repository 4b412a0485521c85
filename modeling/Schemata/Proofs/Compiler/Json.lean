import Schemata.Proofs.Compiler.Publication
import Schemata.Proofs.Descriptor.FieldType
import Schemata.Proofs.Descriptor.Json
import Schemata.Proofs.Synthesis.Json
import Mathlib.Tactic.FinCases

/-!
# Are documents JSON?

A document is to be written out as JSON, so what it is made of should be what JSON has.  Everything
in it was declared somewhere: annotations, lists of choices, defaults.  Defaults are values of any
kind, and are turned into JSON when they are taken; annotations are copied as they are.

Documents are JSON but for three ways out.

* A default may have a double that is not finite, and this is published as it is: so `inf` stands in
  the document if a field has it for its default (`gauging_strays`).  An infinite decimal is not
  published at all, but a decimal that is no number becomes such a double.
* The values of a literal type are listed as they are, whatever they are: bytes, or a member of an
  enumeration that is not mixed (`gauging_strays`).
* A bound that is written out may be too large for a double, and is then infinite.

`run_components_json` says that there are no others, for types that are read off a program.  It is
told by the annotations that the program is written with, and by the types that the calls draw on:
those that they publish, with all their parts and bases (`DrawnOn`).
-/

namespace Schemata

/-- **What calls draw on**: the types that they publish, all parts of these, and all their bases. -/
inductive DrawnOn (env : Environment) (s : Session) (calls : List Call) : Descriptor → Prop
  | published {call : Call} {t : Token} {d : Descriptor} (hcall : call ∈ calls)
      (ht : call.published? = some t) (hd : s.Settles (env.describe t) d) : DrawnOn env s calls d
  | part {d x : Descriptor} (hd : DrawnOn env s calls d) (hx : Points env s d x) :
      DrawnOn env s calls x
  | base {d x : Descriptor} {t : Token} (hd : DrawnOn env s calls d) (ht : d.base = some t)
      (hx : s.Settles (env.describe t) x) : DrawnOn env s calls x

variable {env : Environment} {s : Session} {calls : List Call} {d : Descriptor}

theorem DrawnOn.described (h : DrawnOn env s calls d) : s.Describes env d := by
  cases h with
  | published _ _ hd => exact ⟨_, hd⟩
  | part _ hx => exact ⟨_, hx.choose_spec.2⟩
  | base _ _ hx => exact ⟨_, hx⟩

/-- The values that a token lists. -/
def Token.listed : Token → List Value
  | .literal vs => vs
  | _ => []

/-- **What calls draw on says nothing but what is of JSON**, if the program is annotated with
nothing else, the literal types have no other values, and the defaults are finite. -/
theorem ofJson_drawnOn (hw : s.WellRead env) (hcrafted : env.program.crafted = [])
    (hannotates : ∀ m, env.program.Annotates m → (∀ v ∈ m.values, v.isJson = true) ∧
      ∀ r ∈ m.records, ∀ v ∈ r.bounds, v.overflows = false)
    (hliterals : ∀ d vs, DrawnOn env s calls d → (Program.readLiteral vs).Alike d →
      ∀ v ∈ vs, v.isJson = true)
    (hdefaults : env.captureDefaults = true → ∀ d, DrawnOn env s calls d →
      ∀ q ∈ d.properties, ∀ v ∈ d.heldFor q, v.isFiniteDefault = true) :
    s.OfJson env (DrawnOn env s calls) where
  leads := .part
  bases := .base
  described := DrawnOn.described
  annotations := by
    intro d hd r hr
    rcases Environment.annotates_of_describes hw hcrafted hd.described hr with
      ⟨m, hm, hr⟩ | ⟨vs, halike, rfl⟩
    · obtain ⟨hvalues, hbounds⟩ := hannotates m hm
      exact ⟨Metadata.isJson_of_records hvalues hr, hbounds r hr⟩
    · refine ⟨fun v hv => hliterals d vs hd halike v ?_, ?_⟩
      · simpa [Record.choices, Record.values] using hv
      · rw [Record.bounds_choices]
        exact List.forall_mem_nil _
  properties := by
    intro d hd q hq r hr
    obtain ⟨m, hm, hr⟩ := Environment.annotates_of_property hw hcrafted hd.described hq hr
    obtain ⟨hvalues, hbounds⟩ := hannotates m hm
    exact ⟨Metadata.isJson_of_records hvalues hr, hbounds r hr⟩
  defaults := fun hcapture _ hd q hq v hv => hdefaults hcapture _ hd q hq v hv

namespace Compiler

variable {c : Compiler} {t : Token} {n : Node} {s' S : Session} {E : Descriptor → Prop}

/-- **A call stores what is of JSON**, if the types are that it is about. -/
theorem json_of_ensure (hS : S.WellRead c.environment) (hkeys : c.environment.KeysDistinct)
    (hrecalls : S.Recalls c.environment) (hE : S.OfJson c.environment E) (hs : s.scene.IsJson)
    (h : c.ensure t s = .ok n s') (hbelow : s'.Below S) (hinstances : s'.instances <+: S.instances)
    (hd : ∀ {d}, S.Settles (c.environment.describe t) d → E d) :
    s'.scene.IsJson := by
  obtain ⟨d, w, w', hdescribe, hcourse, hstart, -, hend⟩ := course_of_ensure h hbelow hinstances
  rw [hend]
  exact (json_of_course hS hkeys hrecalls hE hcourse (hd hdescribe) trivial (hstart ▸ hs)).1

/-- **Documents are JSON**, but for three ways out.  Let any calls be made on a compiler whose types
are read off a program, whether the calls succeed or not.  Let the program be annotated with values
of JSON.  If none of its bounds is written out and too large for a double, the literal types that
the calls draw on have values of JSON only, and no double is infinite or no number in the published
form of a value that is held for a property of a type that they draw on, then the components are
null, truth values, texts, finite numbers, lists and mappings from texts, at every depth. -/
theorem run_components_json (c : Compiler) (hcrafted : c.environment.program.crafted = [])
    (hvalues : ∀ m, c.environment.program.Annotates m → ∀ v ∈ m.values, v.isJson = true)
    (hbounds : ∀ m, c.environment.program.Annotates m →
      ∀ r ∈ m.records, ∀ v ∈ r.bounds, v.overflows = false)
    (calls : List Call)
    (hliterals : ∀ d vs, DrawnOn c.environment (c.run calls) calls d →
      (Program.readLiteral vs).Alike d → ∀ v ∈ vs, v.isJson = true)
    (hdefaults : c.environment.captureDefaults = true →
      ∀ d, DrawnOn c.environment (c.run calls) calls d →
        ∀ q ∈ d.properties, ∀ v ∈ d.heldFor q, v.isFiniteDefault = true) :
    (c.components (c.run calls)).isJson = true := by
  have hwellRead := (tidy_run c calls).wellRead
  have hkeys : c.environment.KeysDistinct := by
    refine Environment.keysDistinct_of_unsourced fun d hd => ?_
    rw [hcrafted] at hd
    cases hd
  have hE := ofJson_drawnOn hwellRead hcrafted (fun m hm => ⟨hvalues m hm, hbounds m hm⟩)
    hliterals hdefaults
  have hentries : (c.run calls).scene.IsJson := by
    refine run_induction_of_ensure (P := fun s => s.scene.IsJson) calls (List.forall_mem_nil _) ?_
      ?_
    · intro s s' hs hlearns
      rw [hlearns.scene]
      exact hs
    · intro s call t n s' hcall ht _ hs h hgrows
      exact json_of_ensure hwellRead hkeys (recalls_run c calls) hE hs h hgrows.below
        hgrows.instances (.published hcall ht)
  refine Value.isJson_ofFields.mpr (List.forall_mem_singleton.mpr ?_)
  refine Value.isJson_ofFields.mpr (List.forall_mem_map.mpr fun e he => ?_)
  exact (hentries e he).render c.prefixText

/-- A compiler that knows of gauges: a gauge has a limit, which is a number that is not negative,
and one of some units. -/
def gauging (limit : Value) (units : List Value) : Compiler where
  environment :=
    { program := { classes := [gauge limit units] }
      maxDepth := 8
      captureDefaults := true }
  refPrefix := .ok "#/components/schemas/"
  release := "3.1.0"
where
  fields (limit : Value) (units : List Value) : List (String × TypeExpr × Value) :=
    [("limit", .annotated (.token (.builtin .double)) [.limit (.atLeast (.int 0))], limit),
     ("unit", .token (.literal units), units.headD .null)]
  gauge (limit : Value) (units : List Value) : Class :=
    { name := "Gauge"
      module := "__main__"
      qualname := "Gauge"
      form := .record
      fields := (fields limit units).map fun f =>
        { name := f.1, type := f.2.1, factory := some (.ok f.2.2) }
      recordFields := some ((fields limit units).map fun f => ⟨f.1, some (.ok f.2.2)⟩) }
  half : Value := .float (.finite false (2 ^ 52) (-53))

/-- What a program is annotated with that knows of gauges. -/
theorem gauging_annotates {limit : Value} {units : List Value} {m : Metadata}
    (h : (gauging limit units).environment.program.Annotates m) :
    m = .limit (.atLeast (.int 0)) := by
  cases h with
  | onClass hc hr =>
    rw [List.mem_singleton.mp hc] at hr
    cases hr
  | @onProperty i cls q ms _ hcls hcarries hm =>
    obtain ⟨rfl, rfl⟩ : i = 0 ∧ cls = gauging.gauge limit units := by
      match i, hcls with
      | 0, hcls => exact ⟨rfl, (Option.some.inj hcls).symm⟩
      | i + 1, hcls => cases hcls
    cases hcarries with
    | @hinted _ t hhints ht htype =>
      cases hhints
      rw [← ht] at hm
      cases hget : getKey? q.name _ with
      | none =>
        rw [hget] at hm
        cases hm
      | some t' =>
        rw [hget] at hm
        rcases List.mem_cons.mp (mem_of_getKey? hget) with heq | hmem
        · rw [(Prod.mk.inj heq).2] at hm
          exact List.mem_singleton.mp hm
        · rw [(Prod.mk.inj (List.mem_singleton.mp hmem)).2] at hm
          cases hm
    | modelled hf => cases hf

/-- What is known of a type that gauges are made of. -/
structure IsGaugePart (limit : Value) (units : List Value) (d : Descriptor) : Prop where
  base : d.base = none
  shape : d.shape ∈ [.object, .primitive, .unknown]
  types : ∀ q ∈ d.properties, q.type ∈ [.builtin .double, .literal units]
  held : ∀ q ∈ d.properties, ∀ v ∈ d.heldFor q, v = limit ∨ v = units.headD .null
  lists : ∀ vs, d.annotations = [.choices vs] → ∀ v ∈ vs, v.isJson = true

section

variable {limit : Value} {units : List Value} {S : Session} {d : Descriptor}
  (hw : S.WellRead (gauging limit units).environment)
  (hunits : ∀ v ∈ units, v.isJson = true)
  (hlisted : ∀ e ∈ S.readings, ∀ v ∈ e.1.listed, v.isJson = true)
include hw hunits hlisted

/-- What gauges are made of is read as this. -/
theorem isGaugePart_of_describe {t : Token}
    (ht : t ∈ [.declared 0, .builtin .double, .literal units])
    (hd : S.Settles ((gauging limit units).environment.describe t) d) :
    IsGaugePart limit units d := by
  have hcrafted : ∀ i, t ≠ .crafted i := by
    rintro i rfl
    simp at ht
  have htype : t.asType = t := by
    fin_cases ht <;> rfl
  obtain ⟨b, d₀, hb, hread, halike⟩ := exists_read_of_describe hw hcrafted htype hd
  rw [halike]
  simp only [List.mem_cons, List.not_mem_nil, or_false] at ht
  rcases ht with rfl | rfl | rfl
  · rw [hb.elim id fun h => Token.eq_of_same_declared h.1] at hread
    cases hread
    refine ⟨rfl, List.mem_cons_self, ?_, ?_, fun _ h => (by cases h)⟩
    · exact List.forall_mem_cons.mpr ⟨List.mem_cons_self, List.forall_mem_singleton.mpr
        (List.mem_cons_of_mem _ List.mem_cons_self)⟩
    · refine List.forall_mem_cons.mpr ⟨?_, List.forall_mem_singleton.mpr ?_⟩
      · rintro v ⟨⟩
        exact .inl rfl
      · rintro v ⟨⟩
        exact .inr rfl
  · rw [hb.elim id fun h => Token.eq_of_same_builtin h.1] at hread
    cases hread
    exact ⟨rfl, List.mem_of_getElem? (i := 1) rfl, List.forall_mem_nil _, List.forall_mem_nil _,
      fun _ h => (by cases h)⟩
  · have hkinds (vs : List Value) :
        (gauging limit units).environment.kinds.kindOf? (.literal vs) = none := by
      unfold Kinds.kindOf?
      cases Token.checkKey _ <;> rfl
    obtain ⟨vs, rfl, hvs⟩ : ∃ vs, b = .literal vs ∧ ∀ v ∈ vs, v.isJson = true := by
      rcases hb with rfl | ⟨hsame, hmem⟩
      · exact ⟨units, rfl, hunits⟩
      · cases b with
        | literal vs => exact ⟨vs, rfl, hlisted _ hmem⟩
        | _ => cases hsame
    cases (Program.read_literal (hkinds vs)).symm.trans hread
    have hshape (kind : Option Kind) :
        (if kind.isSome then Shape.primitive else .unknown) ∈
          [Shape.object, .primitive, .unknown] := by
      cases kind <;> simp
    refine ⟨rfl, hshape _, List.forall_mem_nil _, List.forall_mem_nil _, ?_⟩
    rintro ws ⟨⟩
    exact hvs

/-- **What is drawn on when gauges are published** is what they are made of. -/
theorem isGaugePart_of_drawnOn
    (h : DrawnOn (gauging limit units).environment S [.ensure (.declared 0)] d) :
    IsGaugePart limit units d := by
  induction h with
  | published hcall ht hd =>
    rw [List.mem_singleton.mp hcall] at ht
    cases ht
    exact isGaugePart_of_describe hw hunits hlisted List.mem_cons_self hd
  | base _ ht _ ih => cases ih.base.symm.trans ht
  | @part d x _ hx ih =>
    obtain ⟨t, hpart, hx⟩ := hx
    have hshape := ih.shape
    cases hpart with
    | inner h => rcases h with h | h <;> rw [h] at hshape <;> exact absurd hshape (by decide)
    | value h =>
      rw [h] at hshape
      exact absurd hshape (by decide)
    | base _ _ h => cases ih.base.symm.trans h
    | property _ _ hq =>
      exact isGaugePart_of_describe hw hunits hlisted (List.mem_cons_of_mem _ (ih.types _ hq)) hx

end

/-- The session after gauges are published. -/
def gauged (limit : Value) (units : List Value) : Session :=
  (gauging limit units).run [.ensure (.declared 0)]

/-- The components are JSON where a gauge has a limit of one half and one unit, a text. -/
theorem gauging_components_json :
    (gauged gauging.half [.text "bar"]).registry.names = ["Gauge"] ∧
      ((gauging gauging.half [.text "bar"]).components
        (gauged gauging.half [.text "bar"])).isJson = true := by
  have hunits : ∀ v ∈ [Value.text "bar"], v.isJson = true := by decide
  have hlisted : ∀ e ∈ (gauged gauging.half [.text "bar"]).readings, ∀ v ∈ e.1.listed,
      v.isJson = true := by
    have hall : ((gauged gauging.half [.text "bar"]).readings.all fun e =>
        e.1.listed.all Value.isJson) = true := by decide +kernel
    simpa only [List.all_eq_true] using hall
  have hpart {d : Descriptor} := isGaugePart_of_drawnOn (d := d)
    (tidy_run (gauging gauging.half [.text "bar"]) [.ensure (.declared 0)]).wellRead hunits hlisted
  refine ⟨by decide +kernel, run_components_json _ rfl ?_ ?_ _ ?_ ?_⟩
  · intro m hm
    rw [gauging_annotates hm]
    decide
  · intro m hm
    rw [gauging_annotates hm]
    decide
  · intro d vs hd halike
    refine (hpart hd).lists vs ?_
    rw [halike]
    rfl
  · intro _ d hd q hq v hv
    rcases (hpart hd).held q hq v hv with rfl | rfl <;> decide

/-- **What is published need not be JSON.**  A gauge is annotated with nothing but a number and is
published, and the components are not JSON if its limit is infinite by default, nor if its unit is
given as bytes. -/
theorem gauging_strays :
    ((∀ m, (gauging (.float (.infinite false)) [.text "bar"]).environment.program.Annotates m →
        ∀ v ∈ m.values, v.isJson = true) ∧
      (gauged (.float (.infinite false)) [.text "bar"]).registry.names = ["Gauge"] ∧
      ((gauging (.float (.infinite false)) [.text "bar"]).components
        (gauged (.float (.infinite false)) [.text "bar"])).isJson = false) ∧
    (∀ m, (gauging gauging.half [.bytes false [98, 97, 114]]).environment.program.Annotates m →
        ∀ v ∈ m.values, v.isJson = true) ∧
      (gauged gauging.half [.bytes false [98, 97, 114]]).registry.names = ["Gauge"] ∧
      ((gauging gauging.half [.bytes false [98, 97, 114]]).components
        (gauged gauging.half [.bytes false [98, 97, 114]])).isJson = false := by
  have hvalues (limit : Value) (units : List Value) (m : Metadata)
      (hm : (gauging limit units).environment.program.Annotates m) :
      ∀ v ∈ m.values, v.isJson = true := by
    rw [gauging_annotates hm]
    decide
  exact ⟨⟨hvalues _ _, by decide +kernel, by decide +kernel⟩, hvalues _ _, by decide +kernel,
    by decide +kernel⟩

end Compiler

end Schemata
