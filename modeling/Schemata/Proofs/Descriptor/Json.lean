import Schemata.Proofs.Annotation.Json
import Schemata.Proofs.Descriptor.Metadata

/-!
# Where annotations come from

The annotations that a program is written with are records on its classes and metadata on the
properties of these: records again, bounds and lengths, and descriptions of fields.
`Program.Annotates` says of metadata that the program is written with it.

Everything else is derived from these.  Metadata amounts to records, and those are made of the
values that the metadata is made of, besides null and truth values (`Metadata.isJson_of_records`).
The annotations of a type that is read off a program are records that the program is written with;
but a literal type has one of its own, the list of its values
(`Environment.annotates_of_describes`).
-/

namespace Schemata

/-! ## Metadata -/

namespace Metadata

/-- The values that metadata is made of, as far as they are used. -/
def values : Metadata → List Value
  | .record r => r.values
  | .limit l => l.values
  | .field d =>
    d.limits.flatMap Limit.values ++ [d.texts.title, d.texts.description, d.texts.samples]
  | .note _ => []

variable {m : Metadata} {l : Limit} {r : Record}

/-- The records of a bound or a length are made of its parts. -/
theorem mem_values_of_limitRecords (hr : r ∈ limitRecords l) {v : Value} (hv : v ∈ r.values) :
    v ∈ l.values ∨ v = .bool true ∨ v = .null := by
  have hgiven {w : Value} {record : Value → Record} (hr : r ∈ boundRecord w record) :
      r = record w := by
    cases w with
    | null => cases hr
    | _ => exact List.mem_singleton.mp hr
  cases l with
  | interval above least below greatest =>
    simp only [limitRecords, List.mem_append] at hr
    rcases hr with ((hr | hr) | hr) | hr <;> rw [hgiven hr] at hv <;>
      simp [aboveRecord, leastRecord, belowRecord, greatestRecord, Record.property, Record.values,
        Limit.values, Limit.parts] at hv ⊢ <;> tauto
  | _ =>
    rw [List.mem_singleton.mp hr] at hv
    simp [aboveRecord, leastRecord, belowRecord, greatestRecord, Record.property, Record.length,
      Record.values, Limit.values, Limit.parts] at hv ⊢
    tauto

/-- The record of the texts of a field is made of them. -/
theorem mem_values_of_textRecords {t : FieldTexts} (hr : r ∈ textRecords t) {v : Value}
    (hv : v ∈ r.values) : v = t.title ∨ v = t.description ∨ v = .bool true ∨
      v = .list (t.samples.elements?.getD []) := by
  have hentry {name : String} {w : Value} (hv : v ∈
      (if w.truthy then [(name, w)] else []).map fun e : String × Value => e.2) : v = w := by
    split at hv
    · exact List.mem_singleton.mp hv
    · cases hv
  have hnamed {named : List (String × Value)}
      (hr : r ∈ if named.isEmpty then [] else [Record.property named]) :
      v ∈ named.map fun e => e.2 := by
    split at hr
    · cases hr
    · rwa [List.mem_singleton.mp hr] at hv
  have hv := hnamed hr
  simp only [List.map_append, List.mem_append] at hv
  rcases hv with ((hv | hv) | hv) | hv
  · exact .inl (hentry hv)
  · exact .inr (.inl (hentry hv))
  · split at hv
    · exact .inr (.inr (.inr (List.mem_singleton.mp hv)))
    · cases hv
  · split at hv
    · exact .inr (.inr (.inl (List.mem_singleton.mp hv)))
    · cases hv

/-- **Metadata of JSON amounts to records of JSON.** -/
theorem isJson_of_records (hm : ∀ v ∈ m.values, v.isJson = true) (hr : r ∈ m.records) :
    ∀ v ∈ r.values, v.isJson = true := by
  have hlimit {l : Limit} (hl : ∀ v ∈ l.values, v.isJson = true) (hr : r ∈ limitRecords l) :
      ∀ v ∈ r.values, v.isJson = true := by
    intro v hv
    rcases mem_values_of_limitRecords hr hv with hv | rfl | rfl
    · exact hl v hv
    · rfl
    · rfl
  cases m with
  | record r' =>
    cases List.mem_singleton.mp hr
    exact hm
  | limit l => exact hlimit hm hr
  | field d =>
    rcases List.mem_append.mp hr with hr | hr
    · obtain ⟨l, hl, hr⟩ := List.mem_flatMap.mp hr
      exact hlimit (fun v hv => hm v (List.mem_append_left _ (List.mem_flatMap.mpr ⟨l, hl, hv⟩))) hr
    · obtain ⟨htitle, hdescription, hsamples⟩ : d.texts.title.isJson = true ∧
          d.texts.description.isJson = true ∧ d.texts.samples.isJson = true := by
        simpa [values] using fun v hv => hm v (List.mem_append_right _ hv)
      intro v hv
      rcases mem_values_of_textRecords hr hv with rfl | rfl | rfl | rfl
      · exact htitle
      · exact hdescription
      · rfl
      · cases h : d.texts.samples.elements? with
        | none => rfl
        | some xs => exact Value.isJson_list.mpr (Value.isJson_of_elements? hsamples h)
  | note => cases hr

end Metadata

/-! ## Programs -/

/-- **What a program is annotated with.** -/
inductive Program.Annotates (p : Program) : Metadata → Prop
  /-- A record on a class. -/
  | onClass {c : Class} {r : Record} (hc : c ∈ p.classes) (hr : r ∈ c.annotations) :
      Annotates p (.record r)
  /-- Metadata on a property of a class. -/
  | onProperty {i : Nat} {c : Class} {q : Property} {ms : List Metadata} {m : Metadata}
      (hc : p.classes[i]? = some c) (hcarries : p.Carries (.declared i) c q ms) (hm : m ∈ ms) :
      Annotates p m

namespace Environment

variable {env : Environment} {s : Session} {d : Descriptor} {q : Property} {r : Record}
  (hw : s.WellRead env) (hcrafted : env.program.crafted = []) (hd : s.Describes env d)
include hw hcrafted hd

/-- **The annotations of a described type** are those that the program is written with, or the list
of the values of a literal type. -/
theorem annotates_of_describes (hr : r ∈ d.annotations) :
    (∃ m, env.program.Annotates m ∧ r ∈ m.records) ∨
      ∃ vs, (Program.readLiteral vs).Alike d ∧ r = .choices vs := by
  have hread {t : Token} {d₀ : Descriptor} (hread : env.program.read env.kinds t = .ok d₀)
      (halike : d₀.Alike d) : (∃ m, env.program.Annotates m ∧ r ∈ m.records) ∨
      ∃ vs, (Program.readLiteral vs).Alike d ∧ r = .choices vs := by
    have hr₀ : r ∈ d₀.annotations := by
      rw [halike] at hr
      exact hr
    rcases Program.annotations_of_read hread with hnone | ⟨vs, rfl⟩ | ⟨c, hc, heq⟩
    · rw [hnone] at hr₀
      cases hr₀
    · exact .inr ⟨vs, halike, List.mem_singleton.mp hr₀⟩
    · rw [heq] at hr₀
      exact .inl ⟨_, .onClass hc hr₀, List.mem_singleton_self _⟩
  obtain ⟨t, ht⟩ := hd
  rcases describe_cases ht with ⟨i, halike, -⟩ | ⟨t', hmem⟩ | ⟨t', d₀, hread', halike, -⟩
  · rw [hcrafted] at halike
    rw [halike] at hr
    cases hr
  · obtain ⟨i, hi⟩ := List.mem_iff_getElem?.mp hmem
    obtain ⟨d₀, hread', rfl⟩ := hw i t' d hi
    exact hread hread' rfl
  · exact hread hread' halike

/-- **The annotations of a property** are those that the program is written with. -/
theorem annotates_of_property (hq : q ∈ d.properties) (hr : r ∈ q.annotations) :
    ∃ m, env.program.Annotates m ∧ r ∈ m.records := by
  rcases describesClass_of_property hw hd hq with ⟨d₀, hd₀, -⟩ | ⟨i, hclass⟩
  · rw [hcrafted] at hd₀
    cases hd₀
  · obtain ⟨c, ms, hc, hcarries, heq⟩ := carries_of_describesClass hclass hq
    rw [heq] at hr
    obtain ⟨m, hm, hr⟩ := List.mem_flatMap.mp hr
    exact ⟨m, .onProperty hc hcarries hm, hr⟩

end Environment

end Schemata
