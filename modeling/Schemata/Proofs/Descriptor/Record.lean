import Schemata.Proofs.Descriptor.FieldType
import Schemata.Proofs.Synthesis.Instances

/-!
# What is read of an ordinary field

`OrdinaryField` says of a field that it belongs to a record, that its type is an ordinary one, and
that what it holds when nothing is given is of this type.  It asks for the type that the field has
once names have been looked up, and not for how the type is written down: what is optional twice is
the same as what is optional once.

The properties of a record are its own fields, in their types and with no annotations
(`OrdinaryField.reads`), and on an instance each of them holds what the declaration says
(`OrdinaryField.mem_of_held`).  Fields that a record takes over from the records above it are held
as well, but they are properties of those.
-/

namespace Schemata

/-! ## Which types have properties -/

/-- The descriptor of a declared class. -/
def Environment.DescribesClass (env : Environment) (i : Nat) (d : Descriptor) : Prop :=
  ∃ d₀, env.program.read env.kinds (.declared i) = .ok d₀ ∧ d₀.Alike d

/-- A described type with properties was made by hand, or it is a declared class. -/
theorem Environment.describesClass_of_property {env : Environment} {s : Session}
    (hw : s.WellRead env) {d : Descriptor} {q : Property} (hd : s.Describes env d)
    (hq : q ∈ d.properties) :
    (∃ d₀ ∈ env.program.crafted, d₀.Alike d) ∨ ∃ i, env.DescribesClass i d := by
  have hclass {t : Token} {d₀ : Descriptor} (hread : env.program.read env.kinds t = .ok d₀)
      (halike : d₀.Alike d) : ∃ i, env.DescribesClass i d := by
    have hq₀ : q ∈ d₀.properties := by
      rw [halike] at hq
      exact hq
    obtain ⟨i, -, hi, -⟩ := Program.class_of_read hread hq₀
    refine ⟨i, d₀, ?_, halike⟩
    rw [← hread]
    exact Program.read_congr hi.symm
  obtain ⟨t, ht⟩ := hd
  rcases describe_cases ht with ⟨i, halike, -⟩ | ⟨t', hmem⟩ | ⟨t', d₀, hread, halike, -⟩
  · cases hi : env.program.crafted[i]? with
    | none =>
      rw [hi] at halike
      rw [halike] at hq
      cases hq
    | some d₀ =>
      rw [hi] at halike
      exact .inl ⟨d₀, List.mem_of_getElem? hi, halike⟩
  · obtain ⟨i, hi⟩ := List.mem_iff_getElem?.mp hmem
    obtain ⟨d₀, hread, rfl⟩ := hw i t' d hi
    exact .inr (hclass hread rfl)
  · exact .inr (hclass hread halike)

/-! ## Records -/

/-- **A field of a record is ordinary**: its type is, and whatever it holds when nothing is given is
of that type. -/
structure OrdinaryField (p : Program) (i : Nat) (c : Class) (fs : List RecordField) (name : String)
    (t : FieldType) : Prop where
  declared : p.classes[i]? = some c
  form : c.form = .record
  fields : c.recordFields = some fs
  type : ∃ hints, p.hints (.declared i) c = .ok hints ∧ getKey? name hints = some t.token
  ordinary : t.Declared p
  defaults : ∀ v, ⟨name, some (.ok v)⟩ ∈ fs → t.Takes p v

/-- A value that a field holds when nothing is given is one that it is declared with. -/
theorem Program.mem_of_heldByDefault {fs : List (String × Option (Except Fault Value))}
    {es : List (Value × Value)} (h : heldByDefault fs = .ok es) {name : String} {v : Value}
    (hv : Value.entryAt? name es = some v) : (name, some (.ok v)) ∈ fs := by
  have hmem {e : Value × Value} (he : e ∈ es) :
      ∃ f ∈ fs, e.1 = .text f.1 ∧ f.2 = some (.ok e.2) := by
    clear hv
    induction fs generalizing es with
    | nil =>
      cases h
      cases he
    | cons f fs ih =>
      obtain ⟨key, default⟩ := f
      cases default with
      | none =>
        obtain ⟨f, hf, hkey⟩ := ih h he
        exact ⟨f, List.mem_cons_of_mem _ hf, hkey⟩
      | some made =>
        obtain ⟨u, hu, h⟩ := exists_of_bind_eq_ok h
        obtain ⟨es', hes, h⟩ := exists_of_bind_eq_ok h
        cases h
        rcases List.mem_cons.mp he with rfl | he
        · exact ⟨_, List.mem_cons_self, rfl, congrArg some hu⟩
        · obtain ⟨f, hf, hkey⟩ := ih hes he
          exact ⟨f, List.mem_cons_of_mem _ hf, hkey⟩
  obtain ⟨e, hfind, rfl⟩ := Option.map_eq_some_iff.mp hv
  obtain ⟨⟨key, default⟩, hf, hkey, rfl⟩ := hmem (List.mem_of_find?_eq_some hfind)
  have hname := List.find?_some hfind
  rw [hkey] at hname
  cases eq_of_beq (show (some key == some name) = true from hname)
  exact hf

namespace OrdinaryField

variable {p : Program} {ks : Kinds} {i : Nat} {c : Class} {fs : List RecordField} {name : String}
  {t : FieldType} {d : Descriptor} {q : Property}

/-- **What is read of an ordinary field.** -/
theorem reads (h : OrdinaryField p i c fs q.name t) (hread : p.read ks (.declared i) = .ok d)
    (hq : q ∈ d.properties) : d.factory = some (p.defaults (.declared i) c) ∧ q.type = t.token ∧
      q.annotations = [] ∧ q.accessorName = q.name := by
  obtain ⟨_, _, ⟨⟩, hc, hread⟩ := Program.class_of_read hread hq
  cases h.declared.symm.trans hc
  have hclass : p.readClass (.declared i) c = .ok d := hread
  unfold Program.readClass at hclass
  rw [h.form, h.fields] at hclass
  obtain ⟨qs, hqs, hd⟩ := exists_of_bind_eq_ok hclass
  cases hd
  refine ⟨rfl, ?_⟩
  obtain ⟨hints, hhints, htype⟩ := h.type
  unfold Program.recordProperties at hqs
  rw [hhints] at hqs
  cases hqs
  obtain ⟨f, -, rfl⟩ := List.mem_map.mp hq
  have hhint : getKey? f.name hints = some t.token := htype
  obtain ⟨-, hbare, -⟩ := FieldType.plain_of_same t.same_token
  rw [hhint]
  refine ⟨hbare, ?_, ?_⟩
  · show [] ++ Metadata.recordsOfAll t.token.metadata = []
    rw [FieldType.metadata_token]
    rfl
  · show (if f.name.isEmpty then f.name else f.name) = f.name
    split <;> rfl

/-- **What an ordinary field holds on an instance** is what it is declared with. -/
theorem mem_of_held (h : OrdinaryField p i c fs name t)
    (hfactory : d.factory = some (p.defaults (.declared i) c)) {v : Value}
    (hv : d.made.bind (fun v => v.held? name) = some v) : ⟨name, some (.ok v)⟩ ∈ fs := by
  unfold Descriptor.made at hv
  rw [hfactory] at hv
  cases hmade : p.defaults (.declared i) c with
  | error e =>
    rw [hmade] at hv
    cases hv
  | ok u =>
    rw [hmade] at hv
    unfold Program.defaults at hmade
    rw [h.form, h.fields] at hmade
    obtain ⟨es, hes, hu⟩ := exists_of_bind_eq_ok hmade
    cases hu
    obtain ⟨⟨_, default⟩, hf, heq⟩ := List.mem_map.mp (Program.mem_of_heldByDefault hes hv)
    cases heq
    exact hf

end OrdinaryField

end Schemata
