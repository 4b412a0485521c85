import Schemata.Proofs.Descriptor.Record

/-!
# What properties are declared with

The annotations of a property of a declared class are the records that some metadata amounts to.
Where the metadata stands depends on the form of the class: in the type of the field, as it is once
names have been looked up, and for a model in front of it what the model itself says of the field,
with the texts of the field in between.  `Program.Carries` says which metadata it is, and
`carries_of_describesClass` that there is nothing else.

A builtin type that is a leaf is described as that leaf, and without annotations: whatever metadata
its token had has become part of the property (`leaf_of_describe`).
-/

namespace Schemata

/-- **The metadata of a property of a class.** -/
inductive Program.Carries (p : Program) (own : Token) (c : Class) (q : Property) :
    List Metadata → Prop
  /-- A property of a record or of an ordinary class. -/
  | hinted {hints : List (String × Token)} {t : Token} (hhints : p.hints own c = .ok hints)
      (ht : (getKey? q.name hints).getD (.builtin .anything) = t) (htype : q.type = t.bare) :
      Carries p own c q t.metadata
  /-- A property of a model. -/
  | modelled {f : ModelField} {t : Token} (hf : f ∈ c.modelFields) (hname : q.name = f.published)
      (ht : p.fieldType c own f.type = .ok t) (htype : q.type = t.bare) :
      Carries p own c q (f.limits ++ [.field ⟨0, [], [], f.texts⟩] ++ t.metadata)

namespace Program

variable {p : Program} {own : Token} {c : Class} {d : Descriptor} {q : Property}

theorem carries_of_recordProperties {fs : List RecordField} {qs : List Property}
    (h : p.recordProperties own c fs = .ok qs) (hq : q ∈ qs) :
    ∃ ms, p.Carries own c q ms ∧ q.annotations = Metadata.recordsOfAll ms := by
  obtain ⟨hints, hhints, h⟩ := exists_of_bind_eq_ok h
  cases h
  obtain ⟨f, -, rfl⟩ := List.mem_map.mp hq
  exact ⟨_, .hinted hhints rfl rfl, rfl⟩

theorem carries_of_plainProperties {qs : List Property} (h : p.plainProperties own c = .ok qs)
    (hq : q ∈ qs) : ∃ ms, p.Carries own c q ms ∧ q.annotations = Metadata.recordsOfAll ms := by
  unfold plainProperties at h
  split at h
  · cases h
    cases hq
  · obtain ⟨hints, hhints, h⟩ := exists_of_bind_eq_ok h
    cases h
    obtain ⟨name, -, hname⟩ := List.mem_filterMap.mp hq
    dsimp only at hname
    split at hname
    · cases hname
    · cases hname
      exact ⟨_, .hinted hhints rfl rfl, rfl⟩

theorem carries_of_modelProperties {qs : List Property} (h : p.modelProperties own c = .ok qs)
    (hq : q ∈ qs) : ∃ ms, p.Carries own c q ms ∧ q.annotations = Metadata.recordsOfAll ms := by
  obtain ⟨f, hf, hread⟩ := exists_of_mem_mapM h hq
  obtain ⟨t, ht, hread⟩ := exists_of_bind_eq_ok hread
  cases hread
  refine ⟨_, .modelled (List.mem_filter.mp hf).1 rfl ht rfl, ?_⟩
  simp [readProperty, Metadata.recordsOfAll, Metadata.records]

/-- **Every property of a class carries metadata**, and its annotations are the records of it. -/
theorem carries_of_readClass (h : p.readClass own c = .ok d) (hq : q ∈ d.properties) :
    ∃ ms, p.Carries own c q ms ∧ q.annotations = Metadata.recordsOfAll ms := by
  unfold readClass at h
  dsimp only at h
  split at h
  · cases h
    cases hq
  · obtain ⟨qs, hqs, hd⟩ := exists_of_bind_eq_ok h
    cases hd
    exact carries_of_modelProperties hqs hq
  · obtain ⟨qs, hqs, hd⟩ := exists_of_bind_eq_ok h
    cases hd
    exact carries_of_recordProperties hqs hq
  · obtain ⟨qs, hqs, hd⟩ := exists_of_bind_eq_ok h
    cases hd
    exact carries_of_plainProperties hqs hq

end Program

namespace Environment

variable {env : Environment} {s : Session} {d : Descriptor} {q : Property}

theorem carries_of_describesClass {i : Nat} (h : env.DescribesClass i d) (hq : q ∈ d.properties) :
    ∃ c ms, env.program.classes[i]? = some c ∧ env.program.Carries (.declared i) c q ms ∧
      q.annotations = Metadata.recordsOfAll ms := by
  obtain ⟨d₀, hread, halike⟩ := h
  rw [halike] at hq
  obtain ⟨_, c, ⟨⟩, hc, hclass⟩ := Program.class_of_read hread hq
  obtain ⟨ms, hms⟩ := Program.carries_of_readClass hclass hq
  exact ⟨c, ms, hc, hms⟩

/-- What a leaf among the builtin types is described as. -/
theorem leaf_of_describe (hw : s.WellRead env) {b : Builtin} {k : Kind}
    (hk : env.kinds.kindOf? (.builtin b) = some k) (h : s.Settles (env.describe (.builtin b)) d) :
    d.shape = .primitive ∧ d.kind = some k ∧ d.annotations = [] := by
  have hcrafted : ∀ i, Token.builtin b ≠ .crafted i := nofun
  obtain ⟨a, d₀, ha, hread, halike⟩ := exists_read_of_describe hw hcrafted rfl h
  have hbuiltin : a = .builtin b := ha.elim id fun h => Token.eq_of_same_builtin h.1
  rw [hbuiltin] at hread
  unfold Program.read at hread
  dsimp only [Token.bare] at hread
  rw [hk] at hread
  cases hread
  rw [halike]
  exact ⟨rfl, rfl, rfl⟩

end Environment

end Schemata
