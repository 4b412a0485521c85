import Schemata.Proofs.Declared.FieldType
import Schemata.Proofs.Descriptor.Reading

/-!
# What is read of the ordinary types of fields

`FieldType.Reads` says what the descriptor of an ordinary type looks like: its shape, the type
inside it, and that it has no annotations, unless the declaration of an enumeration has some.
`reads_of_describe` says that whatever a session has learned before, and whichever of the tokens
that are the same as the type was met first, this is what it describes the type as.

A host may declare leaf types of its own, and it may declare the ordinary ones to be something else.
`Kinds.LeavesOrdinary` says that it has not.

A union is a set, so that a token with the same type twice is the same as a union of the type with
null, and there is no null in it.  It is read as a type without structure.  No program makes such a
token, since members are not repeated when unions are formed; but nothing about the tokens
themselves forbids it, so the case is kept and turns out to do no harm.
-/

namespace Schemata

/-- **What a declaration is described as was read off it.** -/
theorem exists_read_of_declaration {env : Environment} {s : Session} (hw : s.WellRead env)
    {a : Token} {d : Descriptor} (ha : a.isDeclaration = true)
    (h : s.Settles (env.describe a) d) :
    ∃ d₀, env.program.read env.kinds a = .ok d₀ ∧ d₀.Alike d := by
  have hcrafted (i : Nat) : a ≠ .crafted i := by
    rintro rfl
    cases ha
  have htype : a.asType = a := by
    cases a with
    | none => cases ha
    | _ => rfl
  obtain ⟨b, d₀, hb, hread, halike⟩ := exists_read_of_describe hw hcrafted htype h
  obtain rfl : b = a := hb.elim id fun ⟨hsame, _⟩ => Token.eq_of_same_declaration ha hsame
  exact ⟨d₀, hread, halike⟩

/-- No ordinary type is among the leaf types of a host. -/
def Kinds.LeavesOrdinary (ks : Kinds) : Prop :=
  ∀ e ∈ ks, ∀ t : FieldType, e.1.same t.token = false

/-- The enumerations of a type are declared, and no annotation on them makes their schemas anything
but a text that is one of the names that they list. -/
def FieldType.Declared (p : Program) : FieldType → Prop
  | enumeration i => ∃ c e, p.classes[i]? = some c ∧ c.form = .enumeration e ∧
      ∀ k, Constraints.merge c.annotations = .ok k → k.type = none ∧ k.choices = []
  | optional _ _ t | list _ t | dict _ t => t.Declared p
  | _ => True

/-- The kind of leaf that a type is. -/
def FieldType.kind? : FieldType → Option Kind
  | integer => some .integer
  | text => some .text
  | truth => some .boolean
  | decimal => some .decimal
  | _ => none

/-- **What the descriptor of an ordinary type says.** -/
def FieldType.Reads (p : Program) : FieldType → Descriptor → Prop
  | enumeration i, d => d.shape = .enum ∧ d.base = none ∧ ∃ c e, p.classes[i]? = some c ∧
      c.form = .enumeration e ∧ d.members = e.listed ∧ d.annotations = c.annotations
  | optional _ _ t, d => (d.shape = .nullable ∧ d.inner.same t.token = true) ∨
      (d.shape = .unknown ∧ d.annotations = [])
  | list _ t, d => d.shape = .array ∧ d.inner.same t.token = true ∧ d.annotations = []
  | dict _ t, d => d.shape = .map ∧ d.inner.same t.token = true ∧ d.annotations = []
  | t, d => d.shape = .primitive ∧ d.kind = t.kind? ∧ d.annotations = []

namespace FieldType

variable {p : Program} {ks : Kinds} {a : Token} {t : FieldType} {d d' : Descriptor}

theorem Reads.of_alike (h : t.Reads p d) (halike : d.Alike d') : t.Reads p d' := by
  rw [halike]
  cases t <;> exact h

/-- An ordinary type is a leaf only if it is a builtin one. -/
theorem kindOf?_of_same (hks : ks.LeavesOrdinary) (ha : a.same t.token = true) :
    ks.kindOf? a = t.kind? := by
  have hhost : ks.find? (fun e => e.1.same a) = none := by
    refine List.find?_eq_none.mpr fun e he hsame => ?_
    cases (hks e he t).symm.trans (same_trans hsame ha)
  unfold Kinds.kindOf?
  rw [hhost]
  cases t with
  | integer | text | truth | decimal =>
    rw [Token.eq_of_same_builtin ha]
    rfl
  | enumeration i =>
    rw [Token.eq_of_same_declared ha]
    rfl
  | optional piped nullFirst t =>
    obtain ⟨_, u, v, rfl, -⟩ := same_optional.mp ha
    cases Token.checkKey _ <;> rfl
  | list aliased t =>
    obtain ⟨u, rfl, -⟩ := same_list.mp ha
    cases Token.checkKey _ <;> rfl
  | dict aliased t =>
    obtain ⟨u, rfl, -⟩ := same_dict.mp ha
    cases Token.checkKey _ <;> rfl

/-- A union with null is read as what is inside it; without null it has no structure. -/
theorem optional?_of_same {u v : Token} {piped : Bool} {inner : Option Token} (hu : t.Optionally u)
    (hv : t.Optionally v) (h : p.optional? (.union piped [u, v]) = .ok inner) :
    inner = none ∨ ∃ b, inner = some b ∧ b.same t.token = true := by
  have hsome {b : Token} (hb : b.same t.token = true) : b.isNothing = false :=
    (plain_of_same hb).1
  unfold Program.optional? at h
  dsimp only at h
  rcases hu with hu | rfl <;> rcases hv with hv | rfl
  · rw [List.filter_eq_self.mpr (by simp [hsome hu, hsome hv]), if_pos rfl] at h
    cases h
    exact .inl rfl
  · rw [List.filter_cons_of_pos (by simp [hsome hu]), List.filter_cons_of_neg (by decide)] at h
    cases h
    exact .inr ⟨u, rfl, hu⟩
  · rw [List.filter_cons_of_neg (by decide), List.filter_cons_of_pos (by simp [hsome hv])] at h
    cases h
    exact .inr ⟨v, rfl, hv⟩
  · cases h

/-- **What is read of a token that is the same as an ordinary type.** -/
theorem reads_of_read (hks : ks.LeavesOrdinary) (ht : t.Declared p) (ha : a.same t.token = true)
    (h : p.read ks a = .ok d) : t.Reads p d := by
  unfold Program.read at h
  dsimp only at h
  rw [(plain_of_same ha).2.1, kindOf?_of_same hks ha] at h
  cases t with
  | integer | text | truth | decimal =>
    cases h
    exact ⟨rfl, rfl, rfl⟩
  | enumeration i =>
    obtain ⟨c, e, hc, he, -⟩ := ht
    cases Token.eq_of_same_declared ha
    obtain ⟨inner, hinner, h⟩ := exists_of_bind_eq_ok h
    cases hinner
    have hclass : p.readClass (.declared i) c = .ok d := by
      have hstructure : p.readStructure (.declared i) = .ok d := h
      unfold Program.readStructure at hstructure
      dsimp only at hstructure
      rwa [hc] at hstructure
    unfold Program.readClass at hclass
    rw [he] at hclass
    cases hclass
    exact ⟨rfl, rfl, c, e, hc, he, rfl, rfl⟩
  | optional piped nullFirst t =>
    obtain ⟨piped', u, v, rfl, hu, hv⟩ := same_optional.mp ha
    obtain ⟨inner, hinner, h⟩ := exists_of_bind_eq_ok h
    rcases optional?_of_same hu hv hinner with rfl | ⟨b, rfl, hb⟩
    · cases h
      exact .inr ⟨rfl, rfl⟩
    · cases h
      exact .inl ⟨rfl, hb⟩
  | list aliased t =>
    obtain ⟨u, rfl, hu⟩ := same_list.mp ha
    cases aliased <;> cases h <;> exact ⟨rfl, hu, rfl⟩
  | dict aliased t =>
    obtain ⟨u, rfl, hu⟩ := same_dict.mp ha
    cases aliased <;> cases h <;> exact ⟨rfl, hu, rfl⟩

/-- **What a session describes a token as** that is the same as an ordinary type. -/
theorem reads_of_describe {env : Environment} {s : Session} (hw : s.WellRead env)
    (hks : env.kinds.LeavesOrdinary) (ht : t.Declared env.program) (ha : a.same t.token = true)
    (h : s.Settles (env.describe a) d) : t.Reads env.program d := by
  obtain ⟨-, -, htype, hcrafted⟩ := plain_of_same ha
  obtain ⟨b, d₀, hb, hread, halike⟩ := exists_read_of_describe hw hcrafted htype h
  refine (reads_of_read hks ht ?_ hread).of_alike halike
  rcases hb with rfl | ⟨hsame, -⟩
  · exact ha
  · exact same_trans hsame ha

end FieldType

end Schemata
