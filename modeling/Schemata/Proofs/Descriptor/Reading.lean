import Schemata.Proofs.Synthesis.Graph

/-!
# Keys of types that are read

A type that may be published by name and is read off the program has the declaration that it was
read from for its source: a builtin class, a brand or a declared class.  What is read depends on
nothing but that declaration, so that types read off the program have distinct keys whatever the
program is.  Only descriptors made by hand can share a key, by naming the same source.

Properties are read of declared classes only (`class_of_read`), and annotations of these and of
literal types (`annotations_of_read`).  All this comes from one look at what a type may be read as
(`read_cases`).
-/

namespace Schemata

variable {p : Program} {ks : Kinds} {t t' : Token} {d d' : Descriptor}

/-- A token that stands for a declaration. -/
def Token.isDeclaration : Token → Bool
  | .builtin _ | .brand _ | .declared _ => true
  | _ => false

/-- Declarations that are the same are one. -/
theorem Token.eq_of_same (ht : t.isDeclaration = true) (h : t.same t' = true) : t = t' := by
  unfold Token.same at h
  cases t with
  | builtin b | brand i | declared i =>
    cases t' with
    | builtin _ | brand _ | declared _ =>
      first
        | cases h
        | rw [eq_of_beq h]
    | _ => cases h
  | _ => cases ht

/-- What is the same as a declaration is that declaration. -/
theorem Token.eq_of_same_declaration (ht : t'.isDeclaration = true) (h : t.same t' = true) :
    t = t' := by
  refine Token.eq_of_same ?_ h
  cases t' with
  | builtin _ | brand _ | declared _ =>
    cases t with
    | builtin _ | brand _ | declared _ => rfl
    | _ => cases h
  | _ => cases ht

/-- A sequence that succeeds has parts that succeed. -/
theorem exists_of_bind_eq_ok {ε α β : Type} {x : Except ε α} {f : α → Except ε β} {b : β}
    (h : x >>= f = .ok b) : ∃ a, x = .ok a ∧ f a = .ok b := by
  cases x with
  | ok a => exact ⟨a, rfl, h⟩
  | error e => cases h

/-- What is among the results of a list of computations is the result of one of them. -/
theorem exists_of_mem_mapM {ε α β : Type} {f : α → Except ε β} {as : List α} {bs : List β} {b : β}
    (h : as.mapM f = .ok bs) (hb : b ∈ bs) : ∃ a ∈ as, f a = .ok b := by
  induction as generalizing bs with
  | nil =>
    cases h
    cases hb
  | cons a as ih =>
    rw [List.mapM_cons] at h
    obtain ⟨b₁, h₁, h⟩ := exists_of_bind_eq_ok h
    obtain ⟨bs', h', h⟩ := exists_of_bind_eq_ok h
    cases h
    rcases List.mem_cons.mp hb with rfl | hb
    · exact ⟨a, List.mem_cons_self, h₁⟩
    · obtain ⟨a', ha', hb'⟩ := ih h' hb
      exact ⟨a', List.mem_cons_of_mem _ ha', hb'⟩

namespace Program

theorem source_of_readClass {c : Class} (h : p.readClass t c = .ok d) : d.source = some t := by
  unfold readClass at h
  dsimp only at h
  split at h
  · cases h
    rfl
  all_goals
    obtain ⟨qs, -, hd⟩ := exists_of_bind_eq_ok h
    cases hd
    rfl

theorem annotations_of_readClass {c : Class} (h : p.readClass t c = .ok d) :
    d.annotations = c.annotations := by
  unfold readClass at h
  dsimp only at h
  split at h
  · cases h
    rfl
  all_goals
    obtain ⟨qs, -, hd⟩ := exists_of_bind_eq_ok h
    cases hd
    rfl

/-- What a type is does not depend on its metadata. -/
theorem read_congr (h : t.bare = t'.bare) : p.read ks t = p.read ks t' := by
  unfold read
  rw [h]

theorem read_literal {vs : List Value} (h : ks.kindOf? (.literal vs) = none) :
    p.read ks (.literal vs) = .ok (readLiteral vs) := by
  unfold read
  dsimp only
  rw [show ks.kindOf? (Token.literal vs).bare = none from h]
  rfl

/-- What a type looks like that is read and is no declared class: it has no properties, and no
annotations unless it is a literal type, and it is published in place, or it is a declaration, which
it has for its source. -/
structure Unclassed (t : Token) (d : Descriptor) : Prop where
  properties : d.properties = []
  named : d.shape.isInline = false → d.source = some t ∧ t.isDeclaration = true
  annotations : d.annotations = [] ∨ ∃ vs, d = readLiteral vs

theorem unclassed_of_inline (hproperties : d.properties = []) (hshape : d.shape.isInline = true)
    (hannotations : d.annotations = []) : Unclassed t d :=
  ⟨hproperties, fun hnamed => absurd (hshape.symm.trans hnamed) Bool.noConfusion,
    .inl hannotations⟩

theorem unclassed_readLiteral (vs : List Value) : Unclassed t (readLiteral vs) := by
  have hshape : (readLiteral vs).shape.isInline = true := by
    unfold readLiteral
    dsimp only
    generalize Option.isSome _ = oneKind
    cases oneKind <;> rfl
  exact ⟨rfl, fun hnamed => absurd (hshape.symm.trans hnamed) Bool.noConfusion, .inr ⟨vs, rfl⟩⟩

theorem unclassed_readItems {origin : Builtin} {args : List Token}
    (h : p.readItems t origin args = .ok d) : Unclassed t d := by
  obtain ⟨item, -, hd⟩ := exists_of_bind_eq_ok h
  cases hd
  exact unclassed_of_inline rfl rfl rfl

/-- A type that has structure is a declared class, or it has no properties. -/
theorem readStructure_cases (h : p.readStructure t = .ok d) : Unclassed t d ∨
    ∃ i c, t = .declared i ∧ p.classes[i]? = some c ∧ p.readClass t c = .ok d := by
  unfold readStructure at h
  split at h
  next vs =>
    cases h
    exact .inl (unclassed_readLiteral vs)
  next b args =>
    split at h
    · cases h
      exact .inl (unclassed_of_inline rfl rfl rfl)
    · exact .inl (unclassed_readItems h)
    · obtain ⟨_, -, hd⟩ := exists_of_bind_eq_ok h
      cases hd
      exact .inl (unclassed_of_inline rfl rfl rfl)
  next b =>
    split at h
    · split at h
      · cases h
        exact .inl (unclassed_of_inline rfl rfl rfl)
      · exact .inl (unclassed_readItems h)
    · cases h
      exact .inl (unclassed_of_inline rfl rfl rfl)
    · exact .inl (unclassed_readItems h)
    · split at h
      · cases h
        exact .inl ⟨rfl, fun _ => ⟨rfl, rfl⟩, .inl rfl⟩
      · cases h
        exact .inl (unclassed_of_inline rfl rfl rfl)
  next i =>
    split at h
    · cases h
      exact .inl (unclassed_of_inline rfl rfl rfl)
    · cases h
      exact .inl ⟨rfl, fun _ => ⟨rfl, rfl⟩, .inl rfl⟩
    · cases h
      exact .inl (unclassed_of_inline rfl rfl rfl)
  next i =>
    split at h
    next c hc => exact .inr ⟨i, c, rfl, hc, h⟩
    next =>
      cases h
      exact .inl (unclassed_of_inline rfl rfl rfl)
  next =>
    obtain ⟨_, -, hd⟩ := exists_of_bind_eq_ok h
    cases hd
    exact .inl (unclassed_of_inline rfl rfl rfl)

/-- **A type that is read is a declared class, or it has no properties.** -/
theorem read_cases (h : p.read ks t = .ok d) : Unclassed t.bare d ∨
    ∃ i c, t.bare = .declared i ∧ p.classes[i]? = some c ∧ p.readClass t.bare c = .ok d := by
  unfold read at h
  dsimp only at h
  split at h
  · cases h
    exact .inl (unclassed_of_inline rfl rfl rfl)
  · obtain ⟨inner?, -, h⟩ := exists_of_bind_eq_ok h
    split at h
    · cases h
      exact .inl (unclassed_of_inline rfl rfl rfl)
    · split at h
      · cases h
        exact .inl (unclassed_of_inline rfl rfl rfl)
      · exact readStructure_cases h

/-- **A type that has annotations** is a literal type or a declared class, if it is read off a
program. -/
theorem annotations_of_read (h : p.read ks t = .ok d) : d.annotations = [] ∨
    (∃ vs, d = readLiteral vs) ∨ ∃ c ∈ p.classes, d.annotations = c.annotations := by
  rcases read_cases h with hnone | ⟨i, c, -, hc, hclass⟩
  · exact hnone.annotations.imp_right .inl
  · exact .inr (.inr ⟨c, List.mem_of_getElem? hc, annotations_of_readClass hclass⟩)

/-- **A type that is read and may be published by name** has its declaration for its source. -/
theorem source_of_read (h : p.read ks t = .ok d) (hshape : d.shape.isInline = false) :
    d.source = some t.bare ∧ t.bare.isDeclaration = true := by
  rcases read_cases h with hnone | ⟨i, c, hi, -, hclass⟩
  · exact hnone.named hshape
  · refine ⟨source_of_readClass hclass, ?_⟩
    rw [hi]
    rfl

/-- **A type that has properties is a declared class**, if it is read off a program. -/
theorem class_of_read {q : Property} (h : p.read ks t = .ok d) (hq : q ∈ d.properties) :
    ∃ i c, t.bare = .declared i ∧ p.classes[i]? = some c ∧ p.readClass t.bare c = .ok d := by
  rcases read_cases h with hnone | hclass
  · rw [hnone.properties] at hq
    cases hq
  · exact hclass

end Program

/-- A declaration is the same as itself. -/
theorem Token.same_of_isDeclaration (h : t.isDeclaration = true) : t.same t = true := by
  cases t with
  | builtin b | brand i | declared i => exact beq_self_eq_true _
  | _ => cases h

/-- **A described type that may be published by name has a key that is the same as itself.** -/
theorem same_of_describes {env : Environment} {s : Session} (hw : s.WellRead env)
    (hd : ∃ t, s.Settles (env.describe t) d) (hshape : d.shape.isInline = false) :
    d.key.same d.key = true := by
  obtain ⟨t, ht⟩ := hd
  have hholder (h : d.identity.same d.identity = true) : d.key.same d.key = true := by
    unfold Key.same Descriptor.key
    cases d.source with
    | none => exact h
    | some u => exact Bool.or_eq_true _ _ ▸ .inr h
  rcases describe_cases ht with ⟨i, -, hi⟩ | ⟨t', hmem⟩ | ⟨t', d₀, hread, halike, -⟩
  · refine hholder ?_
    rw [hi]
    exact beq_self_eq_true (Identity.crafted i)
  · obtain ⟨i, hi⟩ := List.mem_iff_getElem?.mp hmem
    obtain ⟨d₀, -, rfl⟩ := hw i t' d hi
    exact hholder (beq_self_eq_true (Identity.kept i))
  · have hshape₀ : d₀.shape.isInline = false := by
      rw [halike] at hshape
      exact hshape
    obtain ⟨hsource, hdeclared⟩ := Program.source_of_read hread hshape₀
    have hsource' : d.source = some t'.bare := by
      rw [halike]
      exact hsource
    unfold Key.same Descriptor.key
    rw [hsource']
    exact Bool.or_eq_true _ _ ▸ .inl (Token.same_of_isDeclaration hdeclared)

/-- **Types read off a program have distinct keys**, and so have all types of an environment
where no descriptor made by hand has a source. -/
theorem Environment.keysDistinct_of_unsourced {env : Environment}
    (h : ∀ d ∈ env.program.crafted, d.source = none) : env.KeysDistinct := by
  intro d d' t t' hd hd' hshape hshape' hsource hsource' hsame
  rcases hd with hd | ⟨u, hu⟩
  · cases hsource.symm.trans (h d hd)
  rcases hd' with hd' | ⟨u', hu'⟩
  · cases hsource'.symm.trans (h d' hd')
  obtain ⟨hbare, hdeclared⟩ := Program.source_of_read hu hshape
  obtain ⟨hbare', -⟩ := Program.source_of_read hu' hshape'
  have ht : t = u.bare := Option.some.inj (hsource.symm.trans hbare)
  have ht' : t' = u'.bare := Option.some.inj (hsource'.symm.trans hbare')
  have heq : t = t' := Token.eq_of_same (ht ▸ hdeclared) hsame
  have hread : env.program.read env.kinds u = env.program.read env.kinds u' :=
    Program.read_congr (ht.symm.trans (heq.trans ht'))
  rw [hread, hu'] at hu
  cases hu
  exact .refl d

end Schemata
