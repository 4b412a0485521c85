import Schemata.Proofs.Compiler.References

/-!
# Copies of what is published

A host that publishes a type is given a node, and where that is a reference it may want a copy of
what is stored instead.  A reference says more than a name, though.  A type that is another name for
a type is published as that type, by a reference that carries its own title and description; one
that is another name for such a type carries its own over those, and so on.  `Told` says where the
texts on a reference come from: each is the one that is given nearest to the type that was asked for
(`told_of_derives`).

The copy is looked up by the name on the reference alone.  So it is what the host would have been
given but for these texts (`schemaFor_of_ref`), and it is the same where there are none to lose, or
where they are those that are stored (`Node.withTexts_eq_self_iff`).  Whatever is not a reference is
given as it is.

## Where it fails

A capital that is another name for a city, with a description of its own, is referred to with its
description; the copy is that of any city (`atlas_schemaFor_loses`).
-/

namespace Schemata

/-! ## Titles and descriptions -/

namespace Node

/-- The title that a node carries. -/
def title? : Node → Option Wording
  | leaf k _ | object k _ _ _ | array k _ => k.title
  | ref _ t _ | composition _ t _ | union _ t _ => t

/-- The description that a node carries. -/
def description? : Node → Option Wording
  | leaf k _ | object k _ _ _ | array k _ => k.description
  | ref _ _ d | composition _ _ d | union _ _ d => d

/-- A text over another is that other if it is none, or says the same. -/
theorem orElse_eq_iff {upper lower : Option Wording} :
    (upper <|> lower) = lower ↔ upper = none ∨ upper = lower := by
  cases upper with
  | none => exact ⟨fun _ => .inl rfl, fun _ => rfl⟩
  | some s => exact ⟨.inr, fun h => h.resolve_left nofun⟩

@[simp] theorem title?_withTexts (n : Node) (title description : Option Wording) :
    (n.withTexts title description).title? = (title <|> n.title?) := by
  cases n <;> rfl

@[simp] theorem description?_withTexts (n : Node) (title description : Option Wording) :
    (n.withTexts title description).description? = (description <|> n.description?) := by
  cases n <;> rfl

/-- **Texts change nothing** on a node that says the same already. -/
theorem withTexts_eq_self_iff {n : Node} {title description : Option Wording} :
    n.withTexts title description = n ↔
      (title = none ∨ title = n.title?) ∧ (description = none ∨ description = n.description?) := by
  rw [← orElse_eq_iff, ← orElse_eq_iff]
  constructor
  · intro h
    rw [← title?_withTexts n title description, ← description?_withTexts n title description, h]
    exact ⟨rfl, rfl⟩
  · rintro ⟨ht, hd⟩
    cases n <;> simp only [title?, description?] at ht hd <;>
      simp only [withTexts, mapKeywords, ht, hd]

end Node

/-! ## Where the texts on a reference come from -/

/-- Constraints with a title say it, whatever is below. -/
theorem Constraints.upperText_orElse (upper lower : Option Wording) :
    (upperText upper none <|> lower) = upperText upper lower := by
  cases upper with
  | none => rfl
  | some s =>
    unfold upperText
    dsimp only
    split <;> rfl

section

variable (env : Environment) (S : Session)

/-- **A type is told by a reference**: by its own name, or, if it is another name for a type, by the
reference that the type is told by, with its own title and description over those.  An empty text
is no text. -/
inductive Told : Descriptor → String → Option Wording → Option Wording → Prop
  | itself {d : Descriptor} (hshape : d.shape.isInline = false) : Told d d.name none none
  | renamed {d b : Descriptor} {base : Token} {c : Constraints} {name : String}
      {title description : Option Wording} (hshape : d.shape.isInline = false)
      (hbase : d.base = some base) (hproperties : d.properties = [])
      (hmerge : Constraints.merge d.annotations = .ok c) (harray : c.array = false)
      (hdescribe : S.Settles (env.describe base) b) (h : Told b name title description) :
      Told d name (Constraints.upperText c.title title)
        (Constraints.upperText c.description description)

end

variable {env : Environment} {S : Session} {σ σ' : Scene} {d : Descriptor} {n : Node}

/-- A node that is a reference tells a type. -/
def Node.Tells (n : Node) (env : Environment) (S : Session) (d : Descriptor) : Prop :=
  ∀ name title description, n = .ref name title description → Told env S d name title description

/-- What a judgement makes tells its type, unless it is stored. -/
def Judgement.Tells (env : Environment) (S : Session) : Judgement → Prop
  | .refers d n => n.Tells env S d
  | .builds d r => r.stored = false → r.node.Tells env S d
  | _ => True

theorem Told.refTo (hshape : d.shape.isInline = false) : (Node.refTo d.name).Tells env S d := by
  rintro _ _ _ ⟨⟩
  exact .itself hshape

/-- Another name for a type is told as the type is, with its own texts. -/
theorem Told.apply {b : Descriptor} {base : Token} {c : Constraints}
    (hshape : d.shape.isInline = false) (hbase : d.base = some base)
    (hproperties : d.properties = []) (hmerge : Constraints.merge d.annotations = .ok c)
    (hdescribe : S.Settles (env.describe base) b) (h : n.Tells env S b) :
    (c.apply (if c.array then .array {} n else n)).Tells env S d := by
  intro name title description heq
  obtain ⟨title', description', hn⟩ := Node.exists_ref_of_apply heq
  split at hn
  · cases hn
  next harray =>
    subst hn
    rw [if_neg harray] at heq
    cases heq
    rw [Constraints.upperText_orElse, Constraints.upperText_orElse]
    exact .renamed hshape hbase hproperties hmerge (Bool.eq_false_iff.mpr harray) hdescribe
      (h _ _ _ rfl)

/-- What is not stored is an empty object. -/
theorem tells_of_stores {base : Option Node} {r : Built}
    (h : Derives env S (.stores d base r) σ σ') (hstored : r.stored = false) :
    r.node.Tells env S d := by
  rcases stored_of_stores h with ⟨hs, -⟩ | rfl
  · cases hs.symm.trans hstored
  · rintro _ _ _ ⟨⟩

/-- **What holds a type tells it**, if it is a reference. -/
theorem told_of_derives {J : Judgement} (h : Derives env S J σ σ') : J.Tells env S := by
  induction h with
  | inPlace hinline hbuilds ih => exact ih (not_stored_of_inline hinline hbuilds)
  | known hinline _ _ | awaited hinline _ _ => exact .refTo (settles_isInline_false hinline).1
  | @fresh d r _ _ hinline _ _ _ ih =>
    show (if r.stored then Node.refTo d.name else r.node).Tells env S d
    split
    next => exact .refTo (settles_isInline_false hinline).1
    next hs => exact ih (Bool.eq_false_iff.mpr hs)
  | plain hplain =>
    intro _ name t desc heq
    have hname : Node.Mentions name (.ref name t desc) := .here
    rw [← heq] at hname
    exact absurd hname hplain.not_mentions
  | wrapped hwraps hinner _ ih =>
    intro _
    cases hwraps with
    | nullable _ => exact fun _ _ _ heq => absurd heq Node.makeNullable_ne_ref
    | array _ _ | map _ _ => rintro _ _ _ ⟨⟩
    | renamed hshape hbase _ hmerge hprops =>
      exact Told.apply hshape hbase hprops hmerge hinner ih
  | anyMap | cutArray | composed =>
    intro _
    rintro _ _ _ ⟨⟩
  | root _ _ hstores _ => exact tells_of_stores hstores
  | derived _ _ _ _ hstores _ _ => exact tells_of_stores hstores
  | cut | existing | enum | object | done | rest | property => trivial

/-! ## Copies -/

namespace Compiler

variable {c : Compiler} {s s' : Session} {t : Token}

/-- **A copy is looked up by its name alone.** -/
theorem schemaFor_of_ref {name : String} {title description : Option Wording}
    (h : c.ensure t s = .ok (.ref name title description) s') : ∃ stored,
      s'.registry.get? name = some stored ∧ c.schemaFor t true s = .ok stored s' := by
  obtain ⟨stored, hget⟩ := Option.isSome_iff_exists.mp
    (Registry.isSome_get?_iff.mpr (mem_names_of_ensure h name title description rfl))
  refine ⟨stored, hget, (bind_of_ok h).trans ?_⟩
  exact reference_eq_ok.mpr ⟨stored, hget, rfl, rfl⟩

/-- What is not a reference is given as it is. -/
theorem schemaFor_of_not_ref (h : c.ensure t s = .ok n s')
    (hn : ∀ name title description, n ≠ .ref name title description) :
    c.schemaFor t true s = .ok n s' := by
  refine (bind_of_ok h).trans ?_
  cases n with
  | ref name title description => exact absurd rfl (hn name title description)
  | _ => rfl

/-- **Copies of what is published.**  After any number of calls, let a call publish a type.

If it gives a reference, then the title and the description on it are those that are given nearest
to the type, among the names for the type that is stored.  A copy can be given, and it is the stored
schema as it is.  That is the stored schema with the texts of the reference on it if and only if
each of these texts is none or is stored as well.

If it gives anything else, that is the copy. -/
theorem run_schemaFor_inlined (c : Compiler) (calls : List Call) {t : Token} {n : Node}
    {s' : Session} (h : c.ensure t (c.run calls) = .ok n s') :
    (∀ name title description, n = .ref name title description → ∃ d stored,
        s'.Settles (c.environment.describe t) d ∧
        Told c.environment s' d name title description ∧
        s'.registry.get? name = some stored ∧ c.schemaFor t true (c.run calls) = .ok stored s' ∧
        (stored = stored.withTexts title description ↔
          (title = none ∨ title = stored.title?) ∧
            (description = none ∨ description = stored.description?))) ∧
      ((∀ name title description, n ≠ .ref name title description) →
        c.schemaFor t true (c.run calls) = .ok n s') := by
  refine ⟨?_, schemaFor_of_not_ref h⟩
  rintro name title description rfl
  obtain ⟨stored, hget, hcopy⟩ := schemaFor_of_ref h
  obtain ⟨d, σ, hd, hderives, -⟩ := derives_of_ensure h (.refl s')
  exact ⟨d, stored, hd, told_of_derives hderives _ _ _ rfl, hget, hcopy,
    eq_comm.trans Node.withTexts_eq_self_iff⟩

/-- A compiler that knows of cities and of two other names for them: a town, and a capital, which
has a description of its own. -/
def atlas : Compiler where
  environment :=
    { program :=
        { crafted :=
            [{ name := "City", shape := .object },
             { name := "Town", shape := .object, base := some (.crafted 0) },
             { name := "Capital"
               shape := .object
               base := some (.crafted 1)
               annotations := [⟨"Description", [.text "where the government sits"], []⟩] }] }
      maxDepth := 8
      captureDefaults := false }
  refPrefix := .ok "#/components/schemas/"
  release := "3.1.0"

/-- The copy of a town is a city. -/
theorem atlas_schemaFor_inlined : ∃ stored s',
    atlas.ensure (.crafted 1) (atlas.run []) = .ok (.refTo "City") s' ∧
      s'.registry.get? "City" = some stored ∧
      atlas.schemaFor (.crafted 1) true (atlas.run []) = .ok stored s' ∧
      stored = stored.withTexts none none := by
  obtain ⟨s', h⟩ : ∃ s', atlas.ensure (.crafted 1) (atlas.run []) = .ok (.refTo "City") s' :=
    ⟨_, rfl⟩
  obtain ⟨d, stored, -, -, hget, hcopy, hsame⟩ :=
    (run_schemaFor_inlined atlas [] h).1 "City" none none rfl
  exact ⟨stored, s', h, hget, hcopy, hsame.mpr ⟨.inl rfl, .inl rfl⟩⟩

/-- **A copy loses what the reference says.**  The copy of a capital has no description. -/
theorem atlas_schemaFor_loses : ∃ title description stored s',
    atlas.ensure (.crafted 2) (atlas.run []) = .ok (.ref "City" title description) s' ∧
      s'.registry.get? "City" = some stored ∧
      atlas.schemaFor (.crafted 2) true (atlas.run []) = .ok stored s' ∧
      atlas.render stored ≠ atlas.render (stored.withTexts title description) := by
  refine ⟨_, _, _, _, rfl, rfl, rfl, ?_⟩
  intro h
  cases h

end Compiler

end Schemata
