import Schemata.Proofs.Compiler.Repetition
import Schemata.Proofs.Descriptor.FieldType
import Schemata.Proofs.Schema.Nullability
import Schemata.Proofs.Value.Choice

/-!
# Schemas of literal types

A literal type should have a schema that accepts the values that it lists, and no others.  It is
read as a leaf that is annotated with the list, so that its schema says two things: a type, if all
values are of one kind, and the values to choose from.  The first follows from the second
(`hasType_of_literalKind?`); the second is where values are lost.

* **Null is left out** of the list, since a null among the arguments of an annotation stands for an
  argument that is not given.  A type that lists nothing but null lists nothing then, and its schema
  accepts everything.
* **A truth value and its number are one** when values are compared, so that of the two only the one
  that stands first is kept.

Nothing else is lost, and nothing is gained (`run_literal_accepts`).
-/

namespace Schemata

open Rendered

variable {env : Environment} {xs : List Choice}

/-! ## How literal types are read -/

/-- **Describing a type that can be read.**  It is described as what was read of it, or of a type
that is the same and was read before. -/
theorem Environment.exists_describe {t : Token} {d₀ : Descriptor} {w : Walk}
    (hw : w.session.WellRead env) (hcrafted : ∀ i, t ≠ .crafted i) (htype : t.asType = t)
    (hread : env.program.read env.kinds t = .ok d₀) : ∃ b d₁ d w',
      env.describe t w = .ok d w' ∧ env.program.read env.kinds b = .ok d₁ ∧ d₁.Alike d ∧
        (b = t ∨ ∃ e ∈ w.session.readings, e.1 = b ∧ b.same t = true) := by
  rw [describe_eq env hcrafted, htype]
  split
  · cases hfind : w.session.readings.find? fun e => e.1.same t with
    | some e =>
      have hmem := List.mem_of_find?_eq_some hfind
      obtain ⟨i, hi⟩ := List.mem_iff_getElem?.mp hmem
      obtain ⟨d₁, hread₁, heq⟩ := hw i e.1 e.2 hi
      have hsame : e.1.same t = true := by simpa using List.find?_some hfind
      refine ⟨e.1, d₁, e.2, w, ?_, hread₁, ?_, .inr ⟨e, hmem, rfl, hsame⟩⟩
      · rw [bind_of_ok (Build.asks_eq_ok.mpr ⟨hfind.symm, rfl⟩)]
        rfl
      · rw [heq]
        rfl
    | none =>
      have hfound : Build.asks (fun s => s.readings.find? fun e => e.1.same t) w = .ok none w :=
        Build.asks_eq_ok.mpr ⟨hfind.symm, rfl⟩
      obtain ⟨d, w', hnew, halike⟩ : ∃ d w', env.readNew t w = .ok d w' ∧ d₀.Alike d :=
        ⟨_, _, readNew_eq_ok.mpr ⟨d₀, hread, rfl, rfl⟩, rfl⟩
      refine ⟨t, d₀, d, w', ?_, hread, halike, .inl rfl⟩
      rw [bind_of_ok hfound]
      exact hnew
  · refine ⟨t, d₀, { d₀ with identity := .passing }, w, ?_, hread, rfl, .inl rfl⟩
    rw [bind_of_ok (Build.lift_eq_ok.mpr ⟨hread, rfl⟩)]
    rfl

/-- **What a literal type is read as**: a leaf annotated with its values.  If the leaf has a kind
then all of the values are of this kind. -/
theorem Program.readLiteral_cases (vs : List Value) :
    (readLiteral vs).annotations = [.choices vs] ∧
      (((readLiteral vs).shape = .unknown ∧ (readLiteral vs).kind = none) ∨
        ∃ k, (readLiteral vs).shape = .primitive ∧ (readLiteral vs).kind = some k ∧
          ∀ v ∈ vs, literalKind? v = some k) := by
  refine ⟨rfl, ?_⟩
  unfold readLiteral
  dsimp only
  split
  next k ks hkinds =>
    split
    next hall =>
      cases k with
      | none => exact .inl ⟨rfl, rfl⟩
      | some k =>
        refine .inr ⟨k, rfl, rfl, fun v hv => ?_⟩
        have hmem : literalKind? v ∈ some k :: ks := hkinds ▸ List.mem_map_of_mem hv
        rcases List.mem_cons.mp hmem with heq | hmem
        · exact heq
        · exact eq_of_beq (List.all_eq_true.mp hall _ hmem)
    next => exact .inl ⟨rfl, rfl⟩
  next => exact .inl ⟨rfl, rfl⟩

/-! ## What the annotation amounts to -/

namespace Choice

/-- The values that are left when null is left out. -/
theorem flatMap_asValues (xs : List Choice) : (xs.map toValue).flatMap Value.asValues =
    (xs.filter (· != null)).map toValue := by
  induction xs with
  | nil => rfl
  | cons x xs ih =>
    rw [List.map_cons, List.flatMap_cons, ih]
    cases x <;> rfl

/-- **What a list of values amounts to**: the list without null, and without what counts as an
earlier value. -/
theorem merge_choices (xs : List Choice) : Constraints.merge [.choices (xs.map toValue)] =
    .ok { choices := (unrepeated (xs.filter (· != null))).map toValue } := by
  have htopic : Topic.ofName? "Choices" = some .choices := by decide +kernel
  have hread : [Record.choices (xs.map toValue)].mapM Record.layer? =
      .ok [some { choices := (xs.filter (· != null)).map toValue }] := by
    rw [List.mapM_cons, List.mapM_nil, Record.layer?, Record.choices, htopic]
    show Except.ok [some ({ choices := (xs.map toValue).flatMap Value.asValues } : Constraints)] = _
    rw [flatMap_asValues]
  rw [Constraints.merge_of_layers hread, ← eraseDupsBy_map_toValue]
  · simp [Constraints.summary, Constraints.last, Constraints.lastText, Constraints.lastList,
      Constraints.unrepeated, Constraints.latest, setKeys]
  · simpa using comparable_toValue _

end Choice

/-! ## What a list of values accepts -/

namespace Node

variable {D : Dialect} {refPrefix : String} {v : Value} {t : Option JsonType} {vs : List Value}

/-- What is said of values by nothing but their list. -/
theorem Keywords.ownEntries_choices :
    ({ choices := vs } : Keywords).ownEntries = listEntry "enum" vs := by
  have hnone (key : String) : listEntry key [] = [] := rfl
  unfold Keywords.ownEntries
  simp only [textEntry, numberEntry, countEntry, flagEntry, optionalEntry, Option.map_none,
    List.map_nil, List.nil_append, List.append_nil, Bool.false_eq_true, if_false, hnone]

/-- **A leaf that lists values** accepts what has its type and equals one of them; with no values on
the list, what has its type. -/
theorem accepts_leaf_choices : D.Accepts ((leaf { choices := vs } t).render refPrefix) v ↔
    (∀ j ∈ t, v.HasType j) ∧ (vs = [] ∨ ∃ x ∈ vs, x.Equals v) := by
  have hentries : (leaf { choices := vs } t).entries refPrefix =
      Keywords.typeEntry {} t ++ listEntry "enum" vs := by
    rw [← Keywords.ownEntries_choices]
    rfl
  have htype (siblings : List Entry) : (∀ e ∈ Keywords.typeEntry {} t,
      D.Meets siblings (D.keywordOf e) v) ↔ ∀ j ∈ t, v.HasType j := by
    cases t with
    | none => simp [Keywords.typeEntry]
    | some j =>
      have hmeets : D.Meets siblings (D.keywordOf ((("type" : String) : Wording), .text j.word)) v ↔
          v.HasType j := Value.typeTakes_word
      simpa [Keywords.typeEntry, entry] using hmeets
  have henum (siblings : List Entry) : (∀ e ∈ listEntry "enum" vs,
      D.Meets siblings (D.keywordOf e) v) ↔ vs = [] ∨ ∃ x ∈ vs, x.Equals v := by
    have hmeets : D.Meets siblings (D.keywordOf ((("enum" : String) : Wording), .list vs)) v ↔
        ∃ x ∈ vs, x.Equals v := by
      show (∀ xs, Value.list vs = .list xs → ∃ x ∈ xs, x.Equals v) ↔ _
      simp
    by_cases hvs : vs = []
    · simp [mem_listEntry, hvs]
    · simpa [mem_listEntry, hvs] using hmeets
  rw [render, Dialect.accepts_toValue, hentries, List.forall_mem_append, htype, henum]

end Node

namespace Choice

variable {D : Dialect} {refPrefix : String} {v : Value} {k : Kind} {x y : Choice}

/-- What equals a choice has the type of the kind of the choice. -/
theorem hasType_of_literalKind? (hx : Program.literalKind? x.toValue = some k)
    (hv : x.toValue.Equals v) : ∀ j ∈ k.jsonType, v.HasType j := by
  rw [equals_iff] at hv
  intro j hj
  cases x with
  | null => cases hx
  | bool b =>
    cases hx
    cases hj
    exact ⟨b, hv⟩
  | int n =>
    cases hx
    cases hj
    exact ⟨n, hv⟩
  | text s =>
    cases hx
    cases hj
    show v.text?.isSome
    rw [hv]
    rfl

/-- The schema of the kind of a choice says no more than its type. -/
theorem schema_of_literalKind? (hx : Program.literalKind? x.toValue = some k) :
    k.schema = .leaf {} k.jsonType := by
  cases x <;> cases hx <;> rfl

/-- The values that are kept of those that a literal type lists. -/
def kept (xs : List Choice) : List Choice :=
  unrepeated (xs.filter (· != null))

/-- **What is kept of some values**: not null, and one of those that count as the same. -/
structure Keeps (xs ks : List Choice) : Prop where
  subset : ∀ x ∈ ks, x ∈ xs ∧ x ≠ null
  exists_counted : ∀ x ∈ xs, x ≠ null → ∃ y ∈ ks, y.counted = x.counted
  unique : ∀ x ∈ ks, ∀ y ∈ ks, x.counted = y.counted → x = y

theorem keeps_kept (xs : List Choice) : Keeps xs (kept xs) where
  subset x hx := by simpa using unrepeated_subset hx
  exists_counted x hx hne := exists_of_mem_unrepeated (by simp [hx, hne])
  unique _ hx _ hy := eq_of_mem_unrepeated hx hy

theorem Keeps.eq_nil_iff {ks : List Choice} (h : Keeps xs ks) : ks = [] ↔ ∀ x ∈ xs, x = null := by
  constructor
  · rintro rfl x hx
    by_contra hne
    obtain ⟨y, hy, -⟩ := h.exists_counted x hx hne
    cases hy
  · exact fun hnull => List.eq_nil_iff_forall_not_mem.mpr fun x hx =>
      (h.subset x hx).2 (hnull x (h.subset x hx).1)

/-- **What the schema of a literal type accepts**: what equals one of the values that are kept, and
everything if none is. -/
theorem accepts_leaf {kind : Option Kind} (hxs : xs ≠ [])
    (hkind : ∀ k ∈ kind, ∀ x ∈ xs, Program.literalKind? x.toValue = some k) :
    D.Accepts ((Node.leaf { choices := (kept xs).map toValue }
      (kind.bind Kind.jsonType)).render refPrefix) v ↔
        kept xs = [] ∨ ∃ x ∈ kept xs, x.toValue.Equals v := by
  rw [Node.accepts_leaf_choices, List.map_eq_nil_iff]
  simp only [List.mem_map, exists_exists_and_eq_and]
  refine and_iff_right_of_imp fun h j hj => ?_
  obtain ⟨k, hk, hj⟩ := Option.bind_eq_some_iff.mp hj
  rcases h with hnone | ⟨x, hx, hv⟩
  · -- a leaf with a kind lists a value that is not null
    obtain ⟨x, hx⟩ := List.exists_mem_of_ne_nil _ hxs
    have hnull := (keeps_kept xs).eq_nil_iff.mp hnone x hx
    have := hkind k hk x hx
    rw [hnull] at this
    cases this
  · exact hasType_of_literalKind? (hkind k hk x ((keeps_kept xs).subset x hx).1) hv j hj

/-- **A schema that accepts what equals one of the values that are kept**, and everything if none
is, accepts exactly the values of the list if and only if null is not among them and no two of them
count as the same. -/
theorem Keeps.accepts_iff {ks : List Choice} (h : Keeps xs ks) (hxs : xs ≠ []) {A : Value → Prop}
    (hA : ∀ v, A v ↔ ks = [] ∨ ∃ x ∈ ks, x.toValue.Equals v) :
    ((∀ v, A v ↔ ∃ x ∈ xs, x.toValue.Equals v) ↔
        null ∉ xs ∧ ∀ x ∈ xs, ∀ y ∈ xs, x.counted = y.counted → x = y) ∧
      (∀ v, A v ↔ (∀ x ∈ xs, x = null) ∨
        ∃ x ∈ xs, x ≠ null ∧ A x.toValue ∧ x.toValue.Equals v) ∧
      ∀ x ∈ xs, x ≠ null → ∃! y, y ∈ xs ∧ y.counted = x.counted ∧ A y.toValue := by
  have hchoice {x : Choice} : A x.toValue ↔ ks = [] ∨ x ∈ ks := by
    rw [hA]
    simp [equals_toValue]
  have hmem {x y : Choice} (hx : x ∈ xs) (hne : x ≠ null) (hy : A y.toValue) : y ∈ ks :=
    (hchoice.mp hy).resolve_left fun hnil => hne (h.eq_nil_iff.mp hnil x hx)
  refine ⟨⟨fun hexact => ?_, fun hunlost v => ?_⟩, fun v => ⟨fun hv => ?_, ?_⟩,
    fun x hx hne => ?_⟩
  · have hlisted {x : Choice} (hx : x ∈ xs) : A x.toValue :=
      (hexact _).mpr ⟨x, hx, equals_toValue.mpr rfl⟩
    have hnull : null ∉ xs := by
      intro hmem
      rcases hchoice.mp (hlisted hmem) with hnil | hkept
      · -- with nothing on the list, the schema accepts a truth value
        obtain ⟨x, hx, htrue⟩ := (hexact (bool true).toValue).mp (hchoice.mpr (.inl hnil))
        rw [equals_toValue, h.eq_nil_iff.mp hnil x hx] at htrue
        cases htrue
      · exact (h.subset null hkept).2 rfl
    refine ⟨hnull, fun x hx y hy => ?_⟩
    have hne : x ≠ null := ne_of_mem_of_not_mem hx hnull
    exact h.unique x (hmem hx hne (hlisted hx)) y (hmem hx hne (hlisted hy))
  · obtain ⟨hnull, hcounted⟩ := hunlost
    have hnil : ks ≠ [] := by
      intro hnil
      obtain ⟨x, hx⟩ := List.exists_mem_of_ne_nil _ hxs
      exact hnull (h.eq_nil_iff.mp hnil x hx ▸ hx)
    rw [hA, or_iff_right hnil]
    constructor
    · rintro ⟨x, hx, hv⟩
      exact ⟨x, (h.subset x hx).1, hv⟩
    · rintro ⟨x, hx, hv⟩
      obtain ⟨y, hy, hxy⟩ := h.exists_counted x hx (ne_of_mem_of_not_mem hx hnull)
      obtain rfl := hcounted y (h.subset y hy).1 x hx hxy
      exact ⟨y, hy, hv⟩
  · rcases (hA v).mp hv with hnil | ⟨x, hx, hv⟩
    · exact .inl (h.eq_nil_iff.mp hnil)
    · obtain ⟨hmem, hne⟩ := h.subset x hx
      exact .inr ⟨x, hmem, hne, hchoice.mpr (.inr hx), hv⟩
  · rintro (hnull | ⟨x, hx, hne, hx', hv⟩)
    · exact (hA v).mpr (.inl (h.eq_nil_iff.mpr hnull))
    · exact (hA v).mpr (.inr ⟨x, hmem hx hne hx', hv⟩)
  · obtain ⟨y, hy, hyx⟩ := h.exists_counted x hx hne
    refine ⟨y, ⟨(h.subset y hy).1, hyx, hchoice.mpr (.inr hy)⟩, ?_⟩
    rintro z ⟨-, hzx, hz⟩
    exact h.unique z (hmem hx hne hz) y hy (hzx.trans hyx.symm)

end Choice

/-! ## Publishing literal types -/

namespace Compiler

variable {c : Compiler} {s s₁ : Session} {t : Token} {d : Descriptor} {n : Node}

/-- **A leaf that is published in place.** -/
theorem exists_ensure_of_plain (htidy : s.Tidy c.environment) (hdepth : 0 < c.environment.maxDepth)
    (hd : c.describe t s = .ok d s₁) (hinline : d.shape.isInline = true)
    (hplain : Plain c.environment s₁ d n) : ∃ s', c.ensure t s = .ok n s' := by
  have htidy₁ := htidy.of_learns ((learns_describe c t).ok hd)
  have hbelow : s₁.Below (Registry.within Registry.open_ s₁) := .refl s₁
  have hbuild (m : Nat) : c.environment.build (m + 1) d ⟨Registry.within Registry.open_ s₁, []⟩ =
      .ok ⟨n, false⟩ ⟨Registry.within Registry.open_ s₁, []⟩ := by
    refine Environment.build_succ ?_ (Environment.buildShape_of_plain hbelow hplain
      (fun hnamed => ?_) fun hnamed => ?_)
    · show s₁.depth < _
      rw [htidy₁.depth]
      exact hdepth
    · rw [hinline] at hnamed
      cases hnamed
    · rw [hinline] at hnamed
      cases hnamed
  refine ⟨_, ensure_eq_ok.mpr ⟨d, s₁, ⟨Registry.within Registry.open_ s₁, []⟩, hd, ?_, rfl⟩⟩
  refine Environment.refer_of_inline (r := ⟨n, false⟩) hbelow (fun w _ => ?_) (hbuild _)
  exact Environment.isInline_eq_ok.mpr (.inl ⟨hinline, rfl, rfl⟩)

/-- **The node of a literal type**, in whatever order its values were read. -/
theorem exists_ensure_literal {xs : List Choice} (hxs : xs ≠ []) (htidy : s.Tidy c.environment)
    (hdepth : 0 < c.environment.maxDepth) (hd : c.describe t s = .ok d s₁)
    (halike : (Program.readLiteral (xs.map Choice.toValue)).Alike d) :
    ∃ (kind : Option Kind) (s' : Session),
      (∀ k ∈ kind, ∀ x ∈ xs, Program.literalKind? x.toValue = some k) ∧
        c.ensure t s = .ok (.leaf { choices := (Choice.kept xs).map Choice.toValue }
          (kind.bind Kind.jsonType)) s' := by
  have hchoices (vs : List Value) (t : Option JsonType) :
      ({ choices := vs } : Constraints).apply (.leaf {} t) = .leaf { choices := vs } t := by
    cases vs <;> rfl
  obtain ⟨hannotations, hshape⟩ := Program.readLiteral_cases (xs.map Choice.toValue)
  have hmerge : Constraints.merge d.annotations =
      .ok { choices := (Choice.kept xs).map Choice.toValue } := by
    rw [halike]
    exact Choice.merge_choices xs
  rcases hshape with ⟨hshape, hkind⟩ | ⟨k, hshape, hkind, hall⟩
  · have hunknown : d.shape = .unknown := by
      rw [halike]
      exact hshape
    obtain ⟨s', h⟩ := exists_ensure_of_plain htidy hdepth hd (by rw [hunknown]; rfl)
      (.unknown hunknown hmerge)
    exact ⟨none, s', nofun, by rw [h, Node.untyped, hchoices]; rfl⟩
  · have hprimitive : d.shape = .primitive := by
      rw [halike]
      exact hshape
    have hk : d.kind = some k := by
      rw [halike]
      exact hkind
    have hkinds : ∀ x ∈ xs, Program.literalKind? x.toValue = some k :=
      List.forall_mem_map.mp hall
    obtain ⟨s', h⟩ := exists_ensure_of_plain htidy hdepth hd (by rw [hprimitive]; rfl)
      (.primitive hprimitive hmerge)
    refine ⟨some k, s', fun _ hk => Option.mem_some_iff.mp hk ▸ hkinds, ?_⟩
    obtain ⟨x, hx⟩ := List.exists_mem_of_ne_nil _ hxs
    rw [h, hk, Option.getD_some, Choice.schema_of_literalKind? (hkinds x hx), hchoices]
    rfl

/-- **What the schema of a literal type accepts.**  Let a host work with a compiler for which no
literal type is a leaf of its own accord, and let it publish the type that lists some values, after
any number of calls.  If every type that was read before and is the same lists the same values, in
any order, then there is a schema, and in every dialect:

* It accepts exactly the values of the list if and only if null is not among them and no truth value
  is there beside its number.
* What it accepts equals a value of the list that it accepts and that is not null, unless nothing
  but null is listed; it then accepts everything.
* Of the values that count as one of the list which is not null, it accepts exactly one. -/
theorem run_literal_accepts (c : Compiler)
    (hkinds : ∀ vs, c.environment.kinds.kindOf? (.literal vs) = none)
    (hdepth : 0 < c.environment.maxDepth) (calls : List Call) {xs : List Choice} (hxs : xs ≠ [])
    (hread : ∀ e ∈ (c.run calls).readings, e.1.same (Choice.literal xs) = true →
      ∃ ys, e.1 = Choice.literal ys ∧ ∀ x, x ∈ ys ↔ x ∈ xs) :
    ∃ n s', c.ensure (Choice.literal xs) (c.run calls) = .ok n s' ∧ ∀ D : Dialect,
      ((∀ v, D.Accepts (c.render n) v ↔ ∃ x ∈ xs, x.toValue.Equals v) ↔
        .null ∉ xs ∧ ∀ x ∈ xs, ∀ y ∈ xs, x.counted = y.counted → x = y) ∧
      (∀ v, D.Accepts (c.render n) v ↔ (∀ x ∈ xs, x = .null) ∨
        ∃ x ∈ xs, x ≠ .null ∧ D.Accepts (c.render n) x.toValue ∧ x.toValue.Equals v) ∧
      ∀ x ∈ xs, x ≠ .null →
        ∃! y, y ∈ xs ∧ y.counted = x.counted ∧ D.Accepts (c.render n) y.toValue := by
  have htidy := tidy_run c calls
  obtain ⟨b, d₀, d, w, hdescribe, hb, halike, hsame⟩ := Environment.exists_describe
    (t := Choice.literal xs) (w := ⟨c.run calls, []⟩) htidy.wellRead (fun _ => nofun) rfl
    (Program.read_literal (hkinds (xs.map Choice.toValue)))
  obtain ⟨ys, rfl, hys⟩ : ∃ ys, b = Choice.literal ys ∧ ∀ x, x ∈ ys ↔ x ∈ xs := by
    rcases hsame with rfl | ⟨e, he, rfl, hsame⟩
    · exact ⟨xs, rfl, fun _ => Iff.rfl⟩
    · exact hread e he hsame
  cases (Program.read_literal (hkinds (ys.map Choice.toValue))).symm.trans hb
  have hne : ys ≠ [] := by
    obtain ⟨x, hx⟩ := List.exists_mem_of_ne_nil _ hxs
    exact List.ne_nil_of_mem ((hys x).mpr hx)
  have hd : c.describe (Choice.literal xs) (c.run calls) = .ok d w.session :=
    Session.run_eq_ok.mpr ⟨w, hdescribe, rfl⟩
  obtain ⟨kind, s', hkind, hensure⟩ := exists_ensure_literal hne htidy hdepth hd halike
  have hkeeps : Choice.Keeps xs (Choice.kept ys) := by
    obtain ⟨hsubset, hexists, hunique⟩ := Choice.keeps_kept ys
    simp only [hys] at hsubset hexists
    exact ⟨hsubset, hexists, hunique⟩
  exact ⟨_, s', hensure, fun D => hkeeps.accepts_iff hxs fun v => Choice.accepts_leaf hne hkind⟩

/-- A compiler that knows of no declarations. -/
def bare : Compiler where
  environment := { program := {}, maxDepth := 8, captureDefaults := false }
  refPrefix := .ok "#/components/schemas/"
  release := "3.1.0"

/-- A stage has a name, a number or a truth value for it, which are listed in one order first and in
another order then. -/
theorem bare_literal_accepts : ∃ n s',
    bare.ensure (Choice.literal [.text "low", .int 3, .bool false])
      (bare.run [.ensure (Choice.literal [.bool false, .text "low", .int 3])]) = .ok n s' ∧
    ∀ D : Dialect, ∀ v, D.Accepts (bare.render n) v ↔
      ∃ x ∈ [Choice.text "low", .int 3, .bool false], x.toValue.Equals v := by
  have hkinds (vs : List Value) : bare.environment.kinds.kindOf? (.literal vs) = none := by
    unfold Kinds.kindOf?
    cases Token.checkKey _ <;> rfl
  have hread : ∀ e ∈
      (bare.run [.ensure (Choice.literal [.bool false, .text "low", .int 3])]).readings,
        e.1 = Choice.literal [.bool false, .text "low", .int 3] := by
    intro e he
    cases List.mem_singleton.mp he
    rfl
  have hmembers (x : Choice) : x ∈ [Choice.bool false, .text "low", .int 3] ↔
      x ∈ [Choice.text "low", .int 3, .bool false] := by
    simp only [List.mem_cons, List.not_mem_nil, or_false]
    tauto
  obtain ⟨n, s', h, haccepts⟩ := run_literal_accepts bare hkinds (by decide) _
    (List.cons_ne_nil (.text "low") _) fun e he _ => ⟨_, hread e he, hmembers⟩
  exact ⟨n, s', h, fun D => (haccepts D).1.mpr (by decide)⟩

/-- **Values are lost, and values are gained.**  A text or null: null is refused.  A number or the
truth value that it stands for: the truth value is refused.  Nothing but null: a number is
accepted. -/
theorem bare_literal_refuses : ∃ n₁ s₁ n₂ s₂ n₃ s₃,
    bare.ensure (Choice.literal [.text "a", .null]) (bare.run []) = .ok n₁ s₁ ∧
    bare.ensure (Choice.literal [.int 1, .bool true]) s₁ = .ok n₂ s₂ ∧
    bare.ensure (Choice.literal [.null]) s₂ = .ok n₃ s₃ ∧
    ∀ D : Dialect, ¬ D.Accepts (bare.render n₁) .null ∧ ¬ D.Accepts (bare.render n₂) (.bool true) ∧
      D.Accepts (bare.render n₃) (.int 5) := by
  refine ⟨.leaf { choices := [.text "a"] } none, _, .leaf { choices := [.int 1] } none, _,
    .leaf { choices := [] } none, _, rfl, rfl, rfl, fun D => ⟨?_, ?_, ?_⟩⟩
  · unfold render
    rw [Node.accepts_leaf_choices]
    simp [Keywords.equals_null]
  · unfold render
    rw [Node.accepts_leaf_choices]
    simp [Value.Equals, Value.text?, Value.rational?, Value.core]
  · unfold render
    rw [Node.accepts_leaf_choices]
    refine ⟨fun t ht => ?_, .inl rfl⟩
    cases ht

end Compiler

end Schemata
