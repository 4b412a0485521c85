import Schemata.Proofs.Descriptor.FieldType
import Schemata.Proofs.Schema.Acceptance
import Schemata.Proofs.Synthesis.Provenance
import Schemata.Proofs.Value.WireForm

/-!
# Schemas of the ordinary types of fields

What holds an ordinary type accepts the wire forms of the values of the type: `Node.Serves` says so
of a node, and `serves_of_refers` that whatever a synthesis puts in the place of an ordinary type
serves it.  The type is taken apart together with the schema: a list is held by an array whose items
serve the type of its elements, a mapping by an object, a union with null by a node that was made
nullable, and an enumeration by a reference, which leads to the entry of the enumeration because no
other type may claim its name.

Making a node nullable is not quite innocent.  A node that lists its values would not accept null
for being flagged.  The nodes in question list nothing; the entries of enumerations do, but those
are referred to, and a reference is put inside a union.  So it is carried along that null is
accepted once the node has been made nullable.

A property then accepts the wire form of its default, and has for its default the published form of
the value that its type holds (`Origin.accepts`).
-/

namespace Schemata

open Environment (mapInner)

/-! ## Defaults of nodes -/

namespace Node

/-- The default of a node. -/
def default? (n : Node) : Option Value :=
  n.keywords?.bind Keywords.default

variable {n : Node} {c : Constraints}

@[simp] theorem default?_makeNullable : n.makeNullable.default? = n.default? := by
  cases n with
  | leaf k t =>
    cases t with
    | none => rfl
    | some j => cases j <;> rfl
  | union ns t d =>
    unfold makeNullable
    dsimp only
    split <;> rfl
  | object | array | ref | composition => rfl

theorem default?_apply (hc : c.default = none) : (c.apply n).default? = n.default? := by
  have hdefault (k : Keywords) : (c.default <|> k.default) = k.default := by
    rw [hc]
    rfl
  cases n with
  | leaf k t => exact hdefault k
  | object k => exact hdefault k
  | array k => exact hdefault k
  | ref | composition | union => rfl

theorem default?_laidOn (hc : c.default = none) : (c.laidOn n).default? = n.default? := by
  unfold Constraints.laidOn
  rw [default?_apply hc]
  split
  · exact default?_makeNullable
  · rfl

theorem wantsDefault_iff :
    n.wantsDefault = true ↔ n.keywords?.isSome = true ∧ n.default? = none := by
  unfold wantsDefault default?
  cases n.keywords? with
  | none => simp
  | some k => simp

theorem default?_withDefault {v : Value} (h : n.wantsDefault = true) :
    (n.withDefault (some v)).default? = some v := by
  have hsome := (wantsDefault_iff.mp h).1
  cases n with
  | leaf | object | array => rfl
  | ref | composition | union => cases hsome

end Node

/-- **The default of a property** is what the property has for its default on an instance, if
neither its annotations nor what holds its type give one. -/
theorem defaultOn_of_dressed {q : Property} {capturing : Bool} {made : Option Value}
    {c : Constraints} {held node : Node} {w : Value} (hc : c.default = none)
    (hheld : held.default? = none) (h : q.dressed capturing made c held = .ok node)
    (hw : node.default? = some w) : q.defaultOn made = .ok (some w) := by
  have hnone : (c.laidOn held).default? = none := (Node.default?_laidOn hc).trans hheld
  unfold Property.dressed at h
  split at h
  next hasks =>
    obtain ⟨v, hv, h⟩ := exists_of_bind_eq_ok h
    cases h
    cases v with
    | none => cases hnone.symm.trans hw
    | some v =>
      rw [Node.default?_withDefault (Bool.and_eq_true _ _ ▸ hasks).2] at hw
      rw [hv, hw]
  next =>
    cases h
    cases hnone.symm.trans hw

/-- A default that is worth publishing is published in the form of a literal. -/
theorem literal_of_defaultOn {q : Property} {made : Option Value} {w : Value}
    (h : q.defaultOn made = .ok (some w)) :
    ∃ v, made.bind (fun v => v.held? q.accessorName) = some v ∧ v.isIntrinsic = .ok false ∧
      v.literal = .ok w := by
  unfold Property.defaultOn at h
  split at h
  · cases h
  next v hv =>
    obtain ⟨b, hb, h⟩ := exists_of_bind_eq_ok h
    cases b with
    | true => cases h
    | false =>
      refine ⟨v, hv, hb, ?_⟩
      have hliteral : v.literal.toOption = some w := Except.ok.inj h
      cases hv' : v.literal with
      | ok u =>
        rw [hv'] at hliteral
        cases hliteral
        rfl
      | error e =>
        rw [hv'] at hliteral
        cases hliteral

/-! ## Nodes that serve a type -/

/-- **A node serves an ordinary type**: it accepts the wire forms of the values of the type, and
null once it has been made nullable, and it has no default yet. -/
structure Node.Serves (find : String → Option Node) (p : Program) (t : FieldType) (n : Node) :
    Prop where
  accepts : ∀ v, t.Takes p v → n.Accepts find v.wireForm
  null : n.makeNullable.Accepts find .null
  default : n.default? = none

namespace Node.Serves

variable {find : String → Option Node} {p : Program} {t : FieldType} {n : Node} {c : Constraints}
  {k : Keywords} {aliased piped nullFirst : Bool}

theorem untyped : (Node.leaf {} none).Serves find p t where
  accepts _ _ := .leaf nofun (.inl rfl)
  null := .leaf nofun (.inl rfl)
  default := rfl

/-- Leaves. -/
theorem leaf (hkind : t.kind?.isSome = true) : (t.kind?.getD .any).schema.Serves find p t := by
  have hleaf {kind : Kind} {j : JsonType} (hj : kind.jsonType = some j) {v : Value}
      (hv : j.takes v = true) : kind.schema.Accepts find v := by
    refine .leaf (fun j' hj' => ?_) (.inl rfl)
    cases hj.symm.trans hj'
    exact hv
  cases t with
  | integer =>
    refine ⟨?_, .null rfl rfl (.inl rfl), rfl⟩
    rintro v ⟨n, rfl⟩
    exact hleaf rfl rfl
  | text =>
    refine ⟨?_, .null rfl rfl (.inl rfl), rfl⟩
    rintro v ⟨s, rfl⟩
    exact hleaf rfl rfl
  | truth =>
    refine ⟨?_, .null rfl rfl (.inl rfl), rfl⟩
    rintro v ⟨b, rfl⟩
    exact hleaf rfl rfl
  | decimal =>
    refine ⟨?_, .null rfl rfl (.inl rfl), rfl⟩
    rintro v ⟨d, rfl, hd⟩
    obtain ⟨w, hw, hnumber⟩ := Value.literalDecimal_of_isNumber hd
    rw [Value.wireForm, hw]
    rcases hnumber with ⟨n, rfl⟩ | ⟨x, rfl, hx⟩
    · exact hleaf rfl rfl
    · exact hleaf (j := .number) rfl hx
  | enumeration | optional | list | dict => cases hkind

/-- Unions with null. -/
theorem optional (h : n.Serves find p t) :
    n.makeNullable.Serves find p (.optional piped nullFirst t) where
  accepts v hv := by
    rcases hv with rfl | hv
    · exact h.null
    · exact (h.accepts v hv).makeNullable
  null := h.null.makeNullable
  default := default?_makeNullable.trans h.default

/-- Lists. -/
theorem list (h : n.Serves find p t) (hk : k.choices = []) (hdefault : k.default = none) :
    (Node.array k n).Serves find p (.list aliased t) where
  accepts v hv := by
    obtain ⟨xs, rfl, hxs⟩ := hv
    rw [Value.wireForm, Value.wireForms_eq_map]
    refine .array (.inl hk) fun w hw => ?_
    obtain ⟨x, hx, rfl⟩ := List.mem_map.mp hw
    exact h.accepts x (hxs x hx)
  null := .null rfl rfl (.inl hk)
  default := hdefault

/-- Mappings. -/
theorem dict (h : n.Serves find p t) : (Node.object {} [] (some n) none).Serves find p
    (.dict aliased t) where
  accepts v hv := by
    obtain ⟨es, rfl, -, hes⟩ := hv
    refine .object (Value.wireForm_ofFields es) (.inl rfl) nofun (fun _ _ _ => nofun) ?_ nofun
    rintro f hf - m ⟨⟩
    obtain ⟨e, he, rfl⟩ := List.mem_map.mp hf
    exact h.accepts e.2 (hes e he)
  null := .null rfl rfl (.inl rfl)
  default := rfl

/-- Mappings to values of any kind. -/
theorem anyDict : (Node.object {} [] none (some true)).Serves find p (.dict aliased t) where
  accepts v hv := by
    obtain ⟨es, rfl, -, -⟩ := hv
    exact .object (Value.wireForm_ofFields es) (.inl rfl) nofun (fun _ _ _ => nofun)
      (fun _ _ _ _ => nofun) nofun
  null := .null rfl rfl (.inl rfl)
  default := rfl

/-- References to enumerations. -/
theorem enumeration {i : Nat} {name : String} {d : Descriptor} {cls : Class} {e : Enumeration}
    (hclass : p.classes[i]? = some cls) (hform : cls.form = .enumeration e)
    (hmembers : d.members = e.listed) (htype : c.type = none) (hchoices : c.choices = [])
    (hfind : find name =
      some (c.apply (.leaf { choices := d.members.map .text } (some .string)))) :
    (Node.refTo name).Serves find p (.enumeration i) where
  accepts v hv := by
    obtain ⟨cls', e', label, own, w, hclass', hform', rfl, -, hlisted⟩ := hv
    cases hclass.symm.trans hclass'
    cases hform.symm.trans hform'
    rw [Value.wireForm]
    refine .ref hfind (.leaf (fun j hj => ?_) (.inr ?_))
    · rw [htype] at hj
      cases hj
      rfl
    · show _ ∈ Constraints.upperList c.choices (d.members.map .text)
      rw [hchoices, hmembers]
      exact List.mem_map_of_mem hlisted
  null := .union (List.mem_cons_of_mem _ List.mem_cons_self) .nullMarker
  default := rfl

end Node.Serves

/-! ## What holds an ordinary type -/

variable {env : Environment} {s : Session} {x : Descriptor} {m : Node} {r : Built} {σ σ₁ : Scene}

section

variable (env : Environment) (s : Session)

/-- **What is put in the place of a type of its shape**, from one scene to another. -/
inductive Inlaid (d : Descriptor) (σ σ₁ : Scene) : Node → Prop
  | primitive {c : Constraints} (hshape : d.shape = .primitive)
      (hmerge : Constraints.merge d.annotations = .ok c) :
      Inlaid d σ σ₁ (c.apply (d.kind.getD .any).schema)
  | unknown {c : Constraints} (hshape : d.shape = .unknown)
      (hmerge : Constraints.merge d.annotations = .ok c) : Inlaid d σ σ₁ (c.apply .untyped)
  | nullable {inner : Descriptor} {n : Node} (hshape : d.shape = .nullable)
      (hinner : s.Settles (env.describe d.inner) inner)
      (hrefers : Derives env s (.refers inner n) σ σ₁) : Inlaid d σ σ₁ n.makeNullable
  | array {inner : Descriptor} {n : Node} {c : Constraints} (hshape : d.shape = .array)
      (hmerge : Constraints.merge d.annotations = .ok c)
      (hinner : s.Settles (env.describe d.inner) inner)
      (hrefers : Derives env s (.refers inner n) σ σ₁) :
      Inlaid d σ σ₁ (c.apply (.array { uniqueItems := d.uniqueItems } n))
  | map {inner : Descriptor} {n : Node} {c : Constraints} (hshape : d.shape = .map)
      (hmerge : Constraints.merge d.annotations = .ok c)
      (hinner : s.Settles (env.describe (mapInner d)) inner)
      (hrefers : Derives env s (.refers inner n) σ σ₁) :
      Inlaid d σ σ₁ (c.apply (.object {} [] (some n) none))
  | anyMap {c : Constraints} (hshape : d.shape = .map)
      (hmerge : Constraints.merge d.annotations = .ok c) :
      Inlaid d σ σ₁ (c.apply (.object {} [] none (some true)))

end

/-- What holds a type that is published in place. -/
theorem inlaid_of_refers (hshape : x.shape.isInline = true)
    (h : Derives env s (.refers x m) σ σ₁) : Inlaid env s x σ σ₁ m := by
  cases h with
  | inPlace _ hbuilds =>
    cases hbuilds with
    | plain hplain =>
      cases hplain with
      | primitive hshape hmerge => exact .primitive hshape hmerge
      | unknown hshape hmerge => exact .unknown hshape hmerge
      | named hnamed => cases hshape.symm.trans hnamed
    | wrapped hwraps hinner hrefers =>
      cases hwraps with
      | nullable hshape => exact .nullable hshape hinner hrefers
      | array hshape hmerge => exact .array hshape hmerge hinner hrefers
      | map hshape hmerge => exact .map hshape hmerge hinner hrefers
      | renamed hnamed => cases hshape.symm.trans hnamed
    | anyMap hmap _ _ hmerge => exact .anyMap hmap hmerge
    | cutArray hnamed | root hnamed => cases hshape.symm.trans hnamed
    | composed hderived | derived hderived => cases hshape.symm.trans hderived.shape
  | known hinline | awaited hinline | fresh hinline =>
    cases hshape.symm.trans (settles_isInline_false hinline).1

/-- No annotations are no constraints. -/
theorem Constraints.eq_empty_of_merge {records : List Record} {c : Constraints}
    (hrecords : records = []) (h : Constraints.merge records = .ok c) : c = {} := by
  rw [hrecords] at h
  exact (Except.ok.inj h).symm

/-- A map that says what it maps to. -/
theorem mapInner_of_same {t : FieldType} (h : x.inner.same t.token = true) :
    mapInner x = x.inner := by
  have htype := (FieldType.plain_of_same h).2.2.1
  unfold mapInner
  generalize x.inner = u at htype
  cases u with
  | none => cases htype
  | _ => rfl

/-- A root that is published by name and referred to is referred to by a reference. -/
theorem refTo_of_refers (hshape : x.shape.isInline = false) (hbase : x.base = none)
    (h : Derives env s (.refers x m) σ σ₁) : m = .refTo x.name := by
  have hpub : Published env s x := published_of_root hshape hbase
  cases h with
  | inPlace hinline _ => exact absurd hpub (not_published_of_inline hinline)
  | known | awaited => rfl
  | @fresh _ r _ _ _ _ hvisited hbuilds =>
    rcases stores_of_builds hpub hbuilds with ⟨-, hstores⟩ | ⟨_, _, _, _, hbase', -⟩
    · rcases stored_iff_of_stores hstores with ⟨hvisits, -⟩ | ⟨-, hstored⟩
      · cases hvisits.symm.trans (hpub.not_visited hvisited)
      · exact if_pos hstored
    · cases hbase.symm.trans hbase'

section

variable {find : String → Option Node} (hw : s.WellRead env) (hkeys : env.KeysDistinct)
  (hks : env.kinds.LeavesOrdinary)
  (hfind : ∀ {x}, s.Describes env x → Published env s x → x.shape = .enum →
    (Walk.scene ⟨s, []⟩).Owns x → ∃ n, find x.name = some n ∧ x.Enumerates n)
include hw hkeys hks hfind

/-- **What holds an ordinary type serves it**, where what is found under the names of enumerations
is what is published of them. -/
theorem serves_of_refers {t : FieldType} {a : Token} (ht : t.Declared env.program)
    (ha : a.same t.token = true) (hdescribe : s.Settles (env.describe a) x)
    (hrefers : s.Refers env x m) : m.Serves find env.program t := by
  induction t generalizing a x m with
  | integer | text | truth | decimal =>
    obtain ⟨σ, σ₁, -, hderives, -⟩ := hrefers
    obtain ⟨hshape, hkind, hplain⟩ := FieldType.reads_of_describe hw hks ht ha hdescribe
    cases inlaid_of_refers (by rw [hshape]; rfl) hderives with
    | primitive _ hmerge =>
      rw [Constraints.eq_empty_of_merge hplain hmerge, hkind]
      exact .leaf rfl
    | unknown h | nullable h | array h | map h | anyMap h => cases hshape.symm.trans h
  | enumeration i =>
    obtain ⟨σ, σ₁, htended, hderives, hclaims⟩ := hrefers
    obtain ⟨hshape, hbase, cls, e, hclass, hform, hmembers, hannotations⟩ :=
      FieldType.reads_of_describe hw hks ht ha hdescribe
    obtain ⟨cls', e', hclass', -, hsilent⟩ := ht
    cases hclass.symm.trans hclass'
    have hnamed : x.shape.isInline = false := by
      rw [hshape]
      rfl
    have hpub : Published env s x := published_of_root hnamed hbase
    have howns : (Walk.scene ⟨s, []⟩).Owns x :=
      (owns_of_refers hw hkeys htended ⟨a, hdescribe⟩ hpub hderives).mono hclaims
    obtain ⟨n, hn, c, hmerge, rfl⟩ := hfind ⟨a, hdescribe⟩ hpub hshape howns
    rw [hannotations] at hmerge
    obtain ⟨htype, hchoices⟩ := hsilent c hmerge
    rw [refTo_of_refers hnamed hbase hderives]
    exact .enumeration hclass hform hmembers htype hchoices hn
  | optional piped nullFirst t ih =>
    obtain ⟨σ, σ₁, htended, hderives, hclaims⟩ := hrefers
    rcases FieldType.reads_of_describe hw hks ht ha hdescribe with
      ⟨hshape, hsame⟩ | ⟨hshape, hplain⟩
    · cases inlaid_of_refers (by rw [hshape]; rfl) hderives with
      | nullable _ hinner hrefers =>
        exact (ih ht hsame hinner ⟨σ, σ₁, htended, hrefers, hclaims⟩).optional
      | primitive h | unknown h | array h | map h | anyMap h => cases hshape.symm.trans h
    · cases inlaid_of_refers (by rw [hshape]; rfl) hderives with
      | unknown _ hmerge =>
        rw [Constraints.eq_empty_of_merge hplain hmerge]
        exact .untyped
      | primitive h | nullable h | array h | map h | anyMap h => cases hshape.symm.trans h
  | list aliased t ih =>
    obtain ⟨σ, σ₁, htended, hderives, hclaims⟩ := hrefers
    obtain ⟨hshape, hsame, hplain⟩ := FieldType.reads_of_describe hw hks ht ha hdescribe
    cases inlaid_of_refers (by rw [hshape]; rfl) hderives with
    | array _ hmerge hinner hrefers =>
      rw [Constraints.eq_empty_of_merge hplain hmerge]
      exact (ih ht hsame hinner ⟨σ, σ₁, htended, hrefers, hclaims⟩).list rfl rfl
    | primitive h | unknown h | nullable h | map h | anyMap h => cases hshape.symm.trans h
  | dict aliased t ih =>
    obtain ⟨σ, σ₁, htended, hderives, hclaims⟩ := hrefers
    obtain ⟨hshape, hsame, hplain⟩ := FieldType.reads_of_describe hw hks ht ha hdescribe
    cases inlaid_of_refers (by rw [hshape]; rfl) hderives with
    | map _ hmerge hinner hrefers =>
      rw [mapInner_of_same hsame] at hinner
      rw [Constraints.eq_empty_of_merge hplain hmerge]
      exact (ih ht hsame hinner ⟨σ, σ₁, htended, hrefers, hclaims⟩).dict
    | anyMap _ hmerge =>
      rw [Constraints.eq_empty_of_merge hplain hmerge]
      exact .anyDict
    | primitive h | unknown h | nullable h | array h => cases hshape.symm.trans h

/-- **What the default of a property of an ordinary type is**: the published form of the value that
the property holds on an instance.  The property accepts the wire form of that value, and this is
what is published exactly if the value is faithful. -/
theorem Origin.accepts {t : FieldType} {d : Descriptor} {q : Property} {p : String × Node}
    {w : Value} (h : Origin env s d q p) (ht : t.Declared env.program)
    (htype : q.type.same t.token = true)
    (hplain : ∀ c, Constraints.merge q.annotations = .ok c → c.Undemanding)
    (hholds : ∀ v, d.made.bind (fun v => v.held? q.accessorName) = some v →
      t.Takes env.program v) (hdefault : p.2.default? = some w) :
    ∃ v, d.made.bind (fun v => v.held? q.accessorName) = some v ∧ v.isIntrinsic = .ok false ∧
      v.literal = .ok w ∧ p.2.Accepts find v.wireForm ∧
        (w = v.wireForm ↔ v.isFaithful = true) := by
  obtain ⟨c, x, m, hmerge, hdescribe, hrefers, hdressed⟩ := h.dressed
  have hserves := serves_of_refers hw hkeys hks hfind ht htype hdescribe hrefers
  have hc := hplain c hmerge
  obtain ⟨v, hv, hintrinsic, hliteral⟩ := literal_of_defaultOn
    (defaultOn_of_dressed hc.default hserves.default hdressed hdefault)
  have htakes := hholds v hv
  have hlaid := (hserves.accepts v htakes).laidOn hc
  refine ⟨v, hv, hintrinsic, hliteral, ?_, Value.literal_eq_wireForm_iff htakes hliteral⟩
  unfold Property.dressed at hdressed
  split at hdressed
  · obtain ⟨u, -, hnode⟩ := exists_of_bind_eq_ok hdressed
    rw [← Except.ok.inj hnode]
    exact hlaid.withDefault u
  · rw [← Except.ok.inj hdressed]
    exact hlaid

end

end Schemata
