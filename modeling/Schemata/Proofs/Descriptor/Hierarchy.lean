import Schemata.Proofs.Compiler.Run
import Schemata.Proofs.Declared.Hierarchy
import Schemata.Proofs.Descriptor.FieldType

/-!
# How the fields of a hierarchy are shared out

A class is described with the properties that it declares itself; the others are found on the
descriptors of its bases.  `run_describe_hierarchy` says that nothing is lost or made up in this
way: whatever has been asked of a compiler before, a class in a hierarchy can be described and its
bases be gone through, and the attributes of the properties found are the fields of the class.

Fields that are declared again are found twice, on the class and on a base.  On one descriptor no
attribute is found twice, and they stand in the order of the fields of the class.

This is about classes that are described by their fields.  An enumeration is described by its
members whatever is mixed into it, and a class that the host has declared to be a leaf is not looked
into at all.

The walk through bases stops at a descriptor that it has come by.  It does not come by the same
class twice, since each class is declared before those that are derived from it, and two classes do
not share a descriptor (`Session.Keeps.eq_of_same`).
-/

namespace Schemata

open Token (indices)

/-- The attributes that the properties of a type are found under. -/
def Descriptor.attributes (d : Descriptor) : List (Option String) :=
  d.properties.map Property.accessor

/-- The names of the fields of a class that it declares itself. -/
def Class.ownFieldNames (c : Class) : List String :=
  c.fieldNames.filter fun name => (c.fields.map Field.name).contains name

theorem Class.mem_ownFieldNames {c : Class} {name : String} :
    name ∈ c.ownFieldNames ↔ name ∈ c.fieldNames ∧ name ∈ c.fields.map Field.name := by
  unfold ownFieldNames
  rw [List.mem_filter, List.contains_iff_mem]

/-- The fields of a class are its own and those of its base. -/
theorem Class.Extends.mem_fieldNames {c b : Class} (h : c.Extends b) {name : String} :
    name ∈ c.fieldNames ↔ name ∈ c.ownFieldNames ∨ name ∈ b.fieldNames := by
  rw [mem_ownFieldNames]
  constructor
  · exact fun hname => (h.adds name hname).imp_left fun hown => ⟨hname, hown⟩
  · rintro (⟨hname, -⟩ | hname)
    · exact hname
    · exact h.keeps name hname

/-! ## What is read of a class -/

/-- A list of computations succeeds if each of them does. -/
theorem exists_mapM_eq_ok {ε α β : Type} {f : α → Except ε β} {as : List α}
    (h : ∀ a ∈ as, ∃ b, f a = .ok b) : ∃ bs, as.mapM f = .ok bs := by
  induction as with
  | nil => exact ⟨[], rfl⟩
  | cons a as ih =>
    obtain ⟨b, hb⟩ := h a List.mem_cons_self
    obtain ⟨bs, hbs⟩ := ih fun a ha => h a (List.mem_cons_of_mem _ ha)
    refine ⟨b :: bs, ?_⟩
    rw [List.mapM_cons, hb, hbs]
    rfl

namespace Program

variable {p : Program} {ks : Kinds} {i j : Nat} {c b : Class} {d : Descriptor}

theorem baseOf_eq (c : Class) : baseOf c = c.outer.head? := by
  unfold baseOf Class.outer
  rw [List.head?_filter]
  refine congrArg (List.find? · c.bases) (funext fun t => ?_)
  cases t <;> rfl

theorem read_declared (hc : p.classes[i]? = some c) (hleaf : ks.kindOf? (.declared i) = none) :
    p.read ks (.declared i) = p.readClass (.declared i) c := by
  have hstructure : p.readStructure (.declared i) = p.readClass (.declared i) c := by
    unfold readStructure
    dsimp only
    rw [hc]
  unfold read
  dsimp only
  rw [show ks.kindOf? (Token.declared i).bare = none from hleaf]
  exact hstructure

/-- What a class of a hierarchy is described as. -/
structure Pictures (c : Class) (d : Descriptor) : Prop where
  shape : d.shape = .object
  base : d.base = c.outer.head?
  attributes : d.attributes = c.ownFieldNames.map some

theorem Pictures.of_alike {d' : Descriptor} (h : Pictures c d) (halike : d.Alike d') :
    Pictures c d' := by
  rw [halike]
  exact ⟨h.shape, h.base, h.attributes⟩

/-- The properties of a model are its own fields. -/
theorem exists_modelProperties (hform : c.form = .model)
    (hresolves : ∀ f ∈ c.modelFields, ∃ t, p.fieldType c (.declared i) f.type = .ok t) :
    ∃ qs, p.modelProperties (.declared i) c = .ok qs ∧
      qs.map Property.accessor = c.ownFieldNames.map some := by
  obtain ⟨qs, hqs⟩ : ∃ qs, p.modelProperties (.declared i) c = .ok qs := by
    refine exists_mapM_eq_ok fun f hf => ?_
    obtain ⟨t, ht⟩ := hresolves f (List.mem_of_mem_filter hf)
    rw [ht]
    exact ⟨_, rfl⟩
  refine ⟨qs, hqs, ?_⟩
  have haccessors : qs.map Property.accessor =
      (c.modelFields.filter fun f => (c.fields.map Field.name).contains f.name).map
        fun f => some f.name := by
    refine map_eq_of_mapM_eq_ok (fun f q hq => ?_) hqs
    obtain ⟨t, -, hq⟩ := exists_of_bind_eq_ok hq
    cases hq
    rfl
  rw [haccessors, Class.ownFieldNames, Class.fieldNames, hform, List.filter_map, List.map_map]
  rfl

/-- The properties of a record are its own fields. -/
theorem exists_recordProperties (hplaced : p.Placed c) {fs : List RecordField}
    (hfields : c.recordFields = some fs)
    (hresolves : ∃ hints, p.hints (.declared i) c = .ok hints) :
    ∃ qs, p.recordProperties (.declared i) c fs = .ok qs ∧
      qs.map Property.accessor = c.ownFieldNames.map some := by
  obtain ⟨hints, hhints⟩ := hresolves
  refine ⟨_, by rw [recordProperties, hhints]; rfl, ?_⟩
  have hnames : c.fieldNames = fs.map RecordField.name := by
    rw [hplaced.fieldNames_eq]
    rw [hplaced.fields] at hfields
    rw [Option.some.inj hfields]
  rw [Class.ownFieldNames, hnames, List.filter_map, List.map_map, List.map_map]
  rfl

/-- **A class of a hierarchy can be read**, and its properties are its own fields. -/
theorem Hierarchy.exists_readClass (hp : p.Declared) (h : p.Hierarchy i c)
    (hlisted : p.Unlisted i) :
    ∃ d, p.readClass (.declared i) c = .ok d ∧ Pictures c d := by
  have hresolves := h.resolves
  unfold Resolves at hresolves
  by_cases hmodel : c.form = .model
  · rw [hmodel] at hresolves
    obtain ⟨qs, hqs, haccessors⟩ := exists_modelProperties hmodel hresolves
    unfold readClass
    rw [hmodel]
    dsimp only
    rw [hqs]
    exact ⟨_, rfl, rfl, baseOf_eq c, haccessors⟩
  · have hplaced := h.placed hp hlisted hmodel
    have hfields := hplaced.fields
    rcases hplaced.form with hform | hform
    all_goals
      rw [hform] at hresolves
      obtain ⟨qs, hqs, haccessors⟩ := exists_recordProperties hplaced hfields hresolves
      unfold readClass
      rw [hform, hfields]
      dsimp only
      rw [hqs]
      exact ⟨_, rfl, rfl, baseOf_eq c, haccessors⟩

/-! ## Builtin bases -/

/-- **A builtin type can be read.**  It has no properties, and if it has a base, then that is
builtin as well. -/
theorem exists_read_builtin (p : Program) (ks : Kinds) (b : Builtin) :
    ∃ d, p.read ks (.builtin b) = .ok d ∧ d.properties = [] ∧
      ∀ t ∈ d.base, ∃ b', t = .builtin b' := by
  unfold read
  dsimp only
  cases ks.kindOf? (Token.builtin b).bare with
  | some k => exact ⟨_, rfl, rfl, nofun⟩
  | none =>
    cases b with
    | orderedDict | truth | moment =>
      exact ⟨_, rfl, rfl, fun t ht => ⟨_, (Option.some.inj ht).symm⟩⟩
    | _ => exact ⟨_, rfl, rfl, nofun⟩

end Program

/-! ## What a session has read -/

/-- A descriptor is the one that a session keeps of a type. -/
def Session.Keeps (s : Session) (t : Token) (d : Descriptor) : Prop :=
  ∃ k, d.identity = .kept k ∧ s.readings[k]? = some (t, d)

namespace Session.Keeps

variable {s s' : Session} {t t' : Token} {d d' : Descriptor}

theorem mono (h : s.Keeps t d) (hs : s.Below s') : s'.Keeps t d := by
  obtain ⟨k, hidentity, hget⟩ := h
  obtain ⟨more, hmore⟩ := hs
  refine ⟨k, hidentity, ?_⟩
  rw [← hmore, List.getElem?_append_left (List.getElem?_eq_some_iff.mp hget).1, hget]

/-- A descriptor is kept of one type only. -/
theorem eq_of_same (h : s.Keeps t d) (h' : s.Keeps t' d')
    (hsame : d.identity.same d'.identity = true) : t = t' := by
  obtain ⟨k, hk, hget⟩ := h
  obtain ⟨k', hk', hget'⟩ := h'
  rw [hk, hk'] at hsame
  obtain rfl : k = k' := Identity.kept.inj (eq_of_beq hsame)
  exact (Prod.mk.inj (Option.some.inj (hget.symm.trans hget'))).1

end Session.Keeps

namespace Environment

variable {env : Environment} {w : Walk} {t : Token} {d₀ : Descriptor}

/-- **A declaration that can be read is described**, and the descriptor is kept. -/
theorem exists_keeps_of_read (hw : w.session.WellRead env) (ht : t.isDeclaration = true)
    (hread : env.program.read env.kinds t = .ok d₀) : ∃ d w', env.describe t w = .ok d w' ∧
      w.Learns env w' ∧ d₀.Alike d ∧ w'.session.Keeps t d := by
  have hcrafted (i : Nat) : t ≠ .crafted i := by
    rintro rfl
    cases ht
  have htype : t.asType = t := by
    cases t with
    | none => cases ht
    | _ => rfl
  have hkey : t.isKey = true := by
    cases t with
    | builtin b | brand i | declared i => exact Token.same_of_isDeclaration ht
    | _ => cases ht
  suffices h : ∃ d w', env.describe t w = .ok d w' ∧ d₀.Alike d ∧ w'.session.Keeps t d by
    obtain ⟨d, w', hdescribe, halike, hkeeps⟩ := h
    exact ⟨d, w', hdescribe, (reads_describe t).learns.ok hdescribe, halike, hkeeps⟩
  rw [describe_eq env hcrafted, htype, if_pos hkey]
  cases hfind : w.session.readings.find? fun e => e.1.same t with
  | some e =>
    obtain ⟨k, hk⟩ := List.mem_iff_getElem?.mp (List.mem_of_find?_eq_some hfind)
    obtain ⟨u, d⟩ := e
    obtain rfl : u = t :=
      Token.eq_of_same_declaration ht (by simpa using List.find?_some hfind)
    obtain ⟨d₁, hread₁, hd⟩ := hw k u d hk
    cases hread.symm.trans hread₁
    refine ⟨d, w, ?_, ?_, k, ?_, hk⟩
    · rw [bind_of_ok (Build.asks_eq_ok.mpr ⟨hfind.symm, rfl⟩)]
      rfl
    · rw [hd]
      rfl
    · rw [hd]
  | none =>
    obtain ⟨d, w', hnew⟩ : ∃ d w', env.readNew t w = .ok d w' :=
      ⟨_, _, readNew_eq_ok.mpr ⟨d₀, hread, rfl, rfl⟩⟩
    obtain ⟨d₁, hread₁, hd, hw'⟩ := readNew_eq_ok.mp hnew
    cases hread.symm.trans hread₁
    refine ⟨d, w', ?_, ?_, w.session.readings.length, ?_, ?_⟩
    · rw [bind_of_ok (Build.asks_eq_ok.mpr ⟨hfind.symm, rfl⟩)]
      exact hnew
    · rw [hd]
      rfl
    · rw [hd]
    · rw [hw']
      exact List.getElem?_concat_length

/-! ## The walk through bases -/

/-- A walk that has come to builtin types finds no properties. -/
theorem exists_basesFrom_builtin (fuel : Nat) (seen : List Identity) {d : Descriptor}
    (hw : w.session.WellRead env) (hbase : ∀ t ∈ d.base, ∃ b, t = .builtin b) :
    ∃ bases w', env.basesFrom fuel seen d w = .ok bases w' ∧
      ∀ e ∈ bases, e.attributes = [] := by
  induction fuel generalizing seen d w with
  | zero => exact ⟨[], w, rfl, by simp⟩
  | succ fuel ih =>
    cases ht : d.base with
    | none =>
      unfold basesFrom
      rw [ht]
      exact ⟨[], w, rfl, by simp⟩
    | some t =>
      obtain ⟨b, rfl⟩ := hbase t ht
      obtain ⟨d₀, hread, hproperties, hnext⟩ :=
        Program.exists_read_builtin env.program env.kinds b
      obtain ⟨e, w₁, hdescribe, hlearns, halike, -⟩ := exists_keeps_of_read hw rfl hread
      have hattributes : e.attributes = [] := by
        rw [halike, Descriptor.attributes]
        exact congrArg (List.map Property.accessor) hproperties
      rw [basesFrom_succ ht, bind_of_ok hdescribe]
      split
      · exact ⟨[], w₁, rfl, by simp⟩
      split
      · exact ⟨[e], w₁, rfl, by simpa using hattributes⟩
      · have hbase' : e.base = d₀.base := by rw [halike]
        obtain ⟨bases, w', hbases, hnone⟩ := ih (e.identity :: seen)
          (hlearns.session.wellRead hw) (hbase' ▸ hnext)
        refine ⟨e :: bases, w', ?_, List.forall_mem_cons.mpr ⟨hattributes, hnone⟩⟩
        rw [bind_of_ok hbases]
        rfl

/-- What a walk through bases has come by are declared classes, and none of those before one of
them. -/
def PassedBy (s : Session) (i : Nat) (seen : List Identity) : Prop :=
  ∀ id ∈ seen, ∃ j d, i ≤ j ∧ s.Keeps (.declared j) d ∧ d.identity = id

theorem PassedBy.mono {s s' : Session} {i : Nat} {seen : List Identity} (h : PassedBy s i seen)
    (hs : s.Below s') : PassedBy s' i seen := by
  intro id hid
  obtain ⟨j, d, hj, hd, hidentity⟩ := h id hid
  exact ⟨j, d, hj, hd.mono hs, hidentity⟩

theorem PassedBy.anti {s : Session} {i j : Nat} {seen : List Identity} (h : PassedBy s i seen)
    (hj : j ≤ i) : PassedBy s j seen := by
  intro id hid
  obtain ⟨k, d, hk, hd, hidentity⟩ := h id hid
  exact ⟨k, d, Nat.le_trans hj hk, hd, hidentity⟩

/-- A class that comes before all that a walk has come by is not among it. -/
theorem PassedBy.not_any {s : Session} {i j : Nat} {seen : List Identity} {d : Descriptor}
    (h : PassedBy s i seen) (hj : j < i) (hd : s.Keeps (.declared j) d) :
    seen.any d.identity.same = false := by
  refine List.any_eq_false.mpr fun id hid hsame => ?_
  obtain ⟨k, e, hk, he, rfl⟩ := h id hid
  have := hd.eq_of_same he hsame
  cases this
  omega

theorem le_baseFuel {i : Nat} (h : i < env.program.classes.length) : i ≤ env.baseFuel := by
  refine Nat.le_trans ?_ (Nat.le_mul_self _)
  omega

/-- **A walk through the bases of a class** finds the fields that the class does not declare
itself. -/
theorem exists_basesFrom_of_hierarchy {i : Nat} {c : Class} (hp : env.program.Declared)
    (h : env.program.Hierarchy i c) (hlisted : env.program.Unlisted i)
    (hleaf : ∀ j, .declared j ∈ env.program.lineage (.declared i) →
      env.kinds.kindOf? (.declared j) = none)
    {fuel : Nat} (hfuel : i ≤ fuel) {seen : List Identity} {d : Descriptor}
    (hw : w.session.WellRead env) (hseen : PassedBy w.session i seen)
    (hbase : d.base = c.outer.head?) :
    ∃ bases w', env.basesFrom fuel seen d w = .ok bases w' ∧
      (∀ a, a ∈ c.ownFieldNames.map some ++ bases.flatMap Descriptor.attributes ↔
        a ∈ c.fieldNames.map some) ∧
      ∀ e ∈ bases, e.attributes.Nodup := by
  induction h generalizing fuel seen d w with
  | @first i c hc hform houter _ =>
    obtain ⟨bases, w', hbases, hnone⟩ := exists_basesFrom_builtin fuel seen hw (d := d) (by
      rw [hbase]
      rcases houter with houter | ⟨b, houter⟩ <;> simp [houter])
    have hown : c.ownFieldNames = c.fieldNames := List.filter_eq_self.mpr fun name hname =>
      List.contains_iff_mem.mpr (Program.Hierarchy.names_of_first hp hc hlisted hform houter hname)
    refine ⟨bases, w', hbases, fun a => ?_, fun e he => ?_⟩
    · rw [hown, List.flatMap_eq_nil_iff.mpr hnone, List.append_nil]
    · simp [hnone e he]
  | @next i j c b hc habove hsort houter hkept _ ih =>
    have hsingle := Program.indices_bases_of_next houter
    have hj : j < i := hp.lt_of_single hc hsingle
    obtain ⟨fuel, rfl⟩ : ∃ n, fuel = n + 1 := ⟨fuel - 1, by omega⟩
    have hleaf' (k : Nat) (hk : .declared k ∈ env.program.lineage (.declared j)) :
        env.kinds.kindOf? (.declared k) = none :=
      hleaf k (hp.mem_lineage_of_single hc hsingle habove.declared hk)
    have hlisted' := hlisted.of_single hp hc hsingle habove.declared
    have hself : .declared j ∈ env.program.lineage (.declared j) := by
      rw [Program.lineage_declared habove.declared]
      exact List.mem_cons_self
    -- the base is described, and it has not been passed by
    obtain ⟨d₀, hread, hpictures⟩ := habove.exists_readClass hp hlisted'
    rw [← Program.read_declared habove.declared (hleaf' j hself)] at hread
    obtain ⟨e, w₁, hdescribe, hlearns, halike, hkeeps⟩ := exists_keeps_of_read hw rfl hread
    have he := hpictures.of_alike halike
    have hpassed : PassedBy w₁.session i seen := hseen.mono hlearns.below
    have hpassed' : PassedBy w₁.session j (e.identity :: seen) :=
      List.forall_mem_cons.mpr ⟨⟨j, e, Nat.le_refl j, hkeeps, rfl⟩, hpassed.anti (by omega)⟩
    have hfuel' : j ≤ fuel := by omega
    obtain ⟨bases, w', hbases, hnames, hnodup⟩ := ih hlisted' hleaf' hfuel'
      (hlearns.session.wellRead hw) hpassed' he.base
    refine ⟨e :: bases, w', ?_, fun a => ?_, List.forall_mem_cons.mpr ⟨?_, hnodup⟩⟩
    · rw [basesFrom_succ (hbase.trans (by rw [houter]; rfl)), bind_of_ok hdescribe,
        hpassed.not_any hj hkeeps, if_neg Bool.false_ne_true, he.shape, if_neg (not_not.mpr rfl),
        bind_of_ok hbases]
      rfl
    · have hextends := Program.Hierarchy.extends_of_next hp hc hlisted habove hsort houter
        hkept
      rw [List.flatMap_cons, he.attributes, List.mem_append, hnames, List.mem_map, List.mem_map,
        List.mem_map]
      simp only [hextends.mem_fieldNames]
      constructor
      · rintro (⟨name, hname, rfl⟩ | ⟨name, hname, rfl⟩)
        · exact ⟨name, .inl hname, rfl⟩
        · exact ⟨name, .inr hname, rfl⟩
      · rintro ⟨name, hname | hname, rfl⟩
        · exact .inl ⟨name, hname, rfl⟩
        · exact .inr ⟨name, hname, rfl⟩
    · rw [he.attributes]
      exact ((habove.nodup hp hlisted').filter _).map fun _ _ => Option.some.inj

end Environment

namespace Compiler

/-- **The fields of a hierarchy are shared out without loss.**  Let a class be in a hierarchy of
records or of models, none of which is an enumeration or has been declared to be a leaf by the host;
no declared class is a leaf unless the host says so.  After any number of calls the class can be
described, and its bases can be gone through.

The attributes of the properties found on the descriptor of the class and on those of its bases are
the fields of the class, all of them and nothing else.  On no descriptor is an attribute found
twice, and on that of the class they stand in the order of its fields. -/
theorem run_describe_hierarchy (c : Compiler) (calls : List Call) {i : Nat} {cls : Class}
    (hp : c.environment.program.Declared) (h : c.environment.program.Hierarchy i cls)
    (hlisted : c.environment.program.Unlisted i)
    (hleaf : ∀ j, .declared j ∈ c.environment.program.lineage (.declared i) →
      c.environment.kinds.kindOf? (.declared j) = none) :
    ∃ d s₁ bases s₂, c.describe (.declared i) (c.run calls) = .ok d s₁ ∧
      Session.run (c.environment.baseChain d) s₁ = .ok bases s₂ ∧
      (∀ a, a ∈ (d :: bases).flatMap Descriptor.attributes ↔ a ∈ cls.fieldNames.map some) ∧
      (∀ e ∈ d :: bases, e.attributes.Nodup) ∧
      d.attributes.Sublist (cls.fieldNames.map some) := by
  have hw : Session.WellRead c.environment (c.run calls) := (tidy_run c calls).wellRead
  have hself : .declared i ∈ c.environment.program.lineage (.declared i) := by
    rw [Program.lineage_declared h.declared]
    exact List.mem_cons_self
  obtain ⟨d₀, hread, hpictures⟩ := h.exists_readClass hp hlisted
  rw [← Program.read_declared h.declared (hleaf i hself)] at hread
  obtain ⟨d, w₁, hdescribe, hlearns, halike, hkeeps⟩ :=
    Environment.exists_keeps_of_read (w := ⟨c.run calls, []⟩) hw rfl hread
  have hd := hpictures.of_alike halike
  have hfuel : i ≤ c.environment.baseFuel :=
    Environment.le_baseFuel (List.getElem?_eq_some_iff.mp h.declared).1
  -- the walk starts at the class and has come by nothing else
  obtain ⟨bases, w₂, hbases, hnames, hnodup⟩ := Environment.exists_basesFrom_of_hierarchy hp h
    hlisted hleaf hfuel (w := ⟨w₁.session, []⟩) (hlearns.session.wellRead hw)
    (List.forall_mem_singleton.mpr ⟨i, d, Nat.le_refl i, hkeeps, rfl⟩) hd.base
  refine ⟨d, w₁.session, bases, w₂.session, Session.run_eq_ok.mpr ⟨w₁, hdescribe, rfl⟩,
    Session.run_eq_ok.mpr ⟨w₂, hbases, rfl⟩, ?_, List.forall_mem_cons.mpr ⟨?_, hnodup⟩, ?_⟩
  · rw [List.flatMap_cons, hd.attributes]
    exact hnames
  · rw [hd.attributes]
    exact ((h.nodup hp hlisted).filter _).map fun _ _ => Option.some.inj
  · rw [hd.attributes]
    exact List.filter_sublist.map some

/-- A compiler that knows of the items of an archive, of volumes, which are items that are noted by
a number, and of drafts, which are volumes that nobody has made a record of.  Whoever takes in a
volume has to say who gave it. -/
def archive : Compiler where
  environment :=
    { program := ((({} : Program).declaring item).declaring volume).declaring draft
      maxDepth := 8
      captureDefaults := false }
  refPrefix := .ok "#/components/schemas/"
  release := "3.1.0"
where
  /-- An item has a code and a note, and all items are on one shelf. -/
  item : Class :=
    { name := "Item"
      module := "archive"
      qualname := "Item"
      form := .record
      bases := [.builtin .object]
      fields :=
        [{ name := "code", type := .token (.builtin .text) },
         { name := "note", type := .token (.builtin .text), default := some (.text "none") },
         { name := "shelf", type := .classVar (.token (.builtin .integer)) }] }
  /-- A volume has pages, and its note is a number. -/
  volume : Class :=
    { name := "Volume"
      module := "archive"
      qualname := "Volume"
      form := .record
      bases := [.declared 0, .builtin .object]
      fields :=
        [{ name := "pages", type := .token (.builtin .integer) },
         { name := "note", type := .token (.builtin .integer) },
         { name := "donor", type := .initVar (.token (.builtin .text)) }] }
  /-- A draft is remarked upon, and its pages are not counted. -/
  draft : Class :=
    { name := "Draft"
      module := "archive"
      qualname := "Draft"
      bases := [.declared 1]
      fields :=
        [{ name := "remark", type := .token (.builtin .text) },
         { name := "pages", type := .token (.builtin .text) }] }

theorem archive_declared : archive.environment.program.Declared := by
  have hobject (n : Nat) : Token.Before n (.builtin .object) := ⟨rfl, nofun⟩
  have hclass {i n : Nat} (h : i < n) : Token.Before n (.declared i) :=
    ⟨rfl, fun j hj => by cases hj; exact h⟩
  have hitem : (({} : Program).declaring archive.item).Declared :=
    .declaring .nothing (List.forall_mem_singleton.mpr (hobject _))
  have hvolume : ((({} : Program).declaring archive.item).declaring archive.volume).Declared :=
    .declaring hitem (List.forall_mem_cons.mpr
      ⟨hclass (Nat.lt_succ_self 0), List.forall_mem_singleton.mpr (hobject _)⟩)
  have hbases : ∀ t ∈ archive.draft.bases, t.Before 2 :=
    List.forall_mem_singleton.mpr (hclass (Nat.lt_succ_self 1))
  exact .declaring hvolume hbases

theorem archive_hierarchy :
    archive.environment.program.Hierarchy 2 (archive.environment.program.classAt 2) := by
  have hitem : archive.environment.program.Hierarchy 0 (archive.environment.program.classAt 0) :=
    .first rfl (.inl (Class.keepsFields_of_form (.inl rfl) rfl)) (.inl rfl) ⟨_, rfl⟩
  have hvolume : archive.environment.program.Hierarchy 1 (archive.environment.program.classAt 1) :=
    .next rfl hitem (Class.keepsFields_of_form (.inl rfl) rfl) rfl (by decide) ⟨_, rfl⟩
  exact .next rfl hvolume (Class.keepsFields_of_form (.inr rfl) rfl) rfl (by decide) ⟨_, rfl⟩

theorem archive_unlisted : archive.environment.program.Unlisted 2 :=
  Program.unlisted_of_all rfl

/-- A compiler that knows of the cards of a catalogue, which are models, and of loans, which are
cards that somebody has taken along. -/
def catalogue : Compiler where
  environment :=
    { program := (({} : Program).declaring card).declaring loan
      maxDepth := 8
      captureDefaults := false }
  refPrefix := .ok "#/components/schemas/"
  release := "3.1.0"
where
  /-- A card has a title, and it keeps to itself how often it was looked at. -/
  card : Class :=
    { name := "Card"
      module := "catalogue"
      qualname := "Card"
      bases := [.builtin .model]
      fields :=
        [{ name := "title", type := .token (.builtin .text) },
         { name := "_seen", type := .token (.builtin .integer) }] }
  /-- A loan has a reader, and its title is a number. -/
  loan : Class :=
    { name := "Loan"
      module := "catalogue"
      qualname := "Loan"
      bases := [.declared 0]
      fields :=
        [{ name := "reader", type := .token (.builtin .text) },
         { name := "title", type := .token (.builtin .integer) }] }

theorem catalogue_declared : catalogue.environment.program.Declared := by
  have hcard : (({} : Program).declaring catalogue.card).Declared :=
    .declaring .nothing (List.forall_mem_singleton.mpr ⟨rfl, nofun⟩)
  have hcount : (({} : Program).declaring catalogue.card).classes.length = 1 := rfl
  have hbases : ∀ t ∈ catalogue.loan.bases,
      t.Before (({} : Program).declaring catalogue.card).classes.length := by
    rw [hcount]
    exact List.forall_mem_singleton.mpr
      ⟨rfl, fun j hj => by cases hj; exact Nat.lt_succ_self 0⟩
  exact .declaring hcard hbases

theorem catalogue_hierarchy :
    catalogue.environment.program.Hierarchy 1 (catalogue.environment.program.classAt 1) := by
  have hcount : catalogue.environment.program.classes.length = 2 := rfl
  have hcard : (catalogue.environment.program.classAt 0).form = .model := rfl
  have hloan : (catalogue.environment.program.classAt 1).form = .model := rfl
  have habove : catalogue.environment.program.Hierarchy 0
      (catalogue.environment.program.classAt 0) :=
    .first (Program.getElem?_classAt (by omega)) (.inr hcard) (.inl (by decide +kernel))
      (Program.resolves_of_all hcard (by decide +kernel))
  refine .next (Program.getElem?_classAt (by omega)) habove ?_ rfl ?_
    (Program.resolves_of_all hloan (by decide +kernel))
  · unfold Class.Continues
    rw [hcard]
    exact hloan
  · -- whatever a loan declares is a field
    have hnone : ((catalogue.environment.program.classAt 1).fields.all fun f =>
        !f.type.isPseudoField) = true := by decide +kernel
    intro f hf hpseudo
    have hfield := List.all_eq_true.mp hnone f hf
    simp [hpseudo] at hfield

theorem catalogue_unlisted : catalogue.environment.program.Unlisted 1 :=
  Program.unlisted_of_all (by decide +kernel)

theorem archive_describe_hierarchy :
    (∃ d s₁ bases s₂, archive.describe (.declared 2) (archive.run []) = .ok d s₁ ∧
      Session.run (archive.environment.baseChain d) s₁ = .ok bases s₂ ∧
      (∀ a, a ∈ (d :: bases).flatMap Descriptor.attributes ↔
        a ∈ [some "code", some "note", some "pages"]) ∧
      (∀ e ∈ d :: bases, e.attributes.Nodup) ∧
      d.attributes.Sublist [some "code", some "note", some "pages"]) ∧
    ∃ d s₁ bases s₂, catalogue.describe (.declared 1) (catalogue.run []) = .ok d s₁ ∧
      Session.run (catalogue.environment.baseChain d) s₁ = .ok bases s₂ ∧
      (∀ a, a ∈ (d :: bases).flatMap Descriptor.attributes ↔
        a ∈ [some "title", some "reader"]) ∧
      (∀ e ∈ d :: bases, e.attributes.Nodup) ∧
      d.attributes.Sublist [some "title", some "reader"] := by
  constructor
  · exact run_describe_hierarchy archive [] archive_declared archive_hierarchy archive_unlisted
      fun j _ => rfl
  · have hnames : (catalogue.environment.program.classAt 1).fieldNames.map some =
        [some "title", some "reader"] := by decide +kernel
    rw [← hnames]
    exact run_describe_hierarchy catalogue [] catalogue_declared catalogue_hierarchy
      catalogue_unlisted fun j _ => rfl

/-- A compiler that knows of the traits of animals, and of animals, which have traits and are
numbered one by one. -/
def bestiary (kinds : Kinds) : Compiler where
  environment :=
    { program := (({} : Program).declaring trait).declaring creature
      kinds := kinds
      maxDepth := 8
      captureDefaults := false }
  refPrefix := .ok "#/components/schemas/"
  release := "3.1.0"
where
  /-- A trait is a size and a number of legs. -/
  trait : Class :=
    { name := "Trait"
      module := "bestiary"
      qualname := "Trait"
      form := .record
      bases := [.builtin .object]
      fields :=
        [{ name := "size", type := .token (.builtin .text) },
         { name := "legs", type := .token (.builtin .integer) }] }
  /-- No creature has been found yet. -/
  creature : Class :=
    { name := "Creature"
      module := "bestiary"
      qualname := "Creature"
      bases := [.declared 0, .builtin .enumeration] }

theorem bestiary_declared (kinds : Kinds) : (bestiary kinds).environment.program.Declared := by
  have htrait : (({} : Program).declaring bestiary.trait).Declared :=
    .declaring .nothing (List.forall_mem_singleton.mpr ⟨rfl, nofun⟩)
  have hbases : ∀ t ∈ bestiary.creature.bases, t.Before 1 :=
    List.forall_mem_cons.mpr ⟨⟨rfl, fun j hj => by cases hj; exact Nat.lt_succ_self 0⟩,
      List.forall_mem_singleton.mpr ⟨rfl, nofun⟩⟩
  exact .declaring htrait hbases

theorem bestiary_hierarchy (kinds : Kinds) :
    (bestiary kinds).environment.program.Hierarchy 0
        ((bestiary kinds).environment.program.classAt 0) ∧
      (bestiary kinds).environment.program.Hierarchy 1
        ((bestiary kinds).environment.program.classAt 1) := by
  have htrait : (bestiary kinds).environment.program.Hierarchy 0
      ((bestiary kinds).environment.program.classAt 0) :=
    .first rfl (.inl (Class.keepsFields_of_form (.inl rfl) rfl)) (.inl rfl) ⟨_, rfl⟩
  exact ⟨htrait, .next rfl htrait ⟨nofun, rfl⟩ rfl nofun ⟨_, rfl⟩⟩

/-- **Fields that are not found.**  A creature is in a hierarchy and no leaf, and its fields are
those of a trait, but it is an enumeration and described by its members.  A trait is no enumeration,
but where the host has declared traits to be leaves, they are not described by their fields. -/
theorem bestiary_overlooks_fields :
    ((bestiary []).environment.program.Declared ∧
      (bestiary []).environment.program.Hierarchy 1 ((bestiary []).environment.program.classAt 1) ∧
      (∀ j, (bestiary []).environment.kinds.kindOf? (.declared j) = none) ∧
      ((bestiary []).environment.program.classAt 1).fieldNames = ["size", "legs"] ∧
      ¬ ∃ d s₁ bases s₂, (bestiary []).describe (.declared 1) ((bestiary []).run []) = .ok d s₁ ∧
        Session.run ((bestiary []).environment.baseChain d) s₁ = .ok bases s₂ ∧
        ∀ a, a ∈ (d :: bases).flatMap Descriptor.attributes ↔ a ∈ [some "size", some "legs"]) ∧
    let leaves := bestiary [(.declared 0, .uri)]
    leaves.environment.program.Declared ∧
      leaves.environment.program.Hierarchy 0 (leaves.environment.program.classAt 0) ∧
      leaves.environment.program.Unlisted 0 ∧
      (leaves.environment.program.classAt 0).fieldNames = ["size", "legs"] ∧
      ¬ ∃ d s₁ bases s₂, leaves.describe (.declared 0) (leaves.run []) = .ok d s₁ ∧
        Session.run (leaves.environment.baseChain d) s₁ = .ok bases s₂ ∧
        ∀ a, a ∈ (d :: bases).flatMap Descriptor.attributes ↔ a ∈ [some "size", some "legs"] := by
  refine ⟨⟨bestiary_declared _, (bestiary_hierarchy _).2, fun _ => rfl, rfl, ?_⟩,
    bestiary_declared _, (bestiary_hierarchy _).1, Program.unlisted_of_all rfl, rfl, ?_⟩
  all_goals
    rintro ⟨d, s₁, bases, s₂, hdescribe, hbases, hfields⟩
    cases hdescribe
    cases hbases
    have hfound := (hfields (some "size")).mpr List.mem_cons_self
    simp [Descriptor.attributes] at hfound

end Compiler

end Schemata
