import Schemata.Declared.Declaring
import Schemata.Proofs.Declared.Lineage

/-!
# Programs made of declarations

A program is made by declaring one class or brand after the other (`Program.Declared`); the bases of
a class are declarations that are there already.  What the class inherits is settled then and never
looked at again, so that it is a matter of the classes before it.

`Program.Inherits` says what a class takes over: the classes above it, the places that a record
gives to its fields, and the fields of a record or a model.  That it does so among the classes
before it (`Declared.inherits`) is all that has to be known about declaring.
-/

namespace Schemata

open Token (indices)

/-- A declaration that comes before the class at a place, if it is a class. -/
def Token.Before (n : Nat) (t : Token) : Prop :=
  t.isDeclaration = true ∧ ∀ i ∈ t.index?, i < n

/-- What is said of each result of a list of computations, told by what it was made from. -/
theorem map_eq_of_mapM_eq_ok {ε α β γ : Type} {f : α → Except ε β} {g : β → γ} {h : α → γ}
    (hg : ∀ a b, f a = .ok b → g b = h a) {as : List α} {bs : List β} (hbs : as.mapM f = .ok bs) :
    bs.map g = as.map h := by
  induction as generalizing bs with
  | nil =>
    cases hbs
    rfl
  | cons a as ih =>
    rw [List.mapM_cons] at hbs
    obtain ⟨b, hb, hbs⟩ := exists_of_bind_eq_ok hbs
    obtain ⟨bs', hbs', hbs⟩ := exists_of_bind_eq_ok hbs
    cases hbs
    rw [List.map_cons, List.map_cons, hg a b hb, ih hbs']

theorem exists_of_map_eq_ok {ε α β : Type} {x : Except ε α} {f : α → β} {b : β}
    (h : x.map f = .ok b) : ∃ a, x = .ok a ∧ f a = b := by
  cases x with
  | ok a => exact ⟨a, rfl, Except.ok.inj h⟩
  | error e => cases h

namespace Program

/-- **A program that is made by declaring.**  Names and descriptors made by hand may be given at any
time, since no class looks at them when it is declared. -/
inductive Declared : Program → Prop
  | nothing : Declared {}
  | craft {p : Program} (hp : Declared p) (crafted : List Descriptor)
      (names : List (String × Token)) : Declared { p with crafted := crafted, names := names }
  | brand {p : Program} (hp : Declared p) (name : String) (b : Brand) :
      Declared (p.declareBrand name b)
  | derive {p q : Program} {name : String} {c : Class} {written : List Token} (hp : Declared p)
      (hbases : ∀ t ∈ c.bases, t.Before p.classes.length)
      (h : p.declareClass name c written = .ok q) : Declared q

/-- **What a class inherits** from the classes of a program. -/
structure Inherits (p : Program) (c : Class) : Prop where
  ancestry : p.linearize c.bases = .ok c.ancestry
  places : c.form = .record → p.placesOf c c.ancestry = .ok c.places
  recordFields : c.form = .record → c.recordFields = some (c.places.filterMap (·.2))
  plainPlaces : c.form = .plain →
    c.places = ((p.nearestRecord? c.ancestry).map Class.places).getD []
  plainFields : c.form = .plain →
    c.recordFields = (p.nearestRecord? c.ancestry).bind Class.recordFields
  modelFields : c.form = .model → c.modelFields = p.modelFieldsOf c c.ancestry

variable {p q : Program} {c c' : Class} {name : String} {written : List Token} {i j : Nat}

/-- What is made a record, or stays an ordinary class, was declared as one. -/
theorem form_eq_of_formOf {ancestry : List Token} {form : ClassForm}
    (h : p.formOf c ancestry = .ok form) (hform : form = .record ∨ form = .plain) :
    c.form = form := by
  unfold formOf at h
  split at h
  · cases h
    rcases hform with hform | hform <;> cases hform
  split at h
  · cases h
    rcases hform with hform | hform <;> cases hform
  split at h
  · obtain ⟨e, -, rfl⟩ := exists_of_map_eq_ok h
    rcases hform with hform | hform <;> cases hform
  · exact Except.ok.inj h

/-- **A class that has been settled inherits.** -/
theorem inherits_of_settle (h : p.settle c = .ok c') :
    p.Inherits c' ∧ c'.bases = c.bases := by
  unfold settle at h
  obtain ⟨_, -, h⟩ := exists_of_bind_eq_ok h
  obtain ⟨common, -, h⟩ := exists_of_bind_eq_ok h
  obtain ⟨ancestry, hancestry, h⟩ := exists_of_bind_eq_ok h
  obtain ⟨form, hform, h⟩ := exists_of_bind_eq_ok h
  obtain ⟨places, hplaces, h⟩ := exists_of_bind_eq_ok h
  cases form with
  | record =>
    have hdeclared := form_eq_of_formOf hform (.inl rfl)
    unfold settledPlaces at hplaces
    rw [hdeclared] at hplaces h
    cases h
    exact ⟨⟨hancestry, fun _ => hplaces, fun _ => rfl, nofun, nofun, nofun⟩, rfl⟩
  | plain =>
    have hdeclared := form_eq_of_formOf hform (.inr rfl)
    unfold settledPlaces at hplaces
    rw [hdeclared] at hplaces h
    cases h
    exact ⟨⟨hancestry, nofun, nofun, fun _ => (Except.ok.inj hplaces).symm, fun _ => rfl, nofun⟩,
      rfl⟩
  | model =>
    cases h
    exact ⟨⟨hancestry, nofun, nofun, nofun, nofun, fun _ => rfl⟩, rfl⟩
  | enumeration e =>
    cases h
    exact ⟨⟨hancestry, nofun, nofun, nofun, nofun, nofun⟩, rfl⟩

/-- What declaring a class does to the classes. -/
theorem exists_class_of_declareClass (h : p.declareClass name c written = .ok q) :
    ∃ c', p.Inherits c' ∧ c'.bases = c.bases ∧ q.classes = p.classes ++ [c'] := by
  unfold declareClass at h
  obtain ⟨c₁, hsettle, h⟩ := exists_of_bind_eq_ok h
  obtain ⟨hinherits, hbases⟩ := inherits_of_settle hsettle
  -- what a class inherits does not depend on its parameters
  have hwith (parameters : List Token) : p.Inherits { c₁ with parameters := parameters } :=
    ⟨hinherits.ancestry, hinherits.places, hinherits.recordFields, hinherits.plainPlaces,
      hinherits.plainFields, hinherits.modelFields⟩
  dsimp only at h
  split at h
  all_goals
    obtain ⟨parameters, -, h⟩ := exists_of_bind_eq_ok h
    obtain ⟨_, -, h⟩ := exists_of_bind_eq_ok h
    cases h
    exact ⟨_, hwith parameters, hbases, rfl⟩

/-- A class inherits from those before it, and its bases are among these or not declared. -/
structure Inherited (p : Program) (i : Nat) (c : Class) : Prop where
  inherits : ∃ q : Program, q.classes = p.classes.take i ∧ q.Inherits c
  bases : ∀ t ∈ c.bases, t.Before i

/-- **Every class of a program inherits from those before it.** -/
theorem Declared.inherited (hp : p.Declared) (hc : p.classes[i]? = some c) : p.Inherited i c := by
  induction hp generalizing i c with
  | nothing => cases hc
  | craft _ _ _ ih | brand _ _ _ ih =>
    obtain ⟨hinherits, hbases⟩ := ih hc
    exact ⟨hinherits, hbases⟩
  | @derive p q name c₀ written hp hbases h ih =>
    obtain ⟨c', hinherits, hbases', hclasses⟩ := exists_class_of_declareClass h
    rw [hclasses, List.getElem?_append] at hc
    split at hc
    next hlt =>
      obtain ⟨⟨r, hr, hinherits⟩, hbefore⟩ := ih hc
      refine ⟨⟨r, ?_, hinherits⟩, hbefore⟩
      rw [hclasses, List.take_append_of_le_length (Nat.le_of_lt hlt), hr]
    next hge =>
      rw [List.getElem?_singleton] at hc
      split at hc
      next hzero =>
        cases hc
        obtain rfl : i = p.classes.length := by omega
        refine ⟨⟨p, ?_, hinherits⟩, hbases' ▸ hbases⟩
        rw [hclasses, List.take_left]
      next => cases hc

/-! ## The classes above a class -/

/-- What is above a class is so whatever classes come after it. -/
theorem lineage_take (hq : q.classes = p.classes.take i) {t : Token} (ht : t.Before i) :
    q.lineage t = p.lineage t := by
  cases t with
  | declared j =>
    unfold lineage
    dsimp only
    rw [hq, List.getElem?_take_of_lt (ht.2 j rfl)]
  | _ => rfl

theorem classesAmong_take (hq : q.classes = p.classes.take i) {ts : List Token}
    (hts : ∀ j ∈ indices ts, j < i) : q.classesAmong ts = p.classesAmong ts := by
  rw [classesAmong_eq, classesAmong_eq, hq]
  exact List.filterMap_congr fun j hj => List.getElem?_take_of_lt (hts j hj)

theorem classesAmong_reverse (p : Program) (ts : List Token) :
    p.classesAmong ts.reverse = (p.classesAmong ts).reverse :=
  List.filterMap_reverse

namespace Declared

variable {b : Class} {t u : Token} (hp : p.Declared)
include hp

/-- **What is above a class** are declarations that come before it. -/
theorem before_of_mem_ancestry (hc : p.classes[i]? = some c) (ht : t ∈ c.ancestry) :
    t.Before i := by
  induction i using Nat.strongRecOn generalizing c t with
  | _ i ih =>
    obtain ⟨⟨q, hq, hinherits⟩, hbases⟩ := hp.inherited hc
    rcases mem_of_linearize hinherits.ancestry ht with ht | ⟨u, hu, ht⟩
    · exact hbases t ht
    have hbefore := hbases u hu
    rw [lineage_take hq hbefore] at ht
    cases u with
    | builtin b =>
      obtain ⟨b', -, rfl⟩ := List.mem_map.mp ht
      exact ⟨rfl, nofun⟩
    | declared j =>
      have hj : j < i := hbefore.2 j rfl
      have hi : i < p.classes.length := (List.getElem?_eq_some_iff.mp hc).1
      rw [lineage_declared (List.getElem?_eq_getElem (Nat.lt_trans hj hi))] at ht
      rcases List.mem_cons.mp ht with rfl | ht
      · exact hbefore
      · obtain ⟨hdeclaration, hk⟩ := ih j hj (List.getElem?_eq_getElem _) ht
        exact ⟨hdeclaration, fun k hmem => Nat.lt_trans (hk k hmem) hj⟩
    | brand k => cases ht
    | _ => cases hbefore.1

theorem lt_of_mem_indices (hc : p.classes[i]? = some c) (hj : j ∈ indices c.ancestry) : j < i :=
  (hp.before_of_mem_ancestry hc (Token.mem_indices.mp hj)).2 j rfl

/-- The lineage of a declaration that is there is made of declarations. -/
theorem isDeclaration_of_mem_lineage (ht : t.Before p.classes.length) (hu : u ∈ p.lineage t) :
    u.isDeclaration = true := by
  cases t with
  | builtin b =>
    obtain ⟨b', -, rfl⟩ := List.mem_map.mp hu
    rfl
  | declared j =>
    have hc := List.getElem?_eq_getElem (ht.2 j rfl)
    rw [lineage_declared hc] at hu
    rcases List.mem_cons.mp hu with rfl | hu
    · rfl
    · exact (hp.before_of_mem_ancestry hc hu).1
  | brand k => cases hu
  | _ => cases ht.1

/-- The lineages that are merged for a class are made of declarations. -/
theorem declarations_of_bases (hc : p.classes[i]? = some c) (hq : q.classes = p.classes.take i)
    (ht : t ∈ c.bases) :
    t.isDeclaration = true ∧ ∀ u ∈ q.lineage t, u.isDeclaration = true := by
  have hbefore := (hp.inherited hc).bases t ht
  have hi : i < p.classes.length := (List.getElem?_eq_some_iff.mp hc).1
  refine ⟨hbefore.1, fun u hu => ?_⟩
  rw [lineage_take hq hbefore] at hu
  exact hp.isDeclaration_of_mem_lineage
    ⟨hbefore.1, fun j hj => Nat.lt_trans (hbefore.2 j hj) hi⟩ hu

/-- **A class without a declared base** has no declared class above it. -/
theorem classesAmong_of_none (hc : p.classes[i]? = some c) (hnone : indices c.bases = []) :
    p.classesAmong c.ancestry = [] := by
  obtain ⟨⟨q, hq, hinherits⟩, -⟩ := hp.inherited hc
  have hindices := indices_linearize_of_none (fun _ => hp.declarations_of_bases hc hq) hnone
    hinherits.ancestry
  rw [classesAmong_eq, hindices]
  rfl

/-- The declared base of a class comes before it. -/
theorem lt_of_single (hc : p.classes[i]? = some c) (hj : indices c.bases = [j]) : j < i :=
  ((hp.inherited hc).bases _ (Token.mem_indices.mp (hj ▸ List.mem_singleton_self j))).2 j rfl

/-- **A class with one declared base** has that class above it, and the classes above that. -/
theorem indices_of_single (hc : p.classes[i]? = some c) (hj : indices c.bases = [j])
    (hb : p.classes[j]? = some b) : indices c.ancestry = j :: indices b.ancestry := by
  obtain ⟨⟨q, hq, hinherits⟩, -⟩ := hp.inherited hc
  have hget : q.classes[j]? = some b := by
    rw [hq, List.getElem?_take_of_lt (hp.lt_of_single hc hj), hb]
  exact indices_linearize_of_single (fun _ => hp.declarations_of_bases hc hq) hj hget
    hinherits.ancestry

/-- Whatever is in the lineage of the base is in the lineage of the class. -/
theorem mem_lineage_of_single (hc : p.classes[i]? = some c) (hj : indices c.bases = [j])
    (hb : p.classes[j]? = some b) {k : Nat} (hk : .declared k ∈ p.lineage (.declared j)) :
    .declared k ∈ p.lineage (.declared i) := by
  rw [lineage_declared hb] at hk
  rw [lineage_declared hc]
  have hmem : k ∈ j :: indices b.ancestry := Token.mem_indices.mpr hk
  rw [← hp.indices_of_single hc hj hb] at hmem
  exact List.mem_cons_of_mem _ (Token.mem_indices.mp hmem)

theorem classesAmong_of_single (hc : p.classes[i]? = some c) (hj : indices c.bases = [j])
    (hb : p.classes[j]? = some b) :
    p.classesAmong c.ancestry = b :: p.classesAmong b.ancestry := by
  rw [classesAmong_eq, classesAmong_eq, hp.indices_of_single hc hj hb]
  exact List.filterMap_cons_some hb

/-! ## What a class takes over -/

omit hp in
/-- A field is declared under its name. -/
theorem name_of_recordFieldOf {ancestry : List Token} {f : Field} {g : RecordField}
    (h : p.recordFieldOf ancestry f = .ok g) : g.name = f.name := by
  unfold recordFieldOf at h
  split at h
  · cases h
    rfl
  split at h
  · cases h
    rfl
  obtain ⟨_, -, h⟩ := exists_of_bind_eq_ok h
  cases h
  rfl

omit hp in
/-- What a record declares: a place for each name, which holds a field or, for what is no field,
nothing. -/
theorem place_of_field {ancestry : List Token} {f : Field} {e : String × Option RecordField}
    (h : (if f.type.isPseudoField then (checkPseudoField f).map fun _ => (f.name, none)
      else (p.recordFieldOf ancestry f).map fun g => (f.name, some g)) = Except.ok e) :
    (e.1, e.2.isSome) = (f.name, !f.type.isPseudoField) ∧ ∀ g ∈ e.2, g.name = e.1 := by
  by_cases hpseudo : f.type.isPseudoField = true
  · rw [if_pos hpseudo] at h
    obtain ⟨_, -, rfl⟩ := exists_of_map_eq_ok h
    simp [hpseudo]
  · rw [if_neg hpseudo] at h
    obtain ⟨g, hg, rfl⟩ := exists_of_map_eq_ok h
    simp [hpseudo, name_of_recordFieldOf hg]

/-- **The places of a record** are those of the records above it, and then its own. -/
theorem exists_places_of_record (hc : p.classes[i]? = some c) (hform : c.form = .record) :
    ∃ own : List (String × Option RecordField),
      c.places = setKeys ((p.classesAmong c.ancestry).reverse.flatMap Class.places ++ own) [] ∧
      own.map (fun e => (e.1, e.2.isSome)) =
        c.fields.map (fun f => (f.name, !f.type.isPseudoField)) ∧
      ∀ e ∈ own, ∀ g ∈ e.2, g.name = e.1 := by
  obtain ⟨⟨q, hq, hinherits⟩, -⟩ := hp.inherited hc
  obtain ⟨own, hown, hplaces⟩ := exists_of_bind_eq_ok (hinherits.places hform)
  have hsame := classesAmong_take hq fun j => hp.lt_of_mem_indices hc
  refine ⟨own, ?_, map_eq_of_mapM_eq_ok (fun f e he => (place_of_field he).1) hown, fun e he => ?_⟩
  · rw [← hsame, ← classesAmong_reverse]
    exact (Except.ok.inj hplaces).symm
  · obtain ⟨f, -, hf⟩ := exists_of_mem_mapM hown he
    exact (place_of_field hf).2

theorem recordFields_of_record (hc : p.classes[i]? = some c) (hform : c.form = .record) :
    c.recordFields = some (c.places.filterMap (·.2)) := by
  obtain ⟨⟨q, -, hinherits⟩, -⟩ := hp.inherited hc
  exact hinherits.recordFields hform

/-- **The fields of a class that is no record** but derived from one are those of the nearest. -/
theorem places_of_plain (hc : p.classes[i]? = some c) (hform : c.form = .plain) :
    c.places = ((p.nearestRecord? c.ancestry).map Class.places).getD [] ∧
      c.recordFields = (p.nearestRecord? c.ancestry).bind Class.recordFields := by
  obtain ⟨⟨q, hq, hinherits⟩, -⟩ := hp.inherited hc
  have hnearest : q.nearestRecord? c.ancestry = p.nearestRecord? c.ancestry := by
    unfold nearestRecord?
    rw [classesAmong_take hq fun j => hp.lt_of_mem_indices hc]
  rw [← hnearest]
  exact ⟨hinherits.plainPlaces hform, hinherits.plainFields hform⟩

/-- **The fields of a model** are what it and the classes above it declare. -/
theorem modelFields_of_model (hc : p.classes[i]? = some c) (hform : c.form = .model) :
    c.modelFields = p.modelFieldsOf c c.ancestry := by
  obtain ⟨⟨q, hq, hinherits⟩, -⟩ := hp.inherited hc
  rw [hinherits.modelFields hform]
  unfold modelFieldsOf modelPlaces
  rw [classesAmong_reverse, classesAmong_reverse,
    classesAmong_take hq fun j => hp.lt_of_mem_indices hc]

end Declared

/-! ## Declaring what can be declared -/

/-- The class at a place of a program. -/
def classAt (p : Program) (i : Nat) : Class :=
  (p.classes[i]?).getD default

theorem getElem?_classAt (hi : i < p.classes.length) : p.classes[i]? = some (p.classAt i) := by
  unfold classAt
  rw [List.getElem?_eq_getElem hi]
  rfl

/-- A program with a class declared, if it can be. -/
def declaring (p : Program) (c : Class) : Program :=
  (p.declareClass c.name c c.bases).toOption.getD p

theorem Declared.declaring (hp : p.Declared) (hbases : ∀ t ∈ c.bases, t.Before p.classes.length) :
    (p.declaring c).Declared := by
  unfold Program.declaring
  cases h : p.declareClass c.name c c.bases with
  | ok q => exact .derive hp hbases h
  | error e => exact hp

end Program

end Schemata
