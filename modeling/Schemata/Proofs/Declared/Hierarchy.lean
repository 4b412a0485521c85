import Schemata.Declared.Evaluation
import Schemata.Proofs.Declared.Settling
import Schemata.Proofs.Registry.Growth
import Schemata.Proofs.Value.Mapping

/-!
# Which fields does a class take over?

A hierarchy of records, or of models, is a class with the classes above it, each of which keeps
fields as a record does or as a model does and has at most one base besides mere roots
(`Program.Hierarchy`).  A class may give fields of its own, and it may declare a field again that
stands above it; it may also be an ordinary class, which adds nothing to the fields of the record
that it is derived from, whatever it declares.  What a record only takes when it is made is no
field.

A root may be that of all enumerations.  A class below it has members and still keeps the fields of
a record that is mixed into it; most of what follows is about classes that are no enumerations
(`Program.Unlisted`).

**The fields of a class are those of its base, and some that it declares itself**
(`Hierarchy.extends_of_next`).  The one thing that could take a field away is something else that is
declared with its name, and in a hierarchy no class declares that.

Fields are not added up along a hierarchy in the same way.  A record keeps the places that it and
the records above it give to names, so that the places of its base say all that those above the base
say (`Placed`).  A model looks at what each class above it declares.  Either way a name is looked up
in what the class declares itself first, and then in what is above.
-/

namespace Schemata

open Token (indices)

/-! ## Places that may be empty -/

section Places

variable {α : Type} {label : α → String} {name : String} {m : List (String × Option α)}

theorem getKey?_setKeys_map {α β : Type} (g : α → β) (name : String) (es : List (String × α)) :
    getKey? name (setKeys (es.map fun e => (e.1, g e.2)) []) =
      (getKey? name (setKeys es [])).map g := by
  rw [getKey?_setKeys_nil, getKey?_setKeys_nil, List.filter_map, List.getLast?_map, Option.map_map,
    Option.map_map]
  rfl

/-- What is set is what was given. -/
theorem mem_of_mem_setKeys {α : Type} {es : List (String × α)} {e : String × α}
    (h : e ∈ setKeys es []) : e ∈ es := by
  have hget := getKey?_of_mem (keysApart_setKeys es) h
  rw [getKey?_setKeys_nil] at hget
  obtain ⟨⟨key, held⟩, hlast, hheld⟩ := Option.map_eq_some_iff.mp hget
  obtain ⟨hmem, hkey⟩ := List.mem_filter.mp (List.mem_of_getLast? hlast)
  obtain rfl : key = e.1 := eq_of_beq hkey
  obtain rfl : held = e.2 := hheld
  exact hmem

/-- The names of what stands in its place. -/
theorem mem_standing_iff (hm : KeysApart m) (hlabel : ∀ e ∈ m, ∀ a ∈ e.2, label a = e.1) :
    name ∈ (m.filterMap (·.2)).map label ↔ (getKey? name m).map Option.isSome = some true := by
  constructor
  · intro h
    obtain ⟨a, ha, rfl⟩ := List.mem_map.mp h
    obtain ⟨⟨key, held⟩, he, rfl⟩ := List.mem_filterMap.mp ha
    obtain rfl : label a = key := hlabel _ he a rfl
    simp [getKey?_of_mem hm he]
  · intro h
    obtain ⟨held, hget, hsome⟩ := Option.map_eq_some_iff.mp h
    obtain ⟨a, rfl⟩ := Option.isSome_iff_exists.mp hsome
    have hmem := mem_of_getKey? hget
    exact List.mem_map.mpr ⟨a, List.mem_filterMap.mpr ⟨_, hmem, rfl⟩, hlabel _ hmem a rfl⟩

/-- What stands in its place has a name of its own. -/
theorem nodup_standing (hm : KeysApart m) (hlabel : ∀ e ∈ m, ∀ a ∈ e.2, label a = e.1) :
    ((m.filterMap (·.2)).map label).Nodup := by
  rw [List.Nodup, List.pairwise_map, List.pairwise_filterMap]
  refine hm.imp_of_mem fun {e e'} he he' hapart a ha a' ha' heq => ?_
  have hkeys : e.1 = e'.1 := by rw [← hlabel e he a ha, heq, hlabel e' he' a' ha']
  simp [hkeys] at hapart

end Places

/-! ## Hierarchies -/

/-- A type that says nothing about a class that is derived from it. -/
def Token.isRoot : Token → Bool
  | .builtin b => b.isRoot
  | _ => false

namespace Class

/-- The bases of a class that are no mere roots. -/
def outer (c : Class) : List Token :=
  c.bases.filter fun t => !t.isRoot

/-- **The names of the fields of a class**, its own and those that it takes over. -/
def fieldNames (c : Class) : List String :=
  match c.form with
  | .model => c.modelFields.map ModelField.name
  | _ => (c.recordFields.getD []).map RecordField.name

/-- A class that is told by its members. -/
def isEnumeration (c : Class) : Bool :=
  match c.form with
  | .enumeration _ => true
  | _ => false

/-- A class that keeps the fields of a record: it is made one itself, or a class above it is. -/
structure KeepsFields (c : Class) : Prop where
  not_model : c.form ≠ .model
  fields : c.recordFields.isSome = true

/-- A class that keeps fields in the way that the class above it does. -/
def Continues (c b : Class) : Prop :=
  match b.form with
  | .model => c.form = .model
  | _ => c.KeepsFields

/-- **The fields of a class are those of its base and some of its own.** -/
structure Extends (c b : Class) : Prop where
  keeps : ∀ name ∈ b.fieldNames, name ∈ c.fieldNames
  adds : ∀ name ∈ c.fieldNames, name ∈ c.fields.map Field.name ∨ name ∈ b.fieldNames

/-- What a class that may be a record or a model declares: names, and whether each is a field. -/
def marks (keep : Field → Bool) (c : Class) : List (String × Bool) :=
  c.fields.map fun f => (f.name, keep f)

variable {c b : Class} {keep : Field → Bool} {name : String}

theorem Continues.of_model (h : c.Continues b) (hb : b.form = .model) : c.form = .model := by
  unfold Continues at h
  rwa [hb] at h

theorem Continues.of_not_model (h : c.Continues b) (hb : b.form ≠ .model) : c.KeepsFields := by
  unfold Continues at h
  split at h
  next hmodel => exact absurd hmodel hb
  next => exact h

theorem keepsFields_of_form (hform : c.form = .record ∨ c.form = .plain)
    (hfields : c.recordFields.isSome = true) : c.KeepsFields := by
  refine ⟨fun hmodel => ?_, hfields⟩
  rw [hmodel] at hform
  rcases hform with hform | hform <;> cases hform

/-- What keeps the fields of a record and is no enumeration. -/
theorem KeepsFields.form (h : c.KeepsFields) (hlisted : c.isEnumeration = false) :
    c.form = .record ∨ c.form = .plain := by
  have hmodel := h.not_model
  unfold isEnumeration at hlisted
  cases hform : c.form with
  | record => exact .inl rfl
  | plain => exact .inr rfl
  | model => exact absurd hform hmodel
  | enumeration e =>
    rw [hform] at hlisted
    cases hlisted

/-- The marks of a class are on the names that it declares. -/
theorem exists_field_of_mark {mark : Bool}
    (h : getKey? name (setKeys (c.marks keep) []) = some mark) :
    ∃ f ∈ c.fields, f.name = name ∧ keep f = mark := by
  obtain ⟨f, hf, heq⟩ := List.mem_map.mp (mem_of_mem_setKeys (mem_of_getKey? h))
  obtain ⟨rfl, rfl⟩ := Prod.mk.inj heq
  exact ⟨f, hf, rfl, rfl⟩

/-- **A name is looked up in what a class declares itself**, and then in what is above.  If no name
of a field that is above is declared to be something else, then all of these fields are kept. -/
theorem extends_of_marks {above : String → Option Bool}
    (hc : ∀ name, name ∈ c.fieldNames ↔
      (getKey? name (setKeys (c.marks keep) [])).or (above name) = some true)
    (hb : ∀ name, name ∈ b.fieldNames ↔ above name = some true)
    (hkept : ∀ f ∈ c.fields, f.name ∈ b.fieldNames → keep f = true) : c.Extends b where
  keeps := by
    intro name hname
    rw [hc]
    cases hmark : getKey? name (setKeys (c.marks keep) []) with
    | none => exact (hb name).mp hname
    | some mark =>
      obtain ⟨f, hf, rfl, rfl⟩ := exists_field_of_mark hmark
      simp [hkept f hf hname]
  adds := by
    intro name hname
    rw [hc] at hname
    cases hmark : getKey? name (setKeys (c.marks keep) []) with
    | none =>
      rw [hmark] at hname
      exact .inr ((hb name).mpr hname)
    | some mark =>
      obtain ⟨f, hf, rfl, -⟩ := exists_field_of_mark hmark
      exact .inl (List.mem_map_of_mem hf)

end Class

namespace Program

/-- The annotations of a class mention nothing that stands for nothing. -/
def Resolves (p : Program) (i : Nat) (c : Class) : Prop :=
  match c.form with
  | .model => ∀ f ∈ c.modelFields, ∃ t, p.fieldType c (.declared i) f.type = .ok t
  | _ => ∃ hints, p.hints (.declared i) c = .ok hints

/-- The annotations of a model are looked up one by one. -/
theorem resolves_of_all {p : Program} {i : Nat} {c : Class} (hform : c.form = .model)
    (hall : (c.modelFields.all fun f =>
      (p.fieldType c (.declared i) f.type).toOption.isSome) = true) : p.Resolves i c := by
  unfold Resolves
  rw [hform]
  intro f hf
  have hsome := List.all_eq_true.mp hall f hf
  cases ht : p.fieldType c (.declared i) f.type with
  | ok t => exact ⟨t, rfl⟩
  | error e =>
    rw [ht] at hsome
    cases hsome

/-- **A hierarchy of records or of models**, from the first class down to one that is given by its
place.  Every class has at most one base that is no mere root: the class above it in the hierarchy
or, in case of the first, a builtin one.  No class declares what is no field by the name of a field
that it would take over. -/
inductive Hierarchy (p : Program) : Nat → Class → Prop
  | first {i : Nat} {c : Class} (hc : p.classes[i]? = some c)
      (hform : c.KeepsFields ∨ c.form = .model)
      (houter : c.outer = [] ∨ ∃ b, c.outer = [.builtin b]) (hresolves : p.Resolves i c) :
      Hierarchy p i c
  | next {i j : Nat} {c b : Class} (hc : p.classes[i]? = some c) (habove : Hierarchy p j b)
      (hform : c.Continues b) (houter : c.outer = [.declared j])
      (hkept : ∀ f ∈ c.fields, f.type.isPseudoField = true → f.name ∉ b.fieldNames)
      (hresolves : p.Resolves i c) : Hierarchy p i c

/-- Neither a class nor a class above it is an enumeration. -/
def Unlisted (p : Program) (i : Nat) : Prop :=
  ∀ b ∈ p.classesAmong (p.lineage (.declared i)), b.isEnumeration = false

variable {p : Program} {i j : Nat} {c b : Class} {name : String}

theorem Hierarchy.declared (h : p.Hierarchy i c) : p.classes[i]? = some c := by
  cases h with
  | first hc | next hc => exact hc

theorem Hierarchy.resolves (h : p.Hierarchy i c) : p.Resolves i c := by
  cases h with
  | first _ _ _ hresolves | next _ _ _ _ _ hresolves => exact hresolves

/-- Roots are builtin, so that a declared base is none. -/
theorem indices_outer (c : Class) : indices c.outer = indices c.bases := by
  unfold Class.outer Token.indices
  rw [List.filterMap_filter]
  refine List.filterMap_congr fun t _ => ?_
  cases t with
  | builtin b =>
    show (if _ then _ else _) = _
    split <;> rfl
  | _ => rfl

/-- The first class of a hierarchy has no declared base. -/
theorem indices_bases_of_first (houter : c.outer = [] ∨ ∃ b, c.outer = [.builtin b]) :
    indices c.bases = [] := by
  rw [← indices_outer]
  rcases houter with houter | ⟨b, houter⟩ <;> rw [houter] <;> rfl

/-- The one declared base of another class. -/
theorem indices_bases_of_next (houter : c.outer = [.declared j]) : indices c.bases = [j] := by
  rw [← indices_outer, houter]
  rfl

theorem unlisted_of_all (hall : ((p.classesAmong (p.lineage (.declared i))).all fun b =>
    !b.isEnumeration) = true) : p.Unlisted i := by
  intro b hb
  simpa using List.all_eq_true.mp hall b hb

namespace Unlisted

theorem not_isEnumeration (h : p.Unlisted i) (hc : p.classes[i]? = some c) :
    c.isEnumeration = false := by
  refine h c ?_
  rw [lineage_declared hc]
  exact List.mem_filterMap.mpr ⟨.declared i, List.mem_cons_self, hc⟩

/-- What is above a class is so whatever is derived from it. -/
theorem of_single (h : p.Unlisted i) (hp : p.Declared) (hc : p.classes[i]? = some c)
    (hj : indices c.bases = [j]) (hb : p.classes[j]? = some b) : p.Unlisted j := by
  intro k hk
  obtain ⟨t, ht, hget⟩ := List.mem_filterMap.mp hk
  cases t with
  | declared n =>
    exact h k (List.mem_filterMap.mpr ⟨_, hp.mem_lineage_of_single hc hj hb ht, hget⟩)
  | _ => cases hget

end Unlisted

/-! ## Records -/

/-- The places that the classes above a class give to names. -/
def placesAbove (p : Program) (c : Class) : List (String × Option RecordField) :=
  (p.classesAmong c.ancestry).reverse.flatMap Class.places

/-- **The places of a record** hold its fields, each under its name, and say all that those of the
classes above it say. -/
structure Placed (p : Program) (c : Class) : Prop where
  form : c.form = .record ∨ c.form = .plain
  fields : c.recordFields = some (c.places.filterMap (·.2))
  settled : setKeys c.places [] = c.places
  named : ∀ e ∈ p.placesAbove c ++ c.places, ∀ f ∈ e.2, f.name = e.1
  covers : ∀ name, getKey? name (setKeys (p.placesAbove c ++ c.places) []) = getKey? name c.places

namespace Placed

theorem apart (h : p.Placed c) : KeysApart c.places :=
  h.settled ▸ keysApart_setKeys c.places

theorem name_of_mem (h : p.Placed c) : ∀ e ∈ c.places, ∀ f ∈ e.2, f.name = e.1 :=
  fun e he => h.named e (List.mem_append_right _ he)

theorem fieldNames_eq (h : p.Placed c) :
    c.fieldNames = (c.places.filterMap (·.2)).map RecordField.name := by
  unfold Class.fieldNames
  rcases h.form with hform | hform <;> rw [hform, h.fields] <;> rfl

theorem mem_fieldNames (h : p.Placed c) :
    name ∈ c.fieldNames ↔ (getKey? name c.places).map Option.isSome = some true := by
  rw [h.fieldNames_eq]
  exact mem_standing_iff h.apart h.name_of_mem

theorem nodup (h : p.Placed c) : c.fieldNames.Nodup := by
  rw [h.fieldNames_eq]
  exact nodup_standing h.apart h.name_of_mem

end Placed

section Records

variable (hp : p.Declared)
include hp

/-- Where a record looks a name up: in what it declares itself, and then in what is above. -/
theorem Declared.getKey?_places (hc : p.classes[i]? = some c) (hform : c.form = .record)
    (name : String) : (getKey? name c.places).map Option.isSome =
      (getKey? name (setKeys (c.marks fun f => !f.type.isPseudoField) [])).or
        ((getKey? name (setKeys (p.placesAbove c) [])).map Option.isSome) := by
  obtain ⟨own, hplaces, hmarks, -⟩ := hp.exists_places_of_record hc hform
  unfold Class.marks
  rw [← hmarks, getKey?_setKeys_map, hplaces, getKey?_setKeys_append, Option.map_or]
  rfl

/-- **A record has its fields in places**, if what is above it has. -/
theorem Declared.placed_of_record (hc : p.classes[i]? = some c) (hform : c.form = .record)
    (habove : ∀ e ∈ p.placesAbove c, ∀ f ∈ e.2, f.name = e.1) : p.Placed c := by
  obtain ⟨own, hplaces, -, hown⟩ := hp.exists_places_of_record hc hform
  have hsettled : setKeys c.places [] = c.places := by rw [hplaces, setKeys_setKeys]
  refine ⟨.inl hform, hp.recordFields_of_record hc hform, hsettled, fun e he => ?_, fun name => ?_⟩
  · rcases List.mem_append.mp he with he | he
    · exact habove e he
    rw [hplaces] at he
    rcases List.mem_append.mp (mem_of_mem_setKeys he) with he | he
    · exact habove e he
    · exact hown e he
  · -- what is above says nothing that the record does not say itself
    rw [getKey?_setKeys_append, hsettled, hplaces, getKey?_setKeys_append]
    unfold placesAbove
    cases getKey? name (setKeys own []) with
    | some held => rfl
    | none => exact Option.or_self

/-- What keeps the fields of a record and has no declared base is made a record itself. -/
theorem Declared.record_of_first (hc : p.classes[i]? = some c) (hkeeps : c.KeepsFields)
    (hlisted : c.isEnumeration = false)
    (houter : c.outer = [] ∨ ∃ b, c.outer = [.builtin b]) : c.form = .record := by
  refine (hkeeps.form hlisted).resolve_right fun hplain => ?_
  have hfields := hkeeps.fields
  rw [(hp.places_of_plain hc hplain).2, nearestRecord?,
    hp.classesAmong_of_none hc (indices_bases_of_first houter)] at hfields
  cases hfields

/-- What is above a class is its base and what is above that. -/
theorem Declared.placesAbove_of_single (hc : p.classes[i]? = some c)
    (houter : c.outer = [.declared j]) (hb : p.classes[j]? = some b) :
    p.placesAbove c = p.placesAbove b ++ b.places := by
  have hj := indices_bases_of_next houter
  unfold placesAbove
  rw [hp.classesAmong_of_single hc hj hb, List.reverse_cons, List.flatMap_append,
    List.flatMap_singleton]

/-- **An ordinary class** below a record keeps the places of that record. -/
theorem Declared.placed_of_plain (hc : p.classes[i]? = some c) (hform : c.form = .plain)
    (houter : c.outer = [.declared j]) (hb : p.classes[j]? = some b) (h : p.Placed b) :
    p.Placed c ∧ c.fieldNames = b.fieldNames := by
  have hj := indices_bases_of_next houter
  have hnearest : p.nearestRecord? c.ancestry = some b := by
    unfold nearestRecord?
    rw [hp.classesAmong_of_single hc hj hb]
    exact List.find?_cons_of_pos (by simp [h.fields])
  obtain ⟨hplaces, hfields⟩ := hp.places_of_plain hc hform
  rw [hnearest] at hplaces hfields
  have habove := hp.placesAbove_of_single hc houter hb
  have hplaced : p.Placed c := by
    refine ⟨.inr hform, ?_, ?_, ?_, fun name => ?_⟩
    · exact hplaces ▸ hfields.trans h.fields
    · exact hplaces ▸ h.settled
    · rw [habove, hplaces]
      exact fun e he => h.named e ((List.mem_append.mp he).elim id (List.mem_append_right _))
    · rw [habove, hplaces]
      show getKey? name (setKeys (_ ++ b.places) []) = getKey? name b.places
      rw [getKey?_setKeys_append, h.settled, h.covers, Option.or_self]
  refine ⟨hplaced, ?_⟩
  rw [hplaced.fieldNames_eq, h.fieldNames_eq, hplaces]
  rfl

namespace Hierarchy

/-- **The records of a hierarchy have their fields in places.** -/
theorem placed (h : p.Hierarchy i c) (hlisted : p.Unlisted i) (hform : c.form ≠ .model) :
    p.Placed c := by
  induction h with
  | @first i c hc hsort houter _ =>
    have hrecord := hp.record_of_first hc (hsort.resolve_right hform)
      (hlisted.not_isEnumeration hc) houter
    have hnone := hp.classesAmong_of_none hc (indices_bases_of_first houter)
    exact hp.placed_of_record hc hrecord (by simp [placesAbove, hnone])
  | @next i j c b hc habove hsort houter _ _ ih =>
    have hb : b.form ≠ .model := fun hb => hform (hsort.of_model hb)
    have hplaced := ih (hlisted.of_single hp hc (indices_bases_of_next houter) habove.declared) hb
    rcases (hsort.of_not_model hb).form (hlisted.not_isEnumeration hc) with hrecord | hplain
    · refine hp.placed_of_record hc hrecord ?_
      rw [hp.placesAbove_of_single hc houter habove.declared]
      exact hplaced.named
    · exact (hp.placed_of_plain hc hplain houter habove.declared hplaced).1

/-- The fields of a record, or of an ordinary class below one, and those of its base. -/
theorem extends_of_record (hc : p.classes[i]? = some c) (hlisted : p.Unlisted i)
    (habove : p.Hierarchy j b) (hsort : c.Continues b) (houter : c.outer = [.declared j])
    (hkept : ∀ f ∈ c.fields, f.type.isPseudoField = true → f.name ∉ b.fieldNames)
    (hb : b.form ≠ .model) : c.Extends b := by
  have hplaced := habove.placed hp
    (hlisted.of_single hp hc (indices_bases_of_next houter) habove.declared) hb
  rcases (hsort.of_not_model hb).form (hlisted.not_isEnumeration hc) with hrecord | hplain
  · have hplacesAbove := hp.placesAbove_of_single hc houter habove.declared
    have hc' : p.Placed c := hp.placed_of_record hc hrecord (hplacesAbove ▸ hplaced.named)
    have hmarks (name : String) : name ∈ c.fieldNames ↔
        (getKey? name (setKeys (c.marks fun f => !f.type.isPseudoField) [])).or
          ((getKey? name b.places).map Option.isSome) = some true := by
      rw [hc'.mem_fieldNames, hp.getKey?_places hc hrecord, hplacesAbove, hplaced.covers]
    refine Class.extends_of_marks hmarks (fun name => hplaced.mem_fieldNames) fun f hf hname => ?_
    simpa using fun hvariable => hkept f hf hvariable hname
  · have hsame := (hp.placed_of_plain hc hplain houter habove.declared hplaced).2
    exact ⟨fun name h => hsame ▸ h, fun name h => .inr (hsame ▸ h)⟩

end Hierarchy

end Records

/-! ## Models -/

/-- What the classes above a class declare, if they are models. -/
def marksAbove (p : Program) (c : Class) : List (String × Bool) :=
  (p.classesAmong c.ancestry).reverse.flatMap (Class.marks isModelField)

theorem modelPlace_marks (make : Field → ModelField) (fs : List Field) :
    (fs.map (modelPlace make)).map (fun e => (e.1, e.2.isSome)) =
      fs.map fun f => (f.name, isModelField f) := by
  rw [List.map_map]
  refine List.map_congr_left fun f _ => ?_
  unfold modelPlace
  dsimp only [Function.comp_apply]
  cases isModelField f <;> rfl

/-- The places of a model are those that it and the classes above it declare. -/
theorem modelPlaces_marks (p : Program) (c : Class) :
    (p.modelPlaces c c.ancestry).map (fun e => (e.1, e.2.isSome)) =
      p.marksAbove c ++ c.marks isModelField := by
  unfold modelPlaces marksAbove
  rw [List.map_append, modelPlace_marks, classesAmong_reverse, List.map_flatMap]
  simp only [modelPlace_marks]
  rfl

theorem name_of_modelPlace {make : Field → ModelField} (hmake : ∀ f, (make f).name = f.name)
    {fs : List Field} {e : String × Option ModelField} (he : e ∈ fs.map (modelPlace make)) :
    ∀ g ∈ e.2, g.name = e.1 := by
  obtain ⟨f, -, rfl⟩ := List.mem_map.mp he
  intro g hg
  unfold modelPlace at hg
  dsimp only at hg
  split at hg
  · cases hg
    exact hmake f
  · cases hg

/-- The fields of a model stand in places of their names. -/
theorem name_of_modelPlaces (p : Program) (c : Class) :
    ∀ e ∈ p.modelPlaces c c.ancestry, ∀ g ∈ e.2, g.name = e.1 := by
  intro e he
  rcases List.mem_append.mp he with he | he
  · obtain ⟨k, -, he⟩ := List.mem_flatMap.mp he
    refine name_of_modelPlace (fun f => ?_) he
    -- a field that is taken over is found under its name
    cases hget : getKey? f.name (setKeys ((p.classesAmong c.ancestry.reverse).flatMap fun c =>
      c.modelFields.map fun f => (f.name, f)) []) with
    | none => rfl
    | some g =>
      obtain ⟨k, -, hg⟩ := List.mem_flatMap.mp (mem_of_mem_setKeys (mem_of_getKey? hget))
      obtain ⟨g', -, heq⟩ := List.mem_map.mp hg
      obtain ⟨hname, rfl⟩ := Prod.mk.inj heq
      exact hname
  · exact name_of_modelPlace (fun _ => rfl) he

namespace Hierarchy

variable (hp : p.Declared)
include hp

theorem fieldNames_of_model (hc : p.classes[i]? = some c) (hform : c.form = .model) :
    c.fieldNames = ((setKeys (p.modelPlaces c c.ancestry) []).filterMap (·.2)).map
      ModelField.name := by
  unfold Class.fieldNames
  rw [hform, hp.modelFields_of_model hc hform]
  rfl

/-- **Where a model looks a name up**: in what it and the classes above it declare. -/
theorem mem_fieldNames_of_model (hc : p.classes[i]? = some c) (hform : c.form = .model) :
    name ∈ c.fieldNames ↔
      getKey? name (setKeys (p.marksAbove c ++ c.marks isModelField) []) = some true := by
  rw [fieldNames_of_model hp hc hform, ← modelPlaces_marks, getKey?_setKeys_map]
  refine mem_standing_iff (keysApart_setKeys _) fun e he => ?_
  exact name_of_modelPlaces p c e (mem_of_mem_setKeys he)

theorem nodup_of_model (hc : p.classes[i]? = some c) (hform : c.form = .model) :
    c.fieldNames.Nodup := by
  rw [fieldNames_of_model hp hc hform]
  refine nodup_standing (keysApart_setKeys _) fun e he => ?_
  exact name_of_modelPlaces p c e (mem_of_mem_setKeys he)

/-- The names of the fields of a model start with no underscore. -/
theorem not_startsWith_of_mem (hc : p.classes[i]? = some c) (hform : c.form = .model)
    (hname : name ∈ c.fieldNames) : name.startsWith "_" = false := by
  rw [mem_fieldNames_of_model hp hc hform] at hname
  have hmem := mem_of_mem_setKeys (mem_of_getKey? hname)
  have hfield : ∃ f, f.name = name ∧ isModelField f = true := by
    rcases List.mem_append.mp hmem with hmem | hmem
    · obtain ⟨k, -, hmem⟩ := List.mem_flatMap.mp hmem
      obtain ⟨f, -, heq⟩ := List.mem_map.mp hmem
      exact ⟨f, Prod.mk.inj heq⟩
    · obtain ⟨f, -, heq⟩ := List.mem_map.mp hmem
      exact ⟨f, Prod.mk.inj heq⟩
  obtain ⟨f, rfl, hf⟩ := hfield
  unfold isModelField at hf
  simp at hf
  simp [hf.2]

/-- The fields of a model and those of its base. -/
theorem extends_of_model (hc : p.classes[i]? = some c) (hform : c.form = .model)
    (houter : c.outer = [.declared j]) (hb : p.classes[j]? = some b) (hbase : b.form = .model)
    (hkept : ∀ f ∈ c.fields, f.type.isPseudoField = true → f.name ∉ b.fieldNames) :
    c.Extends b := by
  have hj := indices_bases_of_next houter
  have habove : p.marksAbove c = p.marksAbove b ++ b.marks isModelField := by
    unfold marksAbove
    rw [hp.classesAmong_of_single hc hj hb, List.reverse_cons, List.flatMap_append,
      List.flatMap_singleton]
  have hmarks (name : String) : name ∈ c.fieldNames ↔
      (getKey? name (setKeys (c.marks isModelField) [])).or
        (getKey? name (setKeys (p.marksAbove b ++ b.marks isModelField) [])) = some true := by
    rw [mem_fieldNames_of_model hp hc hform, getKey?_setKeys_append, habove]
  refine Class.extends_of_marks hmarks (fun _ => mem_fieldNames_of_model hp hb hbase)
    fun f hf hname => ?_
  have hvariable : f.type.isClassVar = false := by
    refine Bool.eq_false_iff.mpr fun h => hkept f hf ?_ hname
    unfold TypeExpr.isPseudoField
    rw [h, Bool.true_or]
  simp [isModelField, hvariable, not_startsWith_of_mem hp hb hbase hname]

/-! ## From the first class down -/

/-- The first class of a hierarchy has no fields but those that it declares. -/
theorem names_of_first (hc : p.classes[i]? = some c) (hlisted : p.Unlisted i)
    (hform : c.KeepsFields ∨ c.form = .model)
    (houter : c.outer = [] ∨ ∃ b, c.outer = [.builtin b]) (hname : name ∈ c.fieldNames) :
    name ∈ c.fields.map Field.name := by
  have hnone := hp.classesAmong_of_none hc (indices_bases_of_first houter)
  obtain ⟨keep, hmark⟩ : ∃ keep, getKey? name (setKeys (c.marks keep) []) = some true := by
    rcases hform with hform | hform
    · have hrecord := hp.record_of_first hc hform (hlisted.not_isEnumeration hc) houter
      have hplaced := hp.placed_of_record hc hrecord (by simp [placesAbove, hnone])
      rw [hplaced.mem_fieldNames, hp.getKey?_places hc hrecord] at hname
      refine ⟨fun f => !f.type.isPseudoField, ?_⟩
      simpa [placesAbove, hnone, setKeys, getKey?] using hname
    · rw [mem_fieldNames_of_model hp hc hform] at hname
      refine ⟨isModelField, ?_⟩
      simpa [marksAbove, hnone] using hname
  obtain ⟨f, hf, rfl, -⟩ := Class.exists_field_of_mark hmark
  exact List.mem_map_of_mem hf

/-- **The fields of a class in a hierarchy are those of its base and some of its own.** -/
theorem extends_of_next (hc : p.classes[i]? = some c) (hlisted : p.Unlisted i)
    (habove : p.Hierarchy j b) (hsort : c.Continues b) (houter : c.outer = [.declared j])
    (hkept : ∀ f ∈ c.fields, f.type.isPseudoField = true → f.name ∉ b.fieldNames) :
    c.Extends b := by
  by_cases hb : b.form = .model
  · exact extends_of_model hp hc (hsort.of_model hb) houter habove.declared hb hkept
  · exact extends_of_record hp hc hlisted habove hsort houter hkept hb

/-- No two fields of a class have one name. -/
theorem nodup (h : p.Hierarchy i c) (hlisted : p.Unlisted i) : c.fieldNames.Nodup := by
  by_cases hform : c.form = .model
  · exact nodup_of_model hp h.declared hform
  · exact (h.placed hp hlisted hform).nodup

end Hierarchy

end Program

end Schemata
