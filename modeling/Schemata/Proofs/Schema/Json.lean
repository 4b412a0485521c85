import Schemata.Proofs.Annotation.Json
import Schemata.Proofs.Schema.Mentions
import Schemata.Proofs.Schema.Nullability
import Schemata.Proofs.Synthesis.Instances

/-!
# Schemas that JSON has

A schema is rendered keyword by keyword, and what its keywords carry is taken over as it is.  So a
schema is rendered as JSON if everything that it carries, at any depth, is of JSON
(`Node.IsJson.render`).  What the synthesis does to schemas on the way keeps them so: it puts them
together, makes them accept null, lays constraints on them and gives them defaults, and whatever it
adds of its own accord is a text.
-/

namespace Schemata

open Environment (ObjectParts catchAllValue)

/-- What keywords carry. -/
def Keywords.content (k : Keywords) : Content :=
  ⟨k.title, k.description, k.format, k.pattern, k.minimum, k.maximum, k.multipleOf, k.default,
    k.sample, k.samples, k.choices, k.required, k.extensions⟩

namespace Node

/-- What a node carries, without its parts. -/
def content : Node → Content
  | .leaf k _ => k.content
  | .object k _ _ _ => k.content
  | .array k _ => k.content
  | .ref _ t d => { title := t, description := d }
  | .composition _ t d => { title := t, description := d }
  | .union _ t d => { title := t, description := d }

/-- **What a node carries is of JSON**, at any depth. -/
inductive IsJson : Node → Prop
  | intro {n : Node} (hown : n.content.IsJson) (hparts : ∀ m ∈ n.parts, m.IsJson) : IsJson n

variable {n m : Node} {k : Keywords} {c : Constraints}

namespace IsJson

theorem content (h : n.IsJson) : n.content.IsJson := by
  cases h with
  | intro hown _ => exact hown

theorem parts (h : n.IsJson) : ∀ m ∈ n.parts, m.IsJson := by
  cases h with
  | intro _ hparts => exact hparts

theorem leaf {t : Option JsonType} (hk : k.content.IsJson) : (Node.leaf k t).IsJson :=
  .intro hk (List.forall_mem_nil _)

theorem object {ps : List (String × Node)} {additional : Option Node} {allowed : Option Bool}
    (hk : k.content.IsJson) (hps : ∀ e ∈ ps, e.2.IsJson)
    (hadditional : ∀ a ∈ additional, a.IsJson) :
    (Node.object k ps additional allowed).IsJson := by
  refine .intro hk (List.forall_mem_append.mpr ⟨List.forall_mem_map.mpr hps, fun a ha => ?_⟩)
  exact hadditional a (Option.mem_toList.mp ha)

theorem array (hk : k.content.IsJson) (hm : m.IsJson) : (Node.array k m).IsJson :=
  .intro hk (List.forall_mem_singleton.mpr hm)

theorem refTo (name : String) : (Node.refTo name).IsJson :=
  .intro Content.isJson_empty (List.forall_mem_nil _)

theorem emptyObject : Node.emptyObject.IsJson :=
  .object Content.isJson_empty (List.forall_mem_nil _) nofun

theorem nullMarker : Node.nullMarker.IsJson :=
  .leaf Content.isJson_empty

/-- **Constraints of JSON keep a node so.** -/
theorem apply (h : n.IsJson) (hc : c.content.IsJson) : (c.apply n).IsJson := by
  have hover :
      (c.content.laidOver n.content (Constraints.upperList c.choices n.content.choices)).IsJson :=
    hc.laidOver h.content (Content.forall_upperList hc.choices h.content.choices)
  have htexts {t d : Option Wording} (ht : ∀ w ∈ t, w.IsText) (hd : ∀ w ∈ d, w.IsText) :
      Content.IsJson { title := Constraints.upperText c.title none <|> t
                       description := Constraints.upperText c.description none <|> d } :=
    { Content.isJson_empty with
      title := Content.forall_orElse (Content.forall_upperText hc.title nofun) ht
      description := Content.forall_orElse (Content.forall_upperText hc.description nofun) hd }
  cases n with
  | leaf k t => exact .leaf hover
  | object k ps additional allowed =>
    refine .object hover (fun e he => ?_) fun a ha => ?_
    · exact h.parts _ (List.mem_append_left _ (List.mem_map_of_mem he))
    · split at ha
      · cases ha
      · exact h.parts _ (List.mem_append_right _ (Option.mem_toList.mpr ha))
  | array k items => exact .array hover (h.parts _ List.mem_cons_self)
  | ref name t d => exact .intro (htexts h.content.title h.content.description) h.parts
  | composition ns t d => exact .intro (htexts h.content.title h.content.description) h.parts
  | union ns t d => exact .intro (htexts h.content.title h.content.description) h.parts

/-- Accepting null carries nothing. -/
theorem makeNullable (h : n.IsJson) : n.makeNullable.IsJson := by
  have hpair : (Node.union [n, Node.nullMarker] none none).IsJson :=
    .intro Content.isJson_empty
      (List.forall_mem_cons.mpr ⟨h, List.forall_mem_singleton.mpr nullMarker⟩)
  cases n with
  | leaf k t =>
    cases t with
    | none => exact h
    | some t => cases t <;> exact .leaf h.content
  | object k ps additional allowed => exact .intro h.content h.parts
  | array k items => exact .intro h.content h.parts
  | union ns t d =>
    unfold Node.makeNullable
    dsimp only
    split
    · exact h
    · exact .intro h.content
        (List.forall_mem_append.mpr ⟨h.parts, List.forall_mem_singleton.mpr nullMarker⟩)
  | ref | composition => exact hpair

theorem laidOn (h : n.IsJson) (hc : c.content.IsJson) : (c.laidOn n).IsJson := by
  unfold Constraints.laidOn
  split
  · exact h.makeNullable.apply hc
  · exact h.apply hc

theorem withDefault (h : n.IsJson) {v : Option Value} (hv : ∀ w ∈ v, w.isJson = true) :
    (n.withDefault v).IsJson := by
  cases v with
  | none => exact h
  | some v =>
    cases n with
    | leaf | object | array => exact .intro { h.content with default := hv } h.parts
    | ref | composition | union => exact h

end IsJson

theorem isJson_schema (kind : Kind) : kind.schema.IsJson := by
  refine .leaf { Content.isJson_empty with format := fun w hw => ?_ }
  obtain ⟨s, hs, rfl⟩ := Option.map_eq_some_iff.mp hw
  obtain ⟨name, -, hname⟩ := Option.bind_eq_some_iff.mp hs
  cases hname
  rfl

theorem isJson_arrayOf {t : Option JsonType} (hk : k.content.IsJson) :
    (Environment.arrayOf k t).IsJson :=
  .array Content.isJson_empty (.leaf hk)

end Node

/-! ## Objects under construction -/

namespace Environment.ObjectParts

variable {o : ObjectParts} {n : Node} {c : Constraints}

theorem isJson_iff : o.toNode.IsJson ↔ o.keywords.content.IsJson ∧
    (∀ e ∈ o.properties, e.2.IsJson) ∧ ∀ a ∈ o.additional, a.IsJson := by
  refine ⟨fun h => ⟨h.content, fun e he => ?_, fun a ha => ?_⟩,
    fun ⟨hk, hps, ha⟩ => .object hk hps ha⟩
  · exact h.parts _ (List.mem_append_left _ (List.mem_map_of_mem he))
  · exact h.parts _ (List.mem_append_right _ (Option.mem_toList.mpr ha))

theorem isJson_requiring (h : o.toNode.IsJson) {names : List Wording}
    (hnames : ∀ w ∈ names, w.IsText) : (o.requiring names).toNode.IsJson :=
  .intro { h.content with required := Content.forall_appendNames h.content.required hnames } h.parts

/-- The object that a type starts from. -/
theorem isJson_start (hc : c.content.IsJson) :
    (ofNode (c.apply .emptyObject)).toNode.IsJson := by
  have h : (c.apply .emptyObject).IsJson := Node.IsJson.emptyObject.apply hc
  exact h

theorem isJson_accepting (h : o.toNode.IsJson) (hc : c.content.IsJson) (hn : n.IsJson) :
    (o.accepting c n).toNode.IsJson := by
  obtain ⟨hk, hps, ha⟩ := isJson_iff.mp h
  unfold accepting
  split
  · exact .object hk hps ha
  next v hv =>
    refine .object hk hps fun a ha => ?_
    cases ha
    refine Node.IsJson.apply ?_ hc
    unfold catchAllValue at hv
    split at hv
    · cases hv
      exact hn.parts _ (List.mem_append_right _ List.mem_cons_self)
    · split at hv
      · cases hv
      · cases hv
        exact hn
    · cases hv
      exact hn

theorem isJson_adding {q : Property} (h : o.toNode.IsJson) (hn : n.IsJson) :
    (o.adding q c n).toNode.IsJson := by
  obtain ⟨hk, hps, ha⟩ := isJson_iff.mp h
  have hset : ∀ e ∈ setKey q.name n o.properties, e.2.IsJson := fun e he =>
    (forall_setKey (P := fun _ => True) (fun e he => ⟨trivial, hps e he⟩) trivial hn e he).2
  have hadded :
      (ObjectParts.toNode { o with properties := setKey q.name n o.properties }).IsJson :=
    .object hk hset ha
  unfold adding
  dsimp only
  split
  · exact isJson_requiring hadded (List.forall_mem_singleton.mpr rfl)
  · exact hadded

theorem isJson_over (h : o.toNode.IsJson) {base : Option Node} (hbase : ∀ b ∈ base, b.IsJson) :
    (o.over base).IsJson := by
  cases base with
  | none => exact h
  | some b =>
    have hown : ObjectParts.toNode { o with
        keywords := { o.keywords with title := none, description := none } } |>.IsJson :=
      .intro { h.content with title := nofun, description := nofun } h.parts
    exact .intro
      { Content.isJson_empty with
        title := h.content.title
        description := h.content.description }
      (List.forall_mem_cons.mpr ⟨hbase b rfl, List.forall_mem_singleton.mpr hown⟩)

end Environment.ObjectParts

/-! ## Rendering -/

namespace Rendered

/-- **The entries of a mapping are of JSON.** -/
def IsJson (r : Rendered) : Prop :=
  ∀ e ∈ r, e.1.IsText ∧ e.2.isJson = true

variable {r r' : Rendered} {key : String}

theorem IsJson.append (h : r.IsJson) (h' : Rendered.IsJson r') : Rendered.IsJson (r ++ r') :=
  List.forall_mem_append.mpr ⟨h, h'⟩

theorem isJson_toValue : r.toValue.isJson = true ↔ r.IsJson := by
  rw [toValue, Value.isJson_dict, List.forall_mem_map]
  rfl

theorem isJson_entry {v : Value} (hv : v.isJson = true) : (entry key v).IsJson :=
  List.forall_mem_singleton.mpr ⟨rfl, hv⟩

theorem isJson_optionalEntry {v : Option Value} (hv : ∀ w ∈ v, w.isJson = true) :
    (optionalEntry key v).IsJson := by
  cases v with
  | none => exact List.forall_mem_nil _
  | some v => exact isJson_entry (hv v rfl)

theorem isJson_textEntry {s : Option Wording} (hs : ∀ w ∈ s, w.IsText) :
    (textEntry key s).IsJson := by
  unfold textEntry
  split
  next s =>
    split
    · exact List.forall_mem_nil _
    · exact isJson_entry (Value.isJson_of_text? (hs s rfl))
  next => exact List.forall_mem_nil _

theorem isJson_flagEntry (b : Bool) : (flagEntry key b).IsJson := by
  unfold flagEntry
  split
  · exact isJson_entry rfl
  · exact List.forall_mem_nil _

theorem isJson_listEntry {xs : List Value} (hxs : ∀ x ∈ xs, x.isJson = true) :
    (listEntry key xs).IsJson := by
  unfold listEntry
  split
  · exact List.forall_mem_nil _
  · exact isJson_entry (Value.isJson_list.mpr hxs)

theorem isJson_numberEntry {n : Option Bound}
    (hn : ∀ b ∈ n, (b.toValue Number.toValue).isJson = true) : (numberEntry key n).IsJson := by
  refine isJson_optionalEntry fun v hv => ?_
  obtain ⟨b, hb, rfl⟩ := Option.map_eq_some_iff.mp hv
  exact hn b hb

theorem isJson_countEntry (n : Option Int) : (countEntry key n).IsJson := by
  refine isJson_optionalEntry fun v hv => ?_
  obtain ⟨i, -, rfl⟩ := Option.map_eq_some_iff.mp hv
  rfl

theorem isJson_switchEntry (b : Option Bool) : (optionalEntry key (b.map .bool)).IsJson := by
  refine isJson_optionalEntry fun v hv => ?_
  obtain ⟨b, -, rfl⟩ := Option.map_eq_some_iff.mp hv
  rfl

end Rendered

namespace Keywords

open Rendered

variable {k : Keywords}

theorem isJson_typeEntry (k : Keywords) (t : Option JsonType) : (k.typeEntry t).IsJson := by
  unfold typeEntry
  split
  · exact List.forall_mem_nil _
  · split <;> exact isJson_entry rfl

theorem isJson_ownEntries (h : k.content.IsJson) : k.ownEntries.IsJson :=
  (isJson_textEntry h.format)
    |>.append (isJson_textEntry h.title)
    |>.append (isJson_textEntry h.description)
    |>.append (isJson_numberEntry h.minimum)
    |>.append (isJson_numberEntry h.maximum)
    |>.append (isJson_numberEntry h.multipleOf)
    |>.append (isJson_countEntry _)
    |>.append (isJson_countEntry _)
    |>.append (isJson_textEntry h.pattern)
    |>.append (isJson_countEntry _)
    |>.append (isJson_countEntry _)
    |>.append (isJson_flagEntry _)
    |>.append (isJson_countEntry _)
    |>.append (isJson_countEntry _)
    |>.append (isJson_listEntry
        (List.forall_mem_map.mpr fun w hw => Value.isJson_of_text? (h.required w hw)))
    |>.append (isJson_switchEntry _)
    |>.append (isJson_flagEntry _)
    |>.append (isJson_flagEntry _)
    |>.append (isJson_flagEntry _)
    |>.append (isJson_listEntry h.choices)
    |>.append (isJson_optionalEntry h.default)
    |>.append (isJson_optionalEntry h.sample)
    |>.append (isJson_listEntry h.samples)

theorem isJson_finish (h : k.content.IsJson) {parts : Rendered} (hparts : parts.IsJson) :
    (k.finish parts).IsJson :=
  Value.isJson_setKeys h.extensions (hparts.append (isJson_ownEntries h))

end Keywords

namespace Node

open Rendered

variable {n : Node}

@[simp] theorem propertyEntries_eq_map (p : String) (ps : List (String × Node)) :
    propertyEntries p ps = ps.map fun e => ((e.1 : Wording), e.2.render p) := by
  induction ps with
  | nil => rfl
  | cons e ps ih => rw [propertyEntries, ih]; rfl

theorem isJson_textEntries {t d : Option Wording} (ht : ∀ w ∈ t, w.IsText)
    (hd : ∀ w ∈ d, w.IsText) :
    (textEntries t d).IsJson :=
  (isJson_textEntry ht).append (isJson_textEntry hd)

/-- **A schema is rendered as JSON** if what it carries is of JSON. -/
theorem IsJson.render (h : n.IsJson) (p : String) : (n.render p).isJson = true := by
  have hmembers (ns : List Node) (hns : ∀ m ∈ ns, (m.render p).isJson = true) :
      (Value.list (memberEntries p ns)).isJson = true := by
    rw [memberEntries_eq_map, Value.isJson_list]
    exact List.forall_mem_map.mpr hns
  induction h with
  | @intro n hown hparts ih =>
    refine isJson_toValue.mpr ?_
    cases n with
    | leaf k t => exact Keywords.isJson_finish hown (Keywords.isJson_typeEntry k t)
    | object k ps additional allowed =>
      have hproperties : (propertyEntries p ps).IsJson := by
        rw [propertyEntries_eq_map]
        refine List.forall_mem_map.mpr fun e he => ⟨rfl, ?_⟩
        exact ih e.2 (List.mem_append_left _ (List.mem_map_of_mem he))
      refine Keywords.isJson_finish hown
        (((Keywords.isJson_typeEntry _ _).append ?_).append ?_)
      · split
        · exact List.forall_mem_nil _
        · exact isJson_entry (isJson_toValue.mpr hproperties)
      · cases additional with
        | none => exact isJson_switchEntry allowed
        | some a =>
          exact isJson_entry (ih a (List.mem_append_right _ (Option.mem_toList.mpr rfl)))
    | array k items =>
      exact Keywords.isJson_finish hown ((Keywords.isJson_typeEntry _ _).append
        (isJson_entry (ih items List.mem_cons_self)))
    | ref name t d =>
      exact List.forall_mem_cons.mpr ⟨⟨rfl, rfl⟩, isJson_textEntries hown.title hown.description⟩
    | composition ns t d =>
      exact List.forall_mem_cons.mpr
        ⟨⟨rfl, hmembers ns ih⟩, isJson_textEntries hown.title hown.description⟩
    | union ns t d =>
      exact List.forall_mem_cons.mpr
        ⟨⟨rfl, hmembers ns ih⟩, isJson_textEntries hown.title hown.description⟩

end Node

end Schemata
