import Schemata.Proofs.Schema.Validation
import Schemata.Proofs.Value.Mapping

/-!
# Also accepting null

`Node.makeNullable` is there to make a schema accept null, and nothing else that it did not accept
before.  The second half of this is always so.  The first half is not: a concrete node is given null
as a second type, and a type is only one of its keywords.  If any other one refuses null, the node
goes on refusing it.

`accepts_makeNullable_iff` says when that is.  A reference or a composition is wrapped in a union
with null, so that null is accepted whatever they say.  A concrete node has to have room for null
(`Node.HasRoom`): it would accept null if its type were that of null.  Of the keywords that the
library writes, all but one are silent on null, since they speak of numbers, texts, lists and
mappings only; the one is the list of values to choose from.  So a node that carries no more than
vendor data beside them has room for null if and only if it lists no values, or lists null.
-/

namespace Schemata

open Rendered

variable {D : Dialect} {refPrefix : String} {v : Value}

/-! ## Rendered mappings -/

namespace Rendered

theorem key_of_mem_textEntry {key : String} {s : Option Wording} {e : Wording × Value}
    (h : e ∈ textEntry key s) : e.1 = (key : Wording) := by
  unfold textEntry at h
  split at h
  · split at h
    · cases h
    · rw [List.mem_singleton.mp h]
  · cases h

theorem key_of_mem_optionalEntry {key : String} {value : Option Value} {e : Wording × Value}
    (h : e ∈ optionalEntry key value) : e.1 = (key : Wording) := by
  unfold optionalEntry at h
  split at h
  · rw [List.mem_singleton.mp h]
  · cases h

theorem key_of_mem_flagEntry {key : String} {b : Bool} {e : Wording × Value}
    (h : e ∈ flagEntry key b) : e.1 = (key : Wording) := by
  unfold flagEntry at h
  split at h
  · rw [List.mem_singleton.mp h]
  · cases h

@[simp] theorem mem_listEntry {key : String} {xs : List Value} {e : Wording × Value} :
    e ∈ listEntry key xs ↔ xs ≠ [] ∧ e = ((key : Wording), Value.list xs) := by
  unfold listEntry
  cases xs <;> simp [entry]

end Rendered

/-- A keyword as it is read from a rendered mapping. -/
def Dialect.keywordOf (D : Dialect) (e : Wording × Value) : Entry :=
  ⟨(Value.ofWording e.1).text?.getD "", e.2, D.sense e.2⟩

theorem Dialect.key_keywordOf {e : Wording × Value} {key : String} (h : e.1 = (key : Wording)) :
    (D.keywordOf e).key = key := by
  rw [keywordOf, h]
  rfl

theorem Dialect.accepts_toValue {r : Rendered} : D.Accepts r.toValue v ↔
    ∀ e ∈ r, D.Meets ((r.map D.keywordOf).filter fun e => e.key != "type") (D.keywordOf e) v := by
  have hentries : D.entries (r.map fun e => (.ofWording e.1, e.2)) = r.map D.keywordOf := by
    rw [entries_eq_map, List.map_map]
    rfl
  rw [Rendered.toValue, accepts_dict, hentries, List.forall_mem_map]

/-- A schema that is any of some schemas, with texts that describe it. -/
theorem Dialect.accepts_anyOf (ms : List Value) (title description : Option Wording) :
    D.Accepts (Rendered.toValue (("anyOf", .list ms) :: textEntries title description)) v ↔
      ∃ m ∈ ms, D.Accepts m v := by
  rw [accepts_toValue, List.forall_mem_cons]
  have htexts (siblings : List Entry) : ∀ e ∈ textEntries title description,
      D.Meets siblings (D.keywordOf e) v := by
    intro e he
    have hkey : e.1 = ("title" : Wording) ∨ e.1 = ("description" : Wording) :=
      (List.mem_append.mp he).imp key_of_mem_textEntry key_of_mem_textEntry
    refine meets_of_describing ?_
    rcases hkey with hkey | hkey <;> simp [key_keywordOf hkey, describing]
  rw [and_iff_left (htexts _)]
  show (∃ s ∈ (D.sense (.list ms)).members, (s v).accepted) ↔ _
  rw [sense, senses_eq_map, List.map_map]
  simp [Accepts]

/-! ## Nodes with a type of their own -/

/-- The keywords of a concrete node, beside some parts and the type of null, accept null. -/
def Keywords.AdmitNull (k : Keywords) (D : Dialect) (parts : Rendered) : Prop :=
  D.Accepts (k.finish (entry "type" (.text "null") ++ parts)).toValue .null

namespace Node

/-- What a concrete node is made of, rendered. -/
def partEntries (refPrefix : String) : Node → Rendered
  | .object _ ps additional allowed =>
    (if (propertyEntries refPrefix ps).isEmpty then []
      else entry "properties" (propertyEntries refPrefix ps).toValue) ++
      match additionalEntry refPrefix additional with
      | some v => entry "additionalProperties" v
      | none => optionalEntry "additionalProperties" (allowed.map .bool)
  | .array _ items => entry "items" (items.render refPrefix)
  | _ => []

/-- The type of a concrete node. -/
def type? : Node → Option JsonType
  | .leaf _ t => t
  | .object .. => some .object
  | .array .. => some .array
  | _ => none

variable {n m : Node} {k : Keywords} {t : JsonType}

theorem entries_eq_finish (hk : n.keywords? = some k) :
    n.entries refPrefix = k.finish (k.typeEntry n.type? ++ n.partEntries refPrefix) := by
  cases n with
  | leaf k' t =>
    cases hk
    exact congrArg k.finish (List.append_nil _).symm
  | object k' ps a allowed =>
    cases hk
    exact congrArg k.finish (List.append_assoc _ _ _)
  | array k' items =>
    cases hk
    rfl
  | ref | composition | union => cases hk

/-- **A node has room for null**, in a dialect.

* A concrete node with a type would accept null if its type were that of null.
* A leaf without a type, and a union that has the schema of null for a member, accept null as they
  are.
* Every other node has room. -/
def HasRoom (D : Dialect) (refPrefix : String) : Node → Prop
  | .leaf k none => D.Accepts ((leaf k none).render refPrefix) .null
  | .leaf k (some t) => k.AdmitNull D ((leaf k (some t)).partEntries refPrefix)
  | .object k ps a allowed => k.AdmitNull D ((object k ps a allowed).partEntries refPrefix)
  | .array k items => k.AdmitNull D ((array k items).partEntries refPrefix)
  | .union ns _ _ => ns.any isNull = true → ∃ n ∈ ns, D.Accepts (n.render refPrefix) .null
  | .ref .. | .composition .. => True

end Node

/-! ## The type of a concrete node -/

theorem JsonType.word_injective {t t' : JsonType} (h : t.word = t'.word) : t = t' := by
  have := congrArg JsonType.ofWord? h
  rwa [ofWord?_word, ofWord?_word, Option.some_inj] at this

namespace Value

/-- The word for a type stands for that type. -/
theorem exists_word {t : JsonType} :
    (∃ t' : JsonType, (text t.word).text? = some t'.word ∧ v.HasType t') ↔ v.HasType t := by
  constructor
  · rintro ⟨t', hword, h⟩
    rwa [JsonType.word_injective (Option.some.inj hword)]
  · exact fun h => ⟨t, rfl, h⟩

@[simp] theorem typeTakes_word {t : JsonType} : (text t.word).TypeTakes v ↔ v.HasType t :=
  exists_word

@[simp] theorem typeTakes_words {t t' : JsonType} :
    (list [.text t.word, .text t'.word]).TypeTakes v ↔ v.HasType t ∨ v.HasType t' := by
  show (∃ w ∈ [text t.word, text t'.word], ∃ t'' : JsonType, w.text? = some t''.word ∧
    v.HasType t'') ↔ _
  simp only [List.mem_cons, List.not_mem_nil, or_false, exists_eq_or_imp, exists_eq_left,
    exists_word]

end Value

namespace Keywords

variable {k : Keywords} {t : JsonType}

/-- The type that vendor data puts in the place of a type. -/
def imposedType (k : Keywords) : Option Value :=
  ((k.extensions.filter fun e => ("type" : Wording) == e.1).getLast?).map (·.2)

/-- What a concrete node says besides its type. -/
def others (k : Keywords) (parts : Rendered) : Rendered :=
  setKeys (k.extensions.filter fun e => !(("type" : Wording) == e.1)) (parts ++ k.ownEntries)

/-- **A node is a type and what it says besides.** -/
theorem accepts_finish (x : Value) (parts : Rendered) :
    D.Accepts (k.finish (entry "type" x ++ parts)).toValue v ↔
      (k.imposedType.getD x).TypeTakes v ∧ D.Accepts (k.others parts).toValue v := by
  have hfinish : k.finish (entry "type" x ++ parts) =
      (("type" : Wording), k.imposedType.getD x) :: k.others parts := by
    unfold Keywords.finish
    rw [List.append_assoc]
    exact setKeys_cons _ _ _ _
  rw [hfinish]
  exact Dialect.accepts_type_cons _ _

theorem exists_typeEntry (k : Keywords) (t : JsonType) :
    ∃ x, k.typeEntry (some t) = entry "type" x ∧
    ∀ v, x.TypeTakes v ↔ v.HasType t ∨ k.nullable = true ∧ v = .null := by
  unfold typeEntry
  dsimp only
  split
  next h =>
    rw [Bool.and_eq_true] at h
    refine ⟨_, rfl, fun v => ?_⟩
    rw [Value.typeTakes_words, and_iff_right h.1]
    rfl
  next h =>
    refine ⟨_, rfl, fun v => ?_⟩
    rw [Value.typeTakes_word]
    refine (or_iff_left_of_imp ?_).symm
    rintro ⟨hnullable, hv⟩
    have ht : t = .null := by simpa [hnullable] using h
    rw [ht]
    exact hv

end Keywords

namespace Node

variable {n m : Node} {k : Keywords} {t : JsonType}

/-- A concrete node with a type, and the same node flagged as nullable. -/
theorem accepts_of_flagged (hk : n.keywords? = some k) (ht : n.type? = some t)
    (hm : m.keywords? = some { k with nullable := true }) (hmt : m.type? = some t)
    (hparts : m.partEntries refPrefix = n.partEntries refPrefix) :
    D.Accepts (m.render refPrefix) v ↔
      D.Accepts (n.render refPrefix) v ∨ v = .null ∧ k.AdmitNull D (n.partEntries refPrefix) := by
  obtain ⟨x, hx, htakes⟩ := k.exists_typeEntry t
  obtain ⟨y, hy, htakes'⟩ := Keywords.exists_typeEntry { k with nullable := true } t
  unfold render Keywords.AdmitNull
  rw [entries_eq_finish hk, entries_eq_finish hm, ht, hmt, hparts, hx, hy, Keywords.accepts_finish,
    Keywords.accepts_finish, Keywords.accepts_finish]
  show (k.imposedType.getD y).TypeTakes v ∧ D.Accepts (k.others _).toValue v ↔ _
  have hnull : (Value.text "null").TypeTakes .null := ⟨.null, rfl, rfl⟩
  cases k.imposedType with
  | some z =>
    refine ⟨.inl, ?_⟩
    rintro (h | ⟨rfl, h⟩)
    · exact h
    · exact h
  | none =>
    simp only [Option.getD_none, htakes, htakes', true_and]
    constructor
    · rintro ⟨htype | rfl, hothers⟩
      · exact .inl ⟨.inl htype, hothers⟩
      · exact .inr ⟨rfl, hnull, hothers⟩
    · rintro (⟨htype | ⟨-, rfl⟩, hothers⟩ | ⟨rfl, -, hothers⟩)
      · exact ⟨.inl htype, hothers⟩
      · exact ⟨.inr rfl, hothers⟩
      · exact ⟨.inr rfl, hothers⟩

/-! ## Every node -/

@[simp] theorem accepts_nullMarker : D.Accepts (nullMarker.render refPrefix) v ↔ v = .null := by
  have hentry : nullMarker.entries refPrefix =
      Keywords.finish {} (entry "type" (.text "null") ++ []) := rfl
  rw [render, hentry, Keywords.accepts_finish, and_iff_left]
  · exact Value.typeTakes_word (t := .null)
  · rw [Dialect.accepts_toValue]
    nofun

@[simp] theorem memberEntries_eq_map (ns : List Node) :
    memberEntries refPrefix ns = ns.map (render refPrefix) := by
  induction ns with
  | nil => rfl
  | cons n ns ih => rw [memberEntries, ih, List.map_cons, render]

theorem accepts_union (ns : List Node) (title description : Option Wording) :
    D.Accepts ((union ns title description).render refPrefix) v ↔
      ∃ n ∈ ns, D.Accepts (n.render refPrefix) v := by
  have hentries : (union ns title description).entries refPrefix =
      ((("anyOf" : String) : Wording), .list (memberEntries refPrefix ns)) ::
        textEntries title description := rfl
  rw [render, hentries, Dialect.accepts_anyOf, memberEntries_eq_map]
  simp

/-- **What a node accepts that is to accept null as well**: what it accepted, and null if there is
room for it. -/
theorem accepts_makeNullable (D : Dialect) (refPrefix : String) (n : Node) (v : Value) :
    D.Accepts (n.makeNullable.render refPrefix) v ↔
      D.Accepts (n.render refPrefix) v ∨ v = .null ∧ n.HasRoom D refPrefix := by
  -- a node that is left alone has room if it accepts null
  have hsame {m : Node} (h : m.HasRoom D refPrefix → D.Accepts (m.render refPrefix) .null) :
      D.Accepts (m.render refPrefix) v ↔
        D.Accepts (m.render refPrefix) v ∨ v = .null ∧ m.HasRoom D refPrefix := by
    refine (or_iff_left_of_imp ?_).symm
    rintro ⟨rfl, hroom⟩
    exact h hroom
  cases n with
  | leaf k t =>
    cases t with
    | none => exact hsame id
    | some t =>
      by_cases ht : t = .null
      · subst ht
        refine hsame (m := leaf k (some .null)) fun h => ?_
        have hentries : (leaf k (some .null)).entries refPrefix =
            k.finish
              (entry "type" (.text "null") ++ (leaf k (some .null)).partEntries refPrefix) := by
          rw [entries_eq_finish rfl]
          simp [type?, Keywords.typeEntry, JsonType.word]
        rw [render, hentries]
        exact h
      · have hflag :
            (leaf k (some t)).makeNullable = leaf { k with nullable := true } (some t) := by
          cases t <;> first | rfl | exact absurd rfl ht
        rw [hflag]
        exact accepts_of_flagged rfl rfl rfl rfl rfl
  | object k ps a allowed | array k items => exact accepts_of_flagged rfl rfl rfl rfl rfl
  | ref name t d | composition ns t d =>
    show D.Accepts ((union [_, nullMarker] none none).render refPrefix) v ↔ _
    rw [accepts_union]
    simp [accepts_nullMarker, HasRoom]
  | union ns t d =>
    unfold makeNullable
    dsimp only
    split
    next hany => exact hsame fun h => (accepts_union ns t d).mpr (h hany)
    next hany =>
      rw [accepts_union, accepts_union]
      simp [accepts_nullMarker, HasRoom, hany, or_and_right, exists_or]

end Node

/-! ## Room for null -/

namespace Keywords

variable {k : Keywords}

/-- What a concrete node carries beside the keywords of the library starts with `x-`. -/
def VendorOnly (k : Keywords) : Prop :=
  ∀ e ∈ k.extensions, e.1.plain.startsWith "x-" = true ∧
    (Value.ofWording e.1).text? = some e.1.plain

/-- The keywords that the library writes and that speak neither of numbers nor of all values. -/
def mute : List String :=
  Dialect.describing ++ Dialect.onOthers

/-- The keywords that the library writes, but for the list of values. -/
def lenient : List String :=
  Dialect.describing ++ (Dialect.onNumbers ++ Dialect.onOthers)

/-- The entries that speak of numbers. -/
def numberEntries (k : Keywords) : Rendered :=
  numberEntry (if k.exclusiveMinimum then "exclusiveMinimum" else "minimum") k.minimum ++
    numberEntry (if k.exclusiveMaximum then "exclusiveMaximum" else "maximum") k.maximum ++
    numberEntry "multipleOf" k.multipleOf

/-- An entry lists the values to choose from, or speaks of numbers, or does neither. -/
def Sorts (k : Keywords) (e : Wording × Value) : Prop :=
  (k.choices ≠ [] ∧ e = ((("enum" : String) : Wording), .list k.choices)) ∨
    e ∈ k.numberEntries ∨ ∃ key ∈ mute, e.1 = (key : Wording)

section

variable {key : String} (hkey : key ∈ mute)
include hkey

theorem sorts_textEntry (s : Option Wording) : ∀ e ∈ textEntry key s, k.Sorts e :=
  fun _ he => .inr (.inr ⟨key, hkey, key_of_mem_textEntry he⟩)

theorem sorts_optionalEntry (x : Option Value) : ∀ e ∈ optionalEntry key x, k.Sorts e :=
  fun _ he => .inr (.inr ⟨key, hkey, key_of_mem_optionalEntry he⟩)

theorem sorts_flagEntry (b : Bool) : ∀ e ∈ flagEntry key b, k.Sorts e :=
  fun _ he => .inr (.inr ⟨key, hkey, key_of_mem_flagEntry he⟩)

theorem sorts_listEntry (xs : List Value) : ∀ e ∈ listEntry key xs, k.Sorts e :=
  fun _ he => .inr (.inr ⟨key, hkey, congrArg Prod.fst (mem_listEntry.mp he).2⟩)

end

/-- **What a concrete node says of its own accord**, before vendor data. -/
theorem sorts_ownEntries (k : Keywords) : ∀ e ∈ k.ownEntries, k.Sorts e := by
  have happend {r r' : Rendered} (h : ∀ e ∈ r, k.Sorts e) (h' : ∀ e ∈ r', k.Sorts e) :
      ∀ e ∈ r ++ r', k.Sorts e := List.forall_mem_append.mpr ⟨h, h'⟩
  have hoptional {key : String} {x : Option Value} (hkey : key ∈ mute) :
      ∀ e ∈ optionalEntry key x, k.Sorts e := sorts_optionalEntry hkey x
  unfold ownEntries
  -- from the last entry to the first
  refine happend (happend (happend (happend ?_ fun e he => .inl (mem_listEntry.mp he))
    (hoptional (by decide))) (hoptional (by decide))) (sorts_listEntry (by decide) _)
  refine happend (happend (happend ?_ (sorts_flagEntry (by decide) _))
    (sorts_flagEntry (by decide) _)) (sorts_flagEntry (by decide) _)
  refine happend (happend (happend (happend ?_ (hoptional (by decide))) (hoptional (by decide)))
    (sorts_listEntry (by decide) _)) (hoptional (by decide))
  refine happend (happend (happend ?_ (hoptional (by decide))) (hoptional (by decide)))
    (sorts_flagEntry (by decide) _)
  refine happend (happend (happend ?_ (hoptional (by decide))) (hoptional (by decide)))
    (sorts_textEntry (by decide) _)
  rw [List.append_assoc, List.append_assoc, ← List.append_assoc (numberEntry _ _)]
  exact happend (happend (happend (sorts_textEntry (by decide) _) (sorts_textEntry (by decide) _))
    (sorts_textEntry (by decide) _)) fun _ he => .inr (.inl he)

theorem numberEntries_subset (k : Keywords) : k.numberEntries ⊆ k.ownEntries := by
  unfold numberEntries ownEntries
  simp only [List.append_assoc]
  refine List.subset_append_of_subset_right _ (List.subset_append_of_subset_right _
    (List.subset_append_of_subset_right _ ?_))
  rw [← List.append_assoc, ← List.append_assoc, ← List.append_assoc]
  exact List.subset_append_left _ _

/-- **Of the keywords that are written before vendor data only the list of values is not silent on
null.** -/
theorem lenient_ownEntries (k : Keywords) : ∀ e ∈ k.ownEntries,
    (k.choices ≠ [] ∧ e = ((("enum" : String) : Wording), .list k.choices)) ∨
      ∃ key ∈ lenient, e.1 = (key : Wording) := by
  intro e he
  have hnumber {b : Bool} {key key' : String} {n : Option Bound} (hkey : key ∈ lenient)
      (hkey' : key' ∈ lenient) (he : e ∈ numberEntry (if b then key else key') n) :
      ∃ key ∈ lenient, e.1 = (key : Wording) := by
    cases b with
    | true => exact ⟨key, hkey, key_of_mem_optionalEntry he⟩
    | false => exact ⟨key', hkey', key_of_mem_optionalEntry he⟩
  rcases sorts_ownEntries k e he with henum | he | ⟨key, hkey, hk⟩
  · exact .inl henum
  · rcases List.mem_append.mp he with he | he
    · rcases List.mem_append.mp he with he | he
      · exact .inr (hnumber (by decide) (by decide) he)
      · exact .inr (hnumber (by decide) (by decide) he)
    · exact .inr ⟨"multipleOf", by decide, key_of_mem_optionalEntry he⟩
  · refine .inr ⟨key, ?_, hk⟩
    rcases List.mem_append.mp hkey with hkey | hkey
    · exact List.mem_append_left _ hkey
    · exact List.mem_append_right _ (List.mem_append_right _ hkey)

/-- Choices are listed where there are any. -/
theorem choices_mem_ownEntries (h : k.choices ≠ []) :
    ((("enum" : String) : Wording), Value.list k.choices) ∈ k.ownEntries :=
  List.mem_append_left _ (List.mem_append_left _ (List.mem_append_left _
    (List.mem_append_right _ (mem_listEntry.mpr ⟨h, rfl⟩))))

@[simp] theorem equals_null {x : Value} : x.Equals .null ↔ x = .null := by
  cases x <;> simp [Value.Equals, Value.text?, Value.rational?, Value.core]

/-- The library writes no keyword that starts with `x-`. -/
theorem startsWith_of_mem_lenient {key : String} (h : key ∈ "type" :: "enum" :: lenient) :
    key.startsWith "x-" = false := by
  revert h key
  decide +kernel

/-- The keywords of a node after its own parts, before vendor data. -/
theorem standard_append_ownEntries (k : Keywords) {parts : Rendered}
    (hparts : ∀ e ∈ parts, ∃ key ∈ "type" :: lenient, e.1 = (key : Wording)) :
    ∀ e ∈ parts ++ k.ownEntries, ∃ key ∈ "type" :: "enum" :: lenient, e.1 = (key : Wording) := by
  intro e he
  rcases List.mem_append.mp he with he | he
  · obtain ⟨key, hkey, hk⟩ := hparts e he
    exact ⟨key, by simp only [List.mem_cons] at hkey ⊢; tauto, hk⟩
  · rcases lenient_ownEntries k e he with ⟨-, rfl⟩ | ⟨key, hkey, hk⟩
    · exact ⟨"enum", by simp, rfl⟩
    · exact ⟨key, by simp [hkey], hk⟩

/-- Vendor data follows what the library writes. -/
theorem finish_of_vendorOnly (hvendor : ∀ e ∈ k.extensions, e.1.plain.startsWith "x-" = true)
    {parts : Rendered} (hparts : ∀ e ∈ parts, ∃ key ∈ "type" :: lenient, e.1 = (key : Wording)) :
    k.finish parts = parts ++ k.ownEntries ++ setKeys k.extensions [] := by
  have happend : setKeys k.extensions (parts ++ k.ownEntries ++ []) =
      parts ++ k.ownEntries ++ setKeys k.extensions [] := by
    refine setKeys_append_of_apart [] fun e he e' he' => ?_
    obtain ⟨key, hkey, hk⟩ := standard_append_ownEntries k hparts e' he'
    have hother : key ≠ e.1.plain := by
      rintro rfl
      have := startsWith_of_mem_lenient hkey
      rw [hvendor e he] at this
      cases this
    rw [hk]
    show (key == e.1.plain) = false
    exact beq_eq_false_iff_ne.mpr hother
  rwa [List.append_nil] at happend

/-- **Null meets all that the library writes**, but for a list of values that it is not among. -/
theorem accepts_null_finish (hvendor : k.VendorOnly) (parts : Rendered)
    (hparts : ∀ e ∈ parts, e = ((("type" : String) : Wording), .text "null") ∨
      ∃ key ∈ lenient, e.1 = (key : Wording)) :
    D.Accepts (k.finish parts).toValue .null ↔ k.choices = [] ∨ .null ∈ k.choices := by
  have hfinish := finish_of_vendorOnly (fun e he => (hvendor e he).1) fun e he => by
    rcases hparts e he with rfl | ⟨key, hkey, hk⟩
    · exact ⟨"type", by simp, rfl⟩
    · exact ⟨key, by simp [hkey], hk⟩
  have hmeets (siblings : List Entry) {e : Wording × Value} {key : String} (hkey : key ∈ lenient)
      (hk : e.1 = (key : Wording)) : D.Meets siblings (D.keywordOf e) .null := by
    have hread : (D.keywordOf e).key = key := Dialect.key_keywordOf hk
    rcases List.mem_append.mp hkey with hkey | hkey
    · exact Dialect.meets_of_describing (hread ▸ hkey)
    · exact Dialect.meets_null (hread ▸ hkey)
  have henum (siblings : List Entry) :
      D.Meets siblings (D.keywordOf ((("enum" : String) : Wording), .list k.choices)) .null ↔
        .null ∈ k.choices := by
    show (∀ xs, Value.list k.choices = .list xs → ∃ x ∈ xs, x.Equals .null) ↔ _
    simp [equals_null]
  rw [Dialect.accepts_toValue, hfinish]
  constructor
  · intro h
    by_cases hchoices : k.choices = []
    · exact .inl hchoices
    · exact .inr ((henum _).mp (h _ (List.mem_append_left _
        (List.mem_append_right _ (choices_mem_ownEntries hchoices)))))
  · intro h e he
    rcases List.mem_append.mp he with he | he
    · rcases List.mem_append.mp he with he | he
      · rcases hparts e he with rfl | ⟨key, hkey, hk⟩
        · exact (Value.typeTakes_word (t := .null)).mpr rfl
        · exact hmeets _ hkey hk
      · rcases lenient_ownEntries k e he with ⟨hchoices, rfl⟩ | ⟨key, hkey, hk⟩
        · exact (henum _).mpr (h.resolve_left hchoices)
        · exact hmeets _ hkey hk
    · obtain ⟨e', he', hk⟩ := exists_of_mem_setKeys he
      refine Dialect.meets_of_vendor ?_
      obtain ⟨hx, htext⟩ := hvendor e' he'
      rw [Dialect.keywordOf, ← hk]
      show ((Value.ofWording e'.1).text?.getD "").startsWith "x-" = true
      rw [htext]
      exact hx

end Keywords

namespace Node

variable {n : Node} {k : Keywords}

/-- The parts of a concrete node are no demand on null. -/
theorem lenient_partEntries (n : Node) : ∀ e ∈ n.partEntries refPrefix, ∃ key ∈ Keywords.lenient,
    e.1 = (key : Wording) := by
  intro e he
  cases n with
  | object k ps a allowed =>
    rcases List.mem_append.mp he with he | he
    · split at he
      · cases he
      · exact ⟨"properties", by decide, by rw [List.mem_singleton.mp he]⟩
    · refine ⟨"additionalProperties", by decide, ?_⟩
      split at he
      · rw [List.mem_singleton.mp he]
      · exact key_of_mem_optionalEntry he
  | array k items => exact ⟨"items", by decide, by rw [List.mem_singleton.mp he]⟩
  | leaf | ref | composition | union => cases he

/-- **Room for null is a matter of the values that are listed.** -/
theorem hasRoom_iff (hk : n.keywords? = some k) (hvendor : k.VendorOnly) :
    n.HasRoom D refPrefix ↔ k.choices = [] ∨ .null ∈ k.choices := by
  have hadmit : k.AdmitNull D (n.partEntries refPrefix) ↔ k.choices = [] ∨ .null ∈ k.choices := by
    refine Keywords.accepts_null_finish hvendor _ fun e he => ?_
    rcases List.mem_cons.mp he with rfl | he
    · exact .inl rfl
    · exact .inr (lenient_partEntries n e he)
  cases n with
  | leaf k' t =>
    cases hk
    cases t with
    | none => exact Keywords.accepts_null_finish hvendor [] nofun
    | some t => exact hadmit
  | object k' ps a allowed | array k' items =>
    cases hk
    exact hadmit
  | ref | composition | union => cases hk

/-- A concrete node that accepts null would do so with the type of null. -/
theorem admitNull_of_accepts {t : JsonType} (hk : n.keywords? = some k) (ht : n.type? = some t)
    (h : D.Accepts (n.render refPrefix) .null) : k.AdmitNull D (n.partEntries refPrefix) := by
  obtain ⟨x, hx, -⟩ := k.exists_typeEntry t
  rw [render, entries_eq_finish hk, ht, hx, Keywords.accepts_finish] at h
  rw [Keywords.AdmitNull, Keywords.accepts_finish]
  refine ⟨?_, h.2⟩
  cases himposed : k.imposedType with
  | some y =>
    rw [himposed] at h
    exact h.1
  | none => exact (Value.typeTakes_word (t := .null)).mpr rfl

theorem hasRoom_of_accepts (h : D.Accepts (n.render refPrefix) .null) : n.HasRoom D refPrefix := by
  cases n with
  | leaf k t =>
    cases t with
    | none => exact h
    | some t => exact admitNull_of_accepts rfl rfl h
  | object | array => exact admitNull_of_accepts rfl rfl h
  | ref | composition => trivial
  | union ns t d => exact fun _ => (accepts_union ns t d).mp h

/-- A node that accepts null in the end had room for it. -/
theorem hasRoom_of_accepts_makeNullable (h : D.Accepts (n.makeNullable.render refPrefix) .null) :
    n.HasRoom D refPrefix := by
  rcases (accepts_makeNullable D refPrefix n .null).mp h with hbefore | ⟨-, hroom⟩
  · exact hasRoom_of_accepts hbefore
  · exact hroom

/-- **A node that is to accept null as well** accepts what it accepted before of everything that is
not null, in every dialect.  It accepts null, and so exactly null in addition, if and only if there
is room for null; and in a concrete node with no more than vendor data beside the keywords of the
library this is so if and only if it lists no values or lists null. -/
theorem accepts_makeNullable_iff (D : Dialect) (refPrefix : String) (n : Node) :
    (∀ v, v ≠ .null →
      (D.Accepts (n.makeNullable.render refPrefix) v ↔ D.Accepts (n.render refPrefix) v)) ∧
    ((∀ v, D.Accepts (n.makeNullable.render refPrefix) v ↔
        v = .null ∨ D.Accepts (n.render refPrefix) v) ↔ n.HasRoom D refPrefix) ∧
    ∀ k, n.keywords? = some k → k.VendorOnly →
      (n.HasRoom D refPrefix ↔ k.choices = [] ∨ .null ∈ k.choices) := by
  refine ⟨fun v hv => ?_, ⟨fun h => ?_, fun hroom v => ?_⟩, fun k hk hvendor =>
    hasRoom_iff hk hvendor⟩
  · rw [accepts_makeNullable, or_iff_left fun h => hv h.1]
  · exact hasRoom_of_accepts_makeNullable ((h .null).mpr (.inl rfl))
  · rw [accepts_makeNullable, or_comm, and_iff_left hroom]

/-- A dialect in which patterns are found as they are written, references lead nowhere, and other
keywords mean nothing. -/
def plainDialect : Dialect where
  Finds p s := p.toList <:+: s.toList
  resolve _ _ := { accepted := False }
  foreign _ _ _ := { accepted := True }

/-- A text for a level that may be left open, which is written as null among the levels. -/
def openLevel : Node :=
  .leaf { choices := [.text "low", .null], extensions := [("x-owner", .text "ann")] } (some .string)

theorem openLevel_accepts_makeNullable_iff : ∃ k, openLevel.keywords? = some k ∧ k.VendorOnly ∧
    openLevel.HasRoom plainDialect defaultRefPrefix ∧
    ∀ v, plainDialect.Accepts (openLevel.makeNullable.render defaultRefPrefix) v ↔
      v = .null ∨ plainDialect.Accepts (openLevel.render defaultRefPrefix) v := by
  obtain ⟨-, hiff, hvendor⟩ := accepts_makeNullable_iff plainDialect defaultRefPrefix openLevel
  have hextensions : Keywords.VendorOnly
      { choices := [.text "low", .null], extensions := [("x-owner", .text "ann")] } := by
    intro e he
    rw [List.mem_singleton.mp he]
    exact ⟨by decide +kernel, rfl⟩
  have hroom := (hvendor _ rfl hextensions).mpr (.inr (by simp))
  exact ⟨_, rfl, hextensions, hroom, hiff.mpr hroom⟩

/-- A text for a level, which is one of two. -/
def level : Node :=
  .leaf { choices := [.text "low", .text "high"] } (some .string)

/-- **A list of values keeps null out**: a level that is to accept null as well refuses it. -/
theorem level_makeNullable_refuses : ¬ ∀ (D : Dialect) (refPrefix : String) (n : Node) (v : Value),
    D.Accepts (n.makeNullable.render refPrefix) v ↔
      v = .null ∨ D.Accepts (n.render refPrefix) v := by
  intro h
  have hnull := (h plainDialect defaultRefPrefix level .null).mpr (.inl rfl)
  have hroom := hasRoom_of_accepts_makeNullable hnull
  have hlisted := (hasRoom_iff rfl (k := { choices := [.text "low", .text "high"] }) nofun).mp hroom
  simp at hlisted

end Node

end Schemata
