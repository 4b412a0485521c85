import Schemata.Proofs.Annotation.Merging
import Schemata.Proofs.Value.Json

/-!
# Constraints that JSON has

Annotations are folded into constraints and constraints are written onto schemas, and much of what
they carry is carried along as it was given: texts, bounds, defaults, examples, choices, required
names and vendor data.  This is their `Content`, the same for a set of constraints as for the
keywords of a schema.  One content is laid over another in one way (`Content.laidOver`), and what
comes out is of JSON if both of them are (`Content.IsJson.laidOver`).

So constraints are of JSON if the values are that their records are made of (`isJson_of_merge`).
There is one reading that takes a value of JSON for something else.  A number that is written out
and not whole is read as a double, and if it is too large for one, as an infinite double
(`Value.overflows`).
-/

namespace Schemata

/-! ## Readings -/

/-- A text, or what stands for one. -/
def Carried.IsText (w : Wording) : Prop :=
  (Value.ofWording w).text?.isSome = true

/-- Whether a number in a constraint is finite. -/
def Number.isFinite : Number → Bool
  | .int _ => true
  | .float x => x.isFinite

namespace Value

variable {v : Value}

/-- Whether a value is a number that is written out and too large for a double. -/
def overflows (v : Value) : Bool :=
  v.asNumber?.any fun b => !b.plain.isFinite

theorem isText_of_wording? {w : Wording} (h : v.wording? = some w) : w.IsText := by
  obtain ⟨s, hs, rfl⟩ := Option.map_eq_some_iff.mp h
  unfold Carried.IsText ofWording Carried.toValue Carried.given
  cases v with
  | member | object =>
    rw [Option.getD_some, hs]
    rfl
  | _ => rfl

theorem isText_of_asText? {w : Wording} (h : w ∈ v.asText?) : w.IsText :=
  isText_of_wording? (Option.filter_eq_some_iff.mp h).1

theorem isText_of_mem_namesAmong {vs : List Value} {w : Wording} (h : w ∈ namesAmong vs) :
    w.IsText := by
  obtain ⟨v, -, hv⟩ := List.mem_filterMap.mp h
  exact isText_of_wording? (Option.filter_eq_some_iff.mp hv).1

theorem isText_vendorKey {w : Wording} (h : w.IsText) : (vendorKey w).IsText := by
  unfold vendorKey
  split
  · exact h
  · rfl

@[simp] theorem plain_given {α : Type} (v : Value) (plain : α) :
    (Carried.given v plain).plain = plain := by
  cases v <;> rfl

/-- Entries of JSON stay so when they are set in a mapping of JSON. -/
theorem isJson_setKeys {es m : List (Wording × Value)}
    (hes : ∀ e ∈ es, e.1.IsText ∧ e.2.isJson = true)
    (hm : ∀ e ∈ m, e.1.IsText ∧ e.2.isJson = true) :
    ∀ e ∈ setKeys es m, e.1.IsText ∧ e.2.isJson = true :=
  forall_setKeys (P := Carried.IsText) (Q := fun v => isJson v = true) hes hm

/-- What a value was given for is that value or the plain thing. -/
theorem isJson_given {α : Type} {plainly : α → Value} {plain : α} (hv : v.isJson = true)
    (hplain : (plainly plain).isJson = true) :
    ((Carried.given v plain).toValue plainly).isJson = true := by
  unfold Carried.toValue Carried.given
  cases v with
  | member | object => exact hv
  | _ => exact hplain

theorem isJson_of_asNumber? {b : Bound} (hv : v.isJson = true) (hover : v.overflows = false)
    (h : b ∈ v.asNumber?) : (b.toValue Number.toValue).isJson = true := by
  have hfinite : (Number.toValue b.plain).isJson = true := by
    unfold overflows at hover
    rw [h, Option.any_some, Bool.not_eq_false'] at hover
    generalize b.plain = n at hover
    cases n with
    | int n => rfl
    | float x => exact hover
  have hgiven {n : Number} (hn : Carried.given v n = b) :
      (b.toValue Number.toValue).isJson = true := by
    rw [← hn]
    refine isJson_given hv ?_
    rwa [← hn, plain_given] at hfinite
  unfold asNumber? at h
  split at h
  · exact hgiven (Option.some.inj h)
  · split at h
    · exact hgiven (Option.some.inj h)
    · cases h
  · obtain ⟨n, -, rfl⟩ := Option.map_eq_some_iff.mp h
    exact hfinite
  · obtain ⟨n, -, rfl⟩ := Option.map_eq_some_iff.mp h
    exact hfinite
  · cases h

theorem isJson_of_nonNull? {w : Value} (hv : v.isJson = true) (h : w ∈ v.nonNull?) :
    w.isJson = true := by
  unfold nonNull? at h
  split at h <;> cases h
  exact hv

theorem isJson_of_asValues (hv : v.isJson = true) : ∀ w ∈ v.asValues, w.isJson = true := by
  unfold asValues
  split
  · exact List.forall_mem_nil _
  · cases h : v.elements? with
    | none => exact List.forall_mem_singleton.mpr hv
    | some xs => exact isJson_of_elements? hv h

end Value

/-! ## Contents -/

/-- What constraints and keywords carry as it was given. -/
structure Content where
  title : Option Wording := none
  description : Option Wording := none
  format : Option Wording := none
  pattern : Option Wording := none
  minimum : Option Bound := none
  maximum : Option Bound := none
  multipleOf : Option Bound := none
  default : Option Value := none
  sample : Option Value := none
  samples : List Value := []
  choices : List Value := []
  required : List Wording := []
  extensions : List (Wording × Value) := []

namespace Content

/-- **What is carried is of JSON.** -/
structure IsJson (c : Content) : Prop where
  title : ∀ w ∈ c.title, w.IsText
  description : ∀ w ∈ c.description, w.IsText
  format : ∀ w ∈ c.format, w.IsText
  pattern : ∀ w ∈ c.pattern, w.IsText
  minimum : ∀ b ∈ c.minimum, (b.toValue Number.toValue).isJson = true
  maximum : ∀ b ∈ c.maximum, (b.toValue Number.toValue).isJson = true
  multipleOf : ∀ b ∈ c.multipleOf, (b.toValue Number.toValue).isJson = true
  default : ∀ v ∈ c.default, v.isJson = true
  sample : ∀ v ∈ c.sample, v.isJson = true
  samples : ∀ v ∈ c.samples, v.isJson = true
  choices : ∀ v ∈ c.choices, v.isJson = true
  required : ∀ w ∈ c.required, w.IsText
  extensions : ∀ e ∈ c.extensions, e.1.IsText ∧ e.2.isJson = true

/-- **A content laid over another**, given what becomes of the choices. -/
def laidOver (upper lower : Content) (choices : List Value) : Content where
  title := Constraints.upperText upper.title lower.title
  description := Constraints.upperText upper.description lower.description
  format := Constraints.upperText upper.format lower.format
  pattern := Constraints.upperText upper.pattern lower.pattern
  minimum := upper.minimum <|> lower.minimum
  maximum := upper.maximum <|> lower.maximum
  multipleOf := upper.multipleOf <|> lower.multipleOf
  default := upper.default <|> lower.default
  sample := upper.sample <|> lower.sample
  samples := Constraints.upperList upper.samples lower.samples
  choices := choices
  required := Constraints.appendNames lower.required upper.required
  extensions := setKeys upper.extensions lower.extensions

section

variable {α : Type} {P : α → Prop}

theorem forall_orElse {a b : Option α} (ha : ∀ x ∈ a, P x) (hb : ∀ x ∈ b, P x) :
    ∀ x ∈ a <|> b, P x := by
  cases a with
  | none => exact hb
  | some x => exact ha

theorem forall_upperText {P : Wording → Prop} {a b : Option Wording} (ha : ∀ w ∈ a, P w)
    (hb : ∀ w ∈ b, P w) : ∀ w ∈ Constraints.upperText a b, P w := by
  unfold Constraints.upperText
  split
  · split
    · exact hb
    · exact ha
  · exact hb

theorem forall_upperList {a b : List α} (ha : ∀ x ∈ a, P x) (hb : ∀ x ∈ b, P x) :
    ∀ x ∈ Constraints.upperList a b, P x := by
  unfold Constraints.upperList
  split
  · exact hb
  · exact ha

theorem forall_appendNames {P : Wording → Prop} {a b : List Wording} (ha : ∀ w ∈ a, P w)
    (hb : ∀ w ∈ b, P w) : ∀ w ∈ Constraints.appendNames a b, P w := by
  intro w hw
  rw [Constraints.appendNames_eq_collect] at hw
  rcases List.mem_append.mp (collect_subset hw) with hw | hw
  · exact ha w hw
  · exact hb w hw

end

variable {upper lower : Content}

/-- What carries nothing is of JSON. -/
theorem isJson_empty : IsJson {} := by
  constructor <;> exact nofun

/-- **A content of JSON laid over one of JSON** is of JSON. -/
theorem IsJson.laidOver {choices : List Value} (hu : upper.IsJson) (hl : lower.IsJson)
    (hchoices : ∀ v ∈ choices, v.isJson = true) : (upper.laidOver lower choices).IsJson where
  title := forall_upperText hu.title hl.title
  description := forall_upperText hu.description hl.description
  format := forall_upperText hu.format hl.format
  pattern := forall_upperText hu.pattern hl.pattern
  minimum := forall_orElse hu.minimum hl.minimum
  maximum := forall_orElse hu.maximum hl.maximum
  multipleOf := forall_orElse hu.multipleOf hl.multipleOf
  default := forall_orElse hu.default hl.default
  sample := forall_orElse hu.sample hl.sample
  samples := forall_upperList hu.samples hl.samples
  choices := hchoices
  required := forall_appendNames hl.required hu.required
  extensions := Value.isJson_setKeys hu.extensions hl.extensions

end Content

/-- What a set of constraints carries. -/
def Constraints.content (c : Constraints) : Content :=
  ⟨c.title, c.description, c.format, c.pattern, c.minimum, c.maximum, c.multipleOf, c.default,
    c.sample, c.samples, c.choices, c.required, c.extensions⟩

/-! ## Records -/

namespace Record

/-- The names of bounds. -/
def boundNames : List String :=
  ["minimum", "maximum", "multiple_of", "multipleOf"]

/-- The values that a record gives for bounds. -/
def bounds (r : Record) : List Value :=
  match Topic.ofName? r.name with
  | some .group => (r.named.filter fun e => boundNames.contains e.1).map (·.2)
  | some .range => [r.namedOr "minimum" 0, r.namedOr "maximum" 1]
  | _ => []

theorem bounds_choices (vs : List Value) : (Record.choices vs).bounds = [] := by
  have htopic : Topic.ofName? "Choices" = some .choices := by decide +kernel
  rw [bounds, choices, htopic]

/-- The values that a record is made of. -/
def values (r : Record) : List Value :=
  r.args ++ r.named.map (·.2)

/-- **A record is made of values of JSON**, and none of its bounds is written out and too large. -/
structure IsJson (r : Record) : Prop where
  values : ∀ v ∈ r.values, v.isJson = true
  bounds : ∀ v ∈ r.bounds, v.overflows = false

end Record

namespace Constraints

variable {c c' : Constraints} {v : Value} {key : String}

/-- A named constraint is of JSON if its value is. -/
theorem isJson_assign (hc : c.content.IsJson) (hv : v.isJson = true)
    (hover : key ∈ Record.boundNames → v.overflows = false) (h : c.assign key v = .ok c') :
    c'.content.IsJson := by
  have htext : ∀ w ∈ v.asText?, w.IsText := fun _ => Value.isText_of_asText?
  have hnumber (hkey : key ∈ Record.boundNames) :
      ∀ b ∈ v.asNumber?, (b.toValue Number.toValue).isJson = true :=
    fun _ => Value.isJson_of_asNumber? hv (hover hkey)
  have hpayload : ∀ w ∈ v.nonNull?, w.isJson = true := fun _ => Value.isJson_of_nonNull? hv
  have hvalues := Value.isJson_of_asValues hv
  unfold assign at h
  split at h
  -- most names set something that is not carried along, and the others set one thing each
  all_goals first
    | cases h
      first
        | exact hc
        | exact { hc with title := htext }
        | exact { hc with description := htext }
        | exact { hc with format := htext }
        | exact { hc with pattern := htext }
        | exact { hc with minimum := hnumber (by decide) }
        | exact { hc with maximum := hnumber (by decide) }
        | exact { hc with multipleOf := hnumber (by decide) }
        | exact { hc with default := hpayload }
        | exact { hc with sample := hpayload }
        | exact { hc with samples := hvalues }
        | exact { hc with choices := hvalues }
        | exact { hc with required := fun _ => Value.isText_of_mem_namesAmong }
    | obtain ⟨n, -, h⟩ := exists_of_bind_eq_ok h
      cases h
      exact hc
    | skip
  next =>
    split at h
    next es hes =>
      cases h
      refine { hc with extensions := Value.isJson_setKeys ?_ (List.forall_mem_nil _) }
      refine List.forall_mem_map.mpr fun e he => ⟨Value.isText_vendorKey rfl, ?_⟩
      exact Value.isJson_of_entries? hv hes e he
    next =>
      cases h
      exact hc

theorem isJson_assignAll {named : List (String × Value)} (hc : c.content.IsJson)
    (hnamed : ∀ e ∈ named, e.2.isJson = true)
    (hover : ∀ e ∈ named, e.1 ∈ Record.boundNames → e.2.overflows = false)
    (h : c.assignAll named = .ok c') : c'.content.IsJson := by
  induction named generalizing c with
  | nil =>
    cases h
    exact hc
  | cons e named ih =>
    obtain ⟨c₁, h₁, h⟩ := exists_of_bind_eq_ok h
    obtain ⟨he, hnamed⟩ := List.forall_mem_cons.mp hnamed
    obtain ⟨hbound, hover⟩ := List.forall_mem_cons.mp hover
    exact ih (isJson_assign hc he hbound h₁) hnamed hover h

end Constraints

namespace Record

variable {r : Record} {c : Constraints}

namespace IsJson

variable (hr : r.IsJson)
include hr

theorem args : ∀ v ∈ r.args, v.isJson = true :=
  fun v hv => hr.values v (List.mem_append_left _ hv)

theorem named : ∀ e ∈ r.named, e.2.isJson = true :=
  fun _ he => hr.values _ (List.mem_append_right _ (List.mem_map_of_mem he))

theorem arg (i : Nat) : (r.arg i).isJson = true := by
  unfold Record.arg
  cases h : r.args[i]? with
  | none => rfl
  | some v => exact hr.args v (List.mem_of_getElem? h)

/-- A named argument that has another value where it is not given. -/
theorem getD_named (key : String) {v : Value} (hv : v.isJson = true) :
    ((getKey? key r.named).getD v).isJson = true := by
  cases h : getKey? key r.named with
  | none => exact hv
  | some w => exact hr.named _ (mem_of_getKey? h)

theorem namedOr (key : String) (i : Nat) : (r.namedOr key i).isJson = true :=
  hr.getD_named key (hr.arg i)

theorem flatMap_asValues : ∀ v ∈ r.args.flatMap Value.asValues, v.isJson = true := by
  intro v hv
  obtain ⟨a, ha, hv⟩ := List.mem_flatMap.mp hv
  exact Value.isJson_of_asValues (hr.args a ha) v hv

end IsJson

theorem isJson_vendorData (hr : r.IsJson) :
    ∀ e ∈ r.vendorData, e.1.IsText ∧ e.2.isJson = true := by
  unfold vendorData
  refine Value.isJson_setKeys ?_ ?_
  · exact List.forall_mem_map.mpr fun e he => ⟨Value.isText_vendorKey rfl, hr.named e he⟩
  · split
    next s hs =>
      split
      · exact List.forall_mem_nil _
      · exact List.forall_mem_singleton.mpr
          ⟨Value.isText_vendorKey (Value.isText_of_wording? hs), hr.arg 1⟩
    next => exact List.forall_mem_nil _

/-- **What a record says is of JSON if the record is.** -/
theorem isJson_of_layerOn (hr : r.IsJson) {t : Topic} (ht : Topic.ofName? r.name = some t)
    (h : r.layerOn t = .ok c) : c.content.IsJson := by
  have hempty : (Constraints.content {}).IsJson := Content.isJson_empty
  have hnumber (key : String) (i : Nat) (hover : (r.namedOr key i).overflows = false) :
      ∀ b ∈ (r.namedOr key i).asNumber?, (b.toValue Number.toValue).isJson = true :=
    fun _ => Value.isJson_of_asNumber? (hr.namedOr key i) hover
  have hbounds := hr.bounds
  unfold bounds at hbounds
  rw [ht] at hbounds
  cases t with
  | group =>
    refine Constraints.isJson_assignAll ?_ hr.named ?_ h
    · split
      · exact hempty
      · exact { hempty with description := fun _ => Value.isText_of_asText? }
    · intro e he hkey
      refine hbounds e.2 (List.mem_map_of_mem (List.mem_filter.mpr ⟨he, ?_⟩))
      exact List.contains_iff_mem.mpr hkey
  | required =>
    cases h
    exact { hempty with required := fun _ => Value.isText_of_mem_namesAmong }
  | range =>
    cases h
    exact { hempty with
      minimum := hnumber _ _ (hbounds _ List.mem_cons_self)
      maximum := hnumber _ _ (hbounds _ (List.mem_cons_of_mem _ List.mem_cons_self)) }
  | length | count =>
    obtain ⟨n, -, h⟩ := exists_of_bind_eq_ok h
    obtain ⟨m, -, h⟩ := exists_of_bind_eq_ok h
    cases h
    exact hempty
  | pattern =>
    cases h
    exact { hempty with pattern := fun _ => Value.isText_of_asText? }
  | description =>
    cases h
    exact { hempty with description := fun _ => Value.isText_of_asText? }
  | title =>
    cases h
    exact { hempty with title := fun _ => Value.isText_of_asText? }
  | choices =>
    cases h
    exact { hempty with choices := hr.flatMap_asValues }
  | sample =>
    cases h
    exact { hempty with sample := fun _ => Value.isJson_of_nonNull? (hr.namedOr _ _) }
  | default =>
    cases h
    exact { hempty with default := fun _ => Value.isJson_of_nonNull? (hr.namedOr _ _) }
  | extension =>
    cases h
    exact { hempty with extensions := isJson_vendorData hr }
  | requiredProperty | catchAll | notEmpty | deprecated =>
    cases h
    exact hempty

theorem isJson_of_layer? (hr : r.IsJson) (h : r.layer? = .ok (some c)) : c.content.IsJson := by
  unfold layer? at h
  split at h
  next t ht =>
    obtain ⟨c', hread, h⟩ := exists_of_bind_eq_ok h
    cases h
    exact isJson_of_layerOn hr ht hread
  next => cases h

end Record

/-! ## Layers -/

namespace Constraints

variable {c c' lower upper : Constraints}

/-- Choices are not added but from those given. -/
theorem subset_of_appendUnique {target vs ws : List Value} (h : appendUnique target vs = .ok ws) :
    ws ⊆ target ++ vs := by
  induction vs generalizing target with
  | nil =>
    cases h
    rw [List.append_nil]
    exact List.Subset.refl _
  | cons v vs ih =>
    obtain ⟨there, -, h⟩ := exists_of_bind_eq_ok h
    cases there with
    | true => exact List.Subset.trans (ih h) (by simp)
    | false => exact List.Subset.trans (ih h) (by simp)

theorem isJson_of_fold (hlower : lower.content.IsJson) (hupper : upper.content.IsJson)
    (h : lower.fold upper = .ok c) : c.content.IsJson := by
  obtain ⟨choices, hchoices, h⟩ := exists_of_bind_eq_ok h
  cases h
  refine hupper.laidOver hlower fun v hv => ?_
  rcases List.mem_append.mp (subset_of_appendUnique hchoices hv) with hv | hv
  · exact hlower.choices v hv
  · exact hupper.choices v hv

/-- **Records of JSON amount to constraints of JSON.** -/
theorem isJson_of_merge {rs : List Record} (hrs : ∀ r ∈ rs, r.IsJson) (h : merge rs = .ok c) :
    c.content.IsJson :=
  mergeOnto_induction (P := fun c => c.content.IsJson) (c := {})
    (fun _ _ _ hlower hupper hfold => isJson_of_fold hlower hupper hfold)
    (fun r hr _ hlayer => Record.isJson_of_layer? (hrs r hr) hlayer) Content.isJson_empty h

end Constraints

end Schemata
