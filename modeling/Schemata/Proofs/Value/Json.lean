import Schemata.Proofs.Descriptor.Reading
import Schemata.Proofs.Value.Mapping
import Schemata.Value.Default

/-!
# Values that JSON has

A document is made of what JSON has: null, truth values, texts, numbers that are finite, lists, and
mappings from texts.  A member of a mixed enumeration counts as the plain value that it stands for,
and so does an instance of a class that extends a builtin.  `Value.isJson` says this of a value with
all that is inside it.

The published form of a value has everything else turned into texts, lists and mappings.  There is
one thing that it leaves as it is: a double may be infinite, or no number at all.  So the published
form is one that JSON has if all doubles in the value are finite (`isJson_of_jsonForm`).  A decimal
that is a default is published as a number; that of an infinite one fails, so that it has no
published form, but one that is no number becomes such a double (`isJson_of_literal`).
-/

namespace Schemata

namespace Value

/-! ## What JSON has -/

mutual

/-- **Whether JSON has a value**, with all that is inside it. -/
def isJson : Value → Bool
  | .null | .bool _ | .int _ | .text _ => true
  | .float x => x.isFinite
  | .list xs => areJson xs
  | .dict es => haveJson es
  | .member label _ v => label.mixed && isJson v
  | .object label (some v) _ => label.form == .plain && isJson v
  | _ => false
termination_by structural v => v

/-- Whether JSON has some values. -/
def areJson : List Value → Bool
  | [] => true
  | x :: xs => isJson x && areJson xs
termination_by structural xs => xs

/-- Whether entries have texts for their keys, and JSON has their values. -/
def haveJson : List (Value × Value) → Bool
  | [] => true
  | (k, v) :: es => k.text?.isSome && isJson v && haveJson es
termination_by structural es => es

end

@[simp] theorem areJson_eq_true_iff {xs : List Value} :
    areJson xs = true ↔ ∀ x ∈ xs, x.isJson = true := by
  induction xs with
  | nil => exact ⟨nofun, fun _ => rfl⟩
  | cons x xs ih => rw [areJson, Bool.and_eq_true, ih, List.forall_mem_cons]

@[simp] theorem haveJson_eq_true_iff {es : List (Value × Value)} :
    haveJson es = true ↔ ∀ e ∈ es, e.1.text?.isSome = true ∧ e.2.isJson = true := by
  induction es with
  | nil => exact ⟨nofun, fun _ => rfl⟩
  | cons e es ih => rw [haveJson, Bool.and_eq_true, Bool.and_eq_true, ih, List.forall_mem_cons]

@[simp] theorem isJson_list {xs : List Value} :
    (Value.list xs).isJson = true ↔ ∀ x ∈ xs, x.isJson = true := by
  simp [isJson]

@[simp] theorem isJson_dict {es : List (Value × Value)} : (Value.dict es).isJson = true ↔
    ∀ e ∈ es, e.1.text?.isSome = true ∧ e.2.isJson = true := by
  simp [isJson]

/-- A mapping from names. -/
@[simp] theorem isJson_ofFields {fs : List (String × Value)} :
    (ofFields fs).isJson = true ↔ ∀ f ∈ fs, f.2.isJson = true := by
  rw [ofFields, isJson_dict, List.forall_mem_map]
  exact ⟨fun h f hf => (h f hf).2, fun h f hf => ⟨rfl, h f hf⟩⟩

/-- What JSON has is told by the plain value behind it. -/
theorem isJson_core (v : Value) (h : v.isJson = true) : v.core.isJson = true := by
  cases v with
  | member label name v =>
    rw [isJson, Bool.and_eq_true] at h
    rw [core, if_pos h.1]
    exact isJson_core v h.2
  | object label extended attributes =>
    cases extended with
    | none => cases h
    | some v =>
      rw [isJson, Bool.and_eq_true, beq_iff_eq] at h
      rw [core, h.1]
      exact isJson_core v h.2
  | _ => exact h
termination_by structural v

theorem isJson_of_core (v : Value) (h : v.core.isJson = true) : v.isJson = true := by
  cases v with
  | member label name v =>
    rw [core] at h
    split at h
    next hmixed =>
      rw [isJson, hmixed]
      exact isJson_of_core v h
    · exact h
  | object label extended attributes =>
    cases extended with
    | none => exact h
    | some v =>
      rw [core] at h
      cases hform : label.form with
      | plain =>
        rw [hform] at h
        rw [isJson, hform]
        exact isJson_of_core v h
      | fields | model =>
        rw [hform] at h
        exact h
  | _ => exact h
termination_by structural v

/-- JSON has whatever stands for a text. -/
theorem isJson_of_text? {v : Value} (h : v.text?.isSome = true) : v.isJson = true := by
  refine isJson_of_core v ?_
  unfold text? at h
  split at h
  next hcore => rw [hcore]; rfl
  · cases h

/-- What a value is made of is of JSON as well as the value. -/
theorem isJson_of_elements? {v : Value} {xs : List Value} (h : v.isJson = true)
    (hxs : v.elements? = some xs) : ∀ x ∈ xs, x.isJson = true := by
  have hcore (hxs : elements?.elementsOf v.core = some xs) : ∀ x ∈ xs, x.isJson = true := by
    have hjson := isJson_core v h
    generalize v.core = u at hjson hxs
    cases u with
    | list ys =>
      cases hxs
      exact isJson_list.mp hjson
    | object label extended attributes =>
      cases extended with
      | none => cases hjson
      | some u =>
        rw [isJson, Bool.and_eq_true, beq_iff_eq] at hjson
        unfold elements?.elementsOf at hxs
        dsimp only at hxs
        rw [hjson.1] at hxs
        cases hxs
    | null | bool | int | float | text | dict | member => cases hxs
    | _ => cases hjson
  cases v with
  | member label name w =>
    rw [isJson, Bool.and_eq_true] at h
    unfold elements? at hxs
    dsimp only at hxs
    split at hxs
    next named hbits =>
      cases hxs
      have hone (b : String × Nat) : (Value.member label b.1 (.int b.2)).isJson = true := by
        rw [isJson, h.1]
        rfl
      intro x hx
      unfold bitMembers at hx
      dsimp only at hx
      split at hx
      · obtain ⟨b, -, rfl⟩ := List.mem_map.mp hx
        exact hone b
      · obtain ⟨b, -, rfl⟩ := List.mem_map.mp hx
        cases named.find? (·.2 == b) with
        | none => rfl
        | some found => exact hone found
    · exact hcore hxs
  | _ => exact hcore hxs

theorem isJson_of_entries? {v : Value} {es : List (Value × Value)} (h : v.isJson = true)
    (hes : v.entries? = some es) : ∀ e ∈ es, e.2.isJson = true := by
  have hcore := isJson_core v h
  unfold entries? at hes
  split at hes
  next es' heq =>
    cases hes
    rw [heq] at hcore
    exact fun e he => (isJson_dict.mp hcore e he).2
  · cases hes

/-! ## Published forms -/

mutual

/-- **Whether all doubles are finite** that the published form of a value takes over. -/
def isFinite : Value → Bool
  | .float x => x.isFinite
  | .list xs => areFinite xs
  | .tuple xs => areFinite xs
  | .set _ xs => areFinite xs
  | .dict es => haveFinite es
  | .member _ _ v => isFinite v
  | .object label (some v) attributes =>
    if label.form == .plain then isFinite v else holdFinite attributes
  | .object label none attributes => label.form == .plain || holdFinite attributes
  | _ => true
termination_by structural v => v

/-- Whether all doubles in some values are finite. -/
def areFinite : List Value → Bool
  | [] => true
  | x :: xs => isFinite x && areFinite xs
termination_by structural xs => xs

/-- Whether all doubles in the values of entries are finite. -/
def haveFinite : List (Value × Value) → Bool
  | [] => true
  | (_, v) :: es => isFinite v && haveFinite es
termination_by structural es => es

/-- Whether all doubles in the values of fields are finite. -/
def holdFinite : List (String × Value) → Bool
  | [] => true
  | (_, v) :: fs => isFinite v && holdFinite fs
termination_by structural fs => fs

end

/-- A mapping from names to values of JSON is one, whatever it is put together from. -/
theorem isJson_ofFields_setKeys {fs : List (String × Value)} (h : ∀ f ∈ fs, f.2.isJson = true) :
    (ofFields (setKeys fs [])).isJson = true := by
  have hset := forall_setKeys (P := fun _ => True) (Q := fun v => v.isJson = true)
    (fun f hf => ⟨trivial, h f hf⟩) (m := []) (by simp)
  exact isJson_ofFields.mpr fun f hf => (hset f hf).2

mutual

/-- **The published form of a value is one that JSON has**, if the doubles in the value are
finite. -/
theorem isJson_of_jsonForm {v w : Value} (h : v.jsonForm = .ok w) (hv : v.isFinite = true) :
    w.isJson = true := by
  cases v with
  | null | bool | int | decimal | text | date | moment | clock | duration | uuid =>
    cases h
    rfl
  | float x =>
    cases h
    exact hv
  | bytes =>
    unfold jsonForm at h
    split at h
    · cases h
      rfl
    · cases h
  | list xs | tuple xs | set _ xs =>
    obtain ⟨ws, hws, hw⟩ := exists_of_bind_eq_ok h
    cases hw
    exact isJson_list.mpr (isJson_of_jsonForms hws hv)
  | dict es =>
    obtain ⟨fs, hfs, hw⟩ := exists_of_bind_eq_ok h
    cases hw
    exact isJson_ofFields_setKeys (isJson_of_jsonEntries hfs hv)
  | member _ _ v => exact isJson_of_jsonForm (v := v) h hv
  | object label extended attributes =>
    have hfields {label : ObjectLabel}
        (h : (do return ofFields (setKeys (← jsonFields label.form attributes) [])) = .ok w)
        (hv : holdFinite attributes = true) : w.isJson = true := by
      obtain ⟨fs, hfs, hw⟩ := exists_of_bind_eq_ok h
      cases hw
      exact isJson_ofFields_setKeys (isJson_of_jsonFields hfs hv)
    cases extended with
    | some v =>
      unfold jsonForm at h
      unfold isFinite at hv
      split at h
      next hplain =>
        rw [if_pos hplain] at hv
        exact isJson_of_jsonForm h hv
      next hplain =>
        rw [if_neg hplain] at hv
        exact hfields h hv
    | none =>
      unfold jsonForm at h
      unfold isFinite at hv
      split at h
      next =>
        cases h
        rfl
      next hplain =>
        rw [Bool.eq_false_iff.mpr hplain, Bool.false_or] at hv
        exact hfields h hv
termination_by structural v

theorem isJson_of_jsonForms {xs ws : List Value} (h : jsonForms xs = .ok ws)
    (hxs : areFinite xs = true) : ∀ w ∈ ws, w.isJson = true := by
  cases xs with
  | nil =>
    cases h
    exact nofun
  | cons x xs =>
    obtain ⟨hx, hxs⟩ := Bool.and_eq_true _ _ ▸ hxs
    obtain ⟨w, hw, h⟩ := exists_of_bind_eq_ok h
    obtain ⟨ws', hws, h⟩ := exists_of_bind_eq_ok h
    cases h
    exact List.forall_mem_cons.mpr ⟨isJson_of_jsonForm hw hx, isJson_of_jsonForms hws hxs⟩
termination_by structural xs

theorem isJson_of_jsonEntries {es : List (Value × Value)} {fs : List (String × Value)}
    (h : jsonEntries es = .ok fs) (hes : haveFinite es = true) : ∀ f ∈ fs, f.2.isJson = true := by
  cases es with
  | nil =>
    cases h
    exact nofun
  | cons e es =>
    obtain ⟨k, v⟩ := e
    obtain ⟨hv, hes⟩ := Bool.and_eq_true _ _ ▸ hes
    obtain ⟨key, -, h⟩ := exists_of_bind_eq_ok h
    obtain ⟨w, hw, h⟩ := exists_of_bind_eq_ok h
    obtain ⟨fs', hfs, h⟩ := exists_of_bind_eq_ok h
    cases h
    exact List.forall_mem_cons.mpr ⟨isJson_of_jsonForm hw hv, isJson_of_jsonEntries hfs hes⟩
termination_by structural es

theorem isJson_of_jsonFields {form : ObjectForm} {as fs : List (String × Value)}
    (h : jsonFields form as = .ok fs) (has : holdFinite as = true) :
    ∀ f ∈ fs, f.2.isJson = true := by
  cases as with
  | nil =>
    cases h
    exact nofun
  | cons a as =>
    obtain ⟨n, v⟩ := a
    obtain ⟨hv, has⟩ := Bool.and_eq_true _ _ ▸ has
    obtain ⟨w, hw, h⟩ := exists_of_bind_eq_ok h
    obtain ⟨fs', hfs, h⟩ := exists_of_bind_eq_ok h
    cases h
    exact List.forall_mem_cons.mpr ⟨isJson_of_jsonForm hw hv, isJson_of_jsonFields hfs has⟩
termination_by structural as

end

/-- Whether the number is finite that a decimal is published as.  One that is whole is published as
a whole number and any other as a double, and an infinite one is not published. -/
def finiteNumber : Decimal → Bool
  | .nan .. => false
  | .infinite _ => true
  | d => d.toInt?.isSome || (Binary64.ofDecimal d).isFinite

theorem isJson_of_literalDecimal {d : Decimal} {w : Value} (h : literalDecimal d = .ok w)
    (hd : finiteNumber d = true) : w.isJson = true := by
  cases d with
  | nan => cases hd
  | infinite => cases h
  | finite neg c e =>
    unfold literalDecimal at h
    unfold finiteNumber at hd
    dsimp only at h hd
    cases hint : (Decimal.finite neg c e).toInt? with
    | some n =>
      rw [hint] at h
      cases h
      rfl
    | none =>
      rw [hint] at h hd
      cases h
      exact hd

/-- **Whether all doubles are finite** that a default is published with.  A member is published by
its name. -/
def isFiniteDefault (v : Value) : Bool :=
  match v with
  | .member .. => true
  | v =>
    match v.core with
    | .decimal d => finiteNumber d
    | _ => v.isFinite

/-- **The published form of a default is one that JSON has**, if its doubles are finite. -/
theorem isJson_of_literal {v w : Value} (h : v.literal = .ok w) (hv : v.isFiniteDefault = true) :
    w.isJson = true := by
  have hcore (h : (match v.core with | .decimal d => literalDecimal d | _ => v.jsonForm) = .ok w)
      (hv : (match v.core with | .decimal d => finiteNumber d | _ => v.isFinite) = true) :
      w.isJson = true := by
    generalize v.core = u at h hv
    cases u with
    | decimal d => exact isJson_of_literalDecimal h hv
    | _ => exact isJson_of_jsonForm h hv
  unfold literal at h
  unfold isFiniteDefault at hv
  cases v with
  | member =>
    cases h
    rfl
  | _ => exact hcore h hv

end Value

end Schemata
