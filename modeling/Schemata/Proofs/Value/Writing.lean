import Schemata.Json.Layout
import Schemata.Proofs.Fault.Causes
import Schemata.Proofs.Value.Json

/-!
# Values that can be written

A document is written one value after the other, and writing it fails at the first value that is
none of those that JSON has, or that is a whole number too long to be written out.  So whatever JSON
has can be written, at whatever level it stands, if its numbers can be spelled (`exists_document`).
The reverse does not hold: doubles that are not finite are written by their names, and so are keys
that are simple values without being texts.
-/

namespace Schemata

namespace Value

variable {v : Value}

/-- **A value that can be written**: JSON has it, and no number in it is too long. -/
def IsWritable (v : Value) : Prop :=
  v.isJson = true ∧ v.isSpelled = true

@[simp] theorem allSpelled_eq_true_iff {xs : List Value} :
    allSpelled xs = true ↔ ∀ x ∈ xs, x.isSpelled = true := by
  induction xs with
  | nil => exact ⟨nofun, fun _ => rfl⟩
  | cons x xs ih => rw [allSpelled, Bool.and_eq_true, ih, List.forall_mem_cons]

@[simp] theorem entriesSpelled_eq_true_iff {es : List (Value × Value)} :
    entriesSpelled es = true ↔ ∀ e ∈ es, e.1.isSpelled = true ∧ e.2.isSpelled = true := by
  induction es with
  | nil => exact ⟨nofun, fun _ => rfl⟩
  | cons e es ih =>
    rw [entriesSpelled, Bool.and_eq_true, Bool.and_eq_true, ih, List.forall_mem_cons]

theorem isWritable_text (s : String) : (Value.text s).IsWritable :=
  ⟨rfl, rfl⟩

@[simp] theorem isWritable_list {xs : List Value} :
    (Value.list xs).IsWritable ↔ ∀ x ∈ xs, x.IsWritable := by
  rw [IsWritable, isJson_list, isSpelled, allSpelled_eq_true_iff]
  exact forall₂_and.symm

/-- A mapping from names. -/
@[simp] theorem isWritable_ofFields {fs : List (String × Value)} :
    (ofFields fs).IsWritable ↔ ∀ f ∈ fs, f.2.IsWritable := by
  rw [IsWritable, isJson_ofFields, ofFields, isSpelled, entriesSpelled_eq_true_iff,
    List.forall_mem_map]
  exact ⟨fun h f hf => ⟨h.1 f hf, (h.2 f hf).2⟩, fun h => ⟨fun f hf => (h f hf).1,
    fun f hf => ⟨rfl, (h f hf).2⟩⟩⟩

/-- A value of a class that extends a type without more is spelled like what it extends. -/
theorem isSpelled_object_plain {label : ObjectLabel} {attributes : List (String × Value)}
    (hplain : (label.form == .plain) = true) :
    (Value.object label (some v) attributes).isSpelled = v.isSpelled := by
  by_cases hset : ∃ frozen xs, v = .set frozen xs
  · obtain ⟨frozen, xs, rfl⟩ := hset
    simp only [isSpelled, if_pos hplain]
  · rw [isSpelled, if_pos hplain]
    exact fun frozen xs hv => hset ⟨frozen, xs, hv⟩

theorem isSpelled_of_core_eq_text {s : String} (v : Value) (h : v.core = .text s) :
    v.isSpelled = true := by
  cases v with
  | text => rfl
  | member label name v =>
    rw [core] at h
    split at h
    · exact isSpelled_of_core_eq_text v h
    · cases h
  | object label extended attributes =>
    cases extended with
    | none => cases h
    | some v =>
      rw [core] at h
      split at h
      next hplain =>
        rw [isSpelled_object_plain (beq_iff_eq.mpr hplain)]
        exact isSpelled_of_core_eq_text v h
      next => cases h
  | _ => cases h
termination_by structural v

/-- Whatever stands for a text can be written. -/
theorem isWritable_of_text? (h : v.text?.isSome = true) : v.IsWritable := by
  refine ⟨isJson_of_text? h, ?_⟩
  unfold text? at h
  split at h
  next hcore => exact isSpelled_of_core_eq_text v hcore
  next => cases h

end Value

/-- A fault of a value that cannot be written: it is of no kind that JSON has, or a key of none that
stands for a text, or a number that is too long. -/
def Fault.OfWriting (e : Fault) : Prop :=
  (∃ kind, e = .notJson kind) ∨ (∃ kind, e = .unwritableKey kind) ∨ e = .tooManyDigits

namespace Json

open Value (isJson areJson haveJson isSpelled allSpelled entriesSpelled)

theorem writeKey_of_text? {k : Value} {s : String} (h : k.text? = some s) :
    writeKey k = .ok (writeText s) := by
  unfold Value.text? at h
  unfold writeKey
  split at h
  next hcore =>
    cases h
    rw [hcore]
  next => cases h

mutual

/-- **What JSON has can be written**, if it can be spelled. -/
theorem exists_write (v : Value) (h : v.isJson = true) (hspelled : v.isSpelled = true)
    (level : Nat) : ∃ text, write v level = .ok text := by
  cases v with
  | int n =>
    rw [write, writeInt, if_pos hspelled]
    exact ⟨_, rfl⟩
  | list xs =>
    rw [isSpelled] at hspelled
    obtain ⟨parts, hparts⟩ := exists_writeItems xs h hspelled (level + 1)
    rw [write, hparts]
    exact ⟨_, rfl⟩
  | dict es =>
    rw [isSpelled] at hspelled
    obtain ⟨parts, hparts⟩ := exists_writeEntries es h hspelled (level + 1)
    rw [write, hparts]
    exact ⟨_, rfl⟩
  | member label name v =>
    rw [isJson, Bool.and_eq_true] at h
    rw [isSpelled] at hspelled
    obtain ⟨text, htext⟩ := exists_write v h.2 hspelled level
    rw [write, if_pos h.1]
    exact ⟨text, htext⟩
  | object label extended attributes =>
    cases extended with
    | none => cases h
    | some v =>
      rw [isJson, Bool.and_eq_true] at h
      rw [Value.isSpelled_object_plain h.1] at hspelled
      obtain ⟨text, htext⟩ := exists_write v h.2 hspelled level
      rw [write, if_pos h.1, htext]
      exact ⟨text, rfl⟩
  | null | bool | float | text =>
    rw [write]
    exact ⟨_, rfl⟩
  | _ => cases h
termination_by structural v

theorem exists_writeItems (xs : List Value) (h : areJson xs = true)
    (hspelled : allSpelled xs = true) (level : Nat) : ∃ parts, writeItems xs level = .ok parts := by
  cases xs with
  | nil => exact ⟨[], rfl⟩
  | cons x xs =>
    rw [areJson, Bool.and_eq_true] at h
    rw [allSpelled, Bool.and_eq_true] at hspelled
    obtain ⟨text, htext⟩ := exists_write x h.1 hspelled.1 level
    obtain ⟨parts, hparts⟩ := exists_writeItems xs h.2 hspelled.2 level
    rw [writeItems, htext, hparts]
    exact ⟨_, rfl⟩
termination_by structural xs

theorem exists_writeEntries (es : List (Value × Value)) (h : haveJson es = true)
    (hspelled : entriesSpelled es = true) (level : Nat) :
    ∃ parts, writeEntries es level = .ok parts := by
  cases es with
  | nil => exact ⟨[], rfl⟩
  | cons e es =>
    obtain ⟨k, v⟩ := e
    rw [haveJson, Bool.and_eq_true, Bool.and_eq_true, Option.isSome_iff_exists] at h
    rw [entriesSpelled, Bool.and_eq_true, Bool.and_eq_true] at hspelled
    obtain ⟨⟨⟨s, hk⟩, hv⟩, hes⟩ := h
    obtain ⟨text, htext⟩ := exists_write v hv hspelled.1.2 level
    obtain ⟨parts, hparts⟩ := exists_writeEntries es hes hspelled.2 level
    rw [writeEntries, writeKey_of_text? hk, htext, hparts]
    exact ⟨_, rfl⟩
termination_by structural es

end

theorem failsOnly_writeInt (n : Int) : FailsOnly Fault.OfWriting (writeInt n) :=
  .ite (.ok _) (.error (.inr (.inr rfl)))

theorem failsOnly_writeKey (k : Value) : FailsOnly Fault.OfWriting (writeKey k) := by
  unfold writeKey
  split
  case h_5 n _ => exact (failsOnly_writeInt n).bind fun _ => .ok _
  case h_6 => exact .error (.inr (.inl ⟨_, rfl⟩))
  all_goals exact .ok _

mutual

/-- **Writing a value fails** where it meets one that cannot be written. -/
theorem failsOnly_write (v : Value) (level : Nat) : FailsOnly Fault.OfWriting (write v level) := by
  cases v with
  | int n => exact failsOnly_writeInt n
  | list xs | tuple xs => exact (failsOnly_writeItems xs _).bind fun _ => .ok _
  | dict es => exact (failsOnly_writeEntries es _).bind fun _ => .ok _
  | member label name v => exact .ite (failsOnly_write v level) (.error (.inl ⟨_, rfl⟩))
  | object label extended attributes =>
    cases extended with
    | none => exact .error (.inl ⟨_, rfl⟩)
    | some v =>
      have hv := failsOnly_write v level
      refine .ite ?_ (.error (.inl ⟨_, rfl⟩))
      split
      · exact .error (.inl ⟨_, rfl⟩)
      · exact hv
  | null | bool | float | text => exact .ok _
  | _ => exact .error (.inl ⟨_, rfl⟩)
termination_by structural v

theorem failsOnly_writeItems (xs : List Value) (level : Nat) :
    FailsOnly Fault.OfWriting (writeItems xs level) := by
  cases xs with
  | nil => exact .ok _
  | cons x xs =>
    exact (failsOnly_write x level).bind fun _ =>
      (failsOnly_writeItems xs level).bind fun _ => .ok _
termination_by structural xs

theorem failsOnly_writeEntries (es : List (Value × Value)) (level : Nat) :
    FailsOnly Fault.OfWriting (writeEntries es level) := by
  cases es with
  | nil => exact .ok _
  | cons e es =>
    obtain ⟨k, v⟩ := e
    exact (failsOnly_writeKey k).bind fun _ => (failsOnly_write v level).bind fun _ =>
      (failsOnly_writeEntries es level).bind fun _ => .ok _
termination_by structural es

end

/-- **A value that can be written has a document.** -/
theorem exists_document {v : Value} (h : v.IsWritable) : ∃ text, document v = .ok text :=
  exists_write v h.1 h.2 0

/-- What has no document cannot be written. -/
theorem not_isWritable_of_error {v : Value} {f : Fault} (h : document v = .error f) :
    ¬ v.IsWritable := by
  intro hv
  obtain ⟨text, htext⟩ := exists_document hv
  cases htext.symm.trans h

end Json

end Schemata
