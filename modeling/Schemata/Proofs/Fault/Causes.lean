import Schemata.Annotation.Merge
import Schemata.Descriptor.Basic
import Schemata.Value.Default

/-!
# How pure computations can fail

Between its questions about types, the synthesis compares values, looks for keys and merges
annotations.  Each of these can fail, and in very few ways: a comparison fails where it meets a
signaling not-a-number; a key is refused where it holds one, or something that can change; and a
count that is written as no finite number has no integer part.

`FailsOnly P r` says that `r` fails, if it does, with a fault in `P`.  The lemmas follow the
functions, and come to what a host has to expect of them: `failsOnly_merge` for annotations,
`failsOnly_check` for keys and `failsOnly_isIntrinsic` for defaults.  Comparisons are gone through
once for two purposes: they fail with one fault only, and they do not fail at all between values
that hold no signaling not-a-number (`failsOnly_equal`).
-/

namespace Schemata

/-- A pure computation fails with no fault but those of a sort. -/
def FailsOnly {α : Type} (P : Fault → Prop) (r : Except Fault α) : Prop :=
  ∀ e, r = .error e → P e

namespace FailsOnly

variable {α β : Type} {P Q : Fault → Prop}

theorem ok (a : α) : FailsOnly P (.ok a) :=
  nofun

theorem error {e : Fault} (h : P e) : FailsOnly P (.error e : Except Fault α) := by
  rintro _ ⟨⟩
  exact h

theorem mono {r : Except Fault α} (h : FailsOnly P r) (hPQ : ∀ e, P e → Q e) : FailsOnly Q r :=
  fun e he => hPQ e (h e he)

theorem bind {r : Except Fault α} {f : α → Except Fault β} (hr : FailsOnly P r)
    (hf : ∀ a, FailsOnly P (f a)) : FailsOnly P (r >>= f) := by
  cases r with
  | ok a => exact hf a
  | error e => exact fun _ he => hr _ (by cases he; rfl)

/-- The two sides of a choice. -/
theorem ite {c : Prop} [Decidable c] {r r' : Except Fault α} (h : FailsOnly P r)
    (h' : FailsOnly P r') : FailsOnly P (if c then r else r') := by
  split
  · exact h
  · exact h'

end FailsOnly

/-- The fault of a comparison. -/
def Fault.OfComparison (e : Fault) : Prop :=
  e = .signalingComparison

/-- A fault of what cannot be a key. -/
def Fault.OfKey (e : Fault) : Prop :=
  e = .signalingKey ∨ ∃ kind, e = .unhashable kind

/-- A fault of annotations: of a choice that is compared, or of a count. -/
def Fault.OfAnnotation (e : Fault) : Prop :=
  e.OfComparison ∨ e = .infiniteInteger true ∨ e = .undefinedInteger true

/-! ## Comparisons -/

namespace Value

mutual

/-- **Whether a value holds no signaling not-a-number**, wherever inside it. -/
def isQuiet : Value → Bool
  | .decimal (.nan _ signaling _) => !signaling
  | .list xs => areQuiet xs
  | .tuple xs => areQuiet xs
  | .set _ xs => areQuiet xs
  | .dict es => haveQuiet es
  | .member _ _ v => isQuiet v
  | .object _ (some v) attributes => isQuiet v && attributesQuiet attributes
  | .object _ none attributes => attributesQuiet attributes
  | _ => true
termination_by structural v => v

/-- Whether some values hold none. -/
def areQuiet : List Value → Bool
  | [] => true
  | x :: xs => isQuiet x && areQuiet xs
termination_by structural xs => xs

/-- Whether the keys and values of entries hold none. -/
def haveQuiet : List (Value × Value) → Bool
  | [] => true
  | (k, v) :: es => isQuiet k && isQuiet v && haveQuiet es
termination_by structural es => es

/-- Whether attributes hold none. -/
def attributesQuiet : List (String × Value) → Bool
  | [] => true
  | (_, v) :: fs => isQuiet v && attributesQuiet fs
termination_by structural fs => fs

end

@[simp] theorem areQuiet_eq_true_iff {xs : List Value} :
    areQuiet xs = true ↔ ∀ x ∈ xs, x.isQuiet = true := by
  induction xs with
  | nil => exact ⟨nofun, fun _ => rfl⟩
  | cons x xs ih => rw [areQuiet, Bool.and_eq_true, ih, List.forall_mem_cons]

@[simp] theorem haveQuiet_eq_true_iff {es : List (Value × Value)} :
    haveQuiet es = true ↔ ∀ e ∈ es, e.1.isQuiet = true ∧ e.2.isQuiet = true := by
  induction es with
  | nil => exact ⟨nofun, fun _ => rfl⟩
  | cons e es ih => rw [haveQuiet, Bool.and_eq_true, Bool.and_eq_true, ih, List.forall_mem_cons]

theorem attributesQuiet_of_object {label : ObjectLabel} {extended : Option Value}
    {attributes : List (String × Value)}
    (h : (Value.object label extended attributes).isQuiet = true) :
    attributesQuiet attributes = true := by
  cases extended with
  | some v =>
    rw [isQuiet, Bool.and_eq_true] at h
    exact h.2
  | none => exact h

theorem isQuiet_core (v : Value) (h : v.isQuiet = true) : v.core.isQuiet = true := by
  cases v with
  | member label name v =>
    rw [core]
    split
    · exact isQuiet_core v h
    · exact h
  | object label extended attributes =>
    cases extended with
    | none => exact h
    | some v =>
      rw [core]
      split
      · rw [isQuiet, Bool.and_eq_true] at h
        exact isQuiet_core v h.1
      · exact h
  | _ => exact h
termination_by structural v

/-- A value that holds no signaling not-a-number is none. -/
theorem numeral?_of_isQuiet {v : Value} (h : v.isQuiet = true) : v.numeral? ≠ some .signaling := by
  intro hv
  have hcore := isQuiet_core v h
  unfold numeral? at hv
  split at hv
  · cases hv
  · cases hv
  next x _ =>
    cases x with
    | finite negative mantissa exponent => cases exponent <;> cases hv
    | infinite | nan => cases hv
  next d hd =>
    rw [hd] at hcore
    cases d with
    | nan negative signaling payload =>
      cases signaling with
      | true => exact Bool.false_ne_true hcore
      | false => cases hv
    | finite | infinite => cases hv
  · cases hv

section

variable {P : Fault → Prop}

theorem failsOnly_numeral {x y : Numeral}
    (h : P .signalingComparison ∨ x ≠ .signaling ∧ y ≠ .signaling) : FailsOnly P (x.equal y) := by
  unfold Numeral.equal
  rcases h with h | ⟨hx, hy⟩
  · split <;> first | exact .error h | exact .ok _
  · split <;> first | exact absurd rfl hx | exact absurd rfl hy | exact .ok _

theorem failsOnly_scalarEqual {a b : Value}
    (h : P .signalingComparison ∨ a.isQuiet = true ∧ b.isQuiet = true) :
    FailsOnly P (scalarEqual a b) := by
  unfold scalarEqual
  split
  next x y hx hy =>
    refine failsOnly_numeral (h.imp_right fun ⟨ha, hb⟩ => ⟨?_, ?_⟩)
    · rintro rfl
      exact numeral?_of_isQuiet ha hx
    · rintro rfl
      exact numeral?_of_isQuiet hb hy
  · exact .ok _
  · exact .ok _
  · split <;> exact .ok _

theorem failsOnly_orIdentical {x y : Value} {test : Value → Except Fault Bool}
    (h : FailsOnly P (test y)) : FailsOnly P (orIdentical x test y) :=
  .ite (.ok _) h

theorem failsOnly_anyOf {test : Value → Except Fault Bool} {xs : List Value}
    (h : ∀ y ∈ xs, FailsOnly P (test y)) : FailsOnly P (anyOf test xs) := by
  induction xs with
  | nil => exact .ok _
  | cons x xs ih =>
    obtain ⟨hx, hxs⟩ := List.forall_mem_cons.mp h
    exact hx.bind fun _ => .ite (.ok _) (ih hxs)

theorem failsOnly_entryOf {key value : Value → Except Fault Bool} {es : List (Value × Value)}
    (h : ∀ e ∈ es, FailsOnly P (key e.1) ∧ FailsOnly P (value e.2)) :
    FailsOnly P (entryOf key value es) := by
  induction es with
  | nil => exact .ok _
  | cons e es ih =>
    obtain ⟨⟨hkey, hvalue⟩, hes⟩ := List.forall_mem_cons.mp h
    exact hkey.bind fun _ => .ite hvalue (ih hes)

mutual

/-- **A comparison of values fails only where it meets a signaling not-a-number**: with the fault of
such a meeting, and not at all between values that hold none. -/
theorem failsOnly_equal (a b : Value)
    (h : P .signalingComparison ∨ a.isQuiet = true ∧ b.isQuiet = true) :
    FailsOnly P (equal a b) := by
  have hcore := h.imp_right (And.imp_right (isQuiet_core b))
  cases a with
  | list xs =>
    rw [equal]
    split
    next ys hys =>
      rw [hys] at hcore
      exact .ite (failsOnly_equalLists xs ys hcore) (.ok _)
    · exact .ok _
  | tuple xs =>
    rw [equal]
    split
    next ys hys =>
      rw [hys] at hcore
      exact (failsOnly_equalLists xs ys hcore).bind fun _ => .ok _
    · exact .ok _
  | set _ xs =>
    rw [equal]
    split
    next ys hys =>
      rw [hys] at hcore
      exact .ite (failsOnly_allWithin xs ys hcore) (.ok _)
    · exact .ok _
  | dict es =>
    rw [equal]
    split
    next fs hfs =>
      rw [hfs] at hcore
      exact .ite (failsOnly_entriesWithin es fs hcore) (.ok _)
    · exact .ok _
  | member label name v =>
    rw [equal]
    refine .ite (failsOnly_equal v b h) ?_
    split <;> exact .ok _
  | object label extended attributes =>
    have hattributes {label' : ObjectLabel} {extended' : Option Value}
        {attributes' : List (String × Value)} (hb : b.core = .object label' extended' attributes') :
        FailsOnly P (equalFields attributes attributes') := by
      rw [hb] at hcore
      exact failsOnly_equalFields attributes attributes'
        (hcore.imp_right (And.imp attributesQuiet_of_object attributesQuiet_of_object))
    cases extended with
    | some v =>
      rw [equal]
      refine .ite (failsOnly_equal v b (h.imp_right (And.imp_left fun ha => ?_))) ?_
      · rw [isQuiet, Bool.and_eq_true] at ha
        exact ha.1
      · split
        next hb => exact .ite (hattributes hb) (.ok _)
        · exact .ok _
    | none =>
      rw [equal]
      split
      next hb => exact .ite (.ok _) (.ite (hattributes hb) (.ok _))
      · exact .ok _
  | _ => exact failsOnly_scalarEqual hcore
termination_by structural a

theorem failsOnly_equalLists (xs ys : List Value)
    (h : P .signalingComparison ∨ areQuiet xs = true ∧ areQuiet ys = true) :
    FailsOnly P (equalLists xs ys) := by
  cases xs with
  | nil => exact .ok _
  | cons x xs =>
    cases ys with
    | nil => exact .ok _
    | cons y ys =>
      simp only [areQuiet, Bool.and_eq_true] at h
      refine (failsOnly_orIdentical (failsOnly_equal x y ?_)).bind fun _ =>
        .ite (failsOnly_equalLists xs ys ?_) (.ok _)
      · exact h.imp_right fun ⟨hx, hy⟩ => ⟨hx.1, hy.1⟩
      · exact h.imp_right fun ⟨hx, hy⟩ => ⟨hx.2, hy.2⟩
termination_by structural xs

theorem failsOnly_allWithin (xs ys : List Value)
    (h : P .signalingComparison ∨ areQuiet xs = true ∧ areQuiet ys = true) :
    FailsOnly P (allWithin xs ys) := by
  cases xs with
  | nil => exact .ok _
  | cons x xs =>
    rw [areQuiet, Bool.and_eq_true] at h
    refine (failsOnly_anyOf fun y hy => failsOnly_orIdentical (failsOnly_equal x y ?_)).bind
      fun _ => .ite (failsOnly_allWithin xs ys ?_) (.ok _)
    · exact h.imp_right fun ⟨hx, hys⟩ => ⟨hx.1, areQuiet_eq_true_iff.mp hys y hy⟩
    · exact h.imp_right fun ⟨hx, hys⟩ => ⟨hx.2, hys⟩
termination_by structural xs

theorem failsOnly_entriesWithin (es fs : List (Value × Value))
    (h : P .signalingComparison ∨ haveQuiet es = true ∧ haveQuiet fs = true) :
    FailsOnly P (entriesWithin es fs) := by
  cases es with
  | nil => exact .ok _
  | cons e es =>
    obtain ⟨k, v⟩ := e
    simp only [haveQuiet, Bool.and_eq_true] at h
    refine (failsOnly_entryOf fun e he => ⟨failsOnly_orIdentical (failsOnly_equal k e.1 ?_),
      failsOnly_orIdentical (failsOnly_equal v e.2 ?_)⟩).bind fun _ =>
        .ite (failsOnly_entriesWithin es fs ?_) (.ok _)
    · exact h.imp_right fun ⟨hk, hfs⟩ => ⟨hk.1.1, (haveQuiet_eq_true_iff.mp hfs e he).1⟩
    · exact h.imp_right fun ⟨hv, hfs⟩ => ⟨hv.1.2, (haveQuiet_eq_true_iff.mp hfs e he).2⟩
    · exact h.imp_right fun ⟨hes, hfs⟩ => ⟨hes.2, hfs⟩
termination_by structural es

theorem failsOnly_equalFields (xs ys : List (String × Value))
    (h : P .signalingComparison ∨ attributesQuiet xs = true ∧ attributesQuiet ys = true) :
    FailsOnly P (equalFields xs ys) := by
  cases xs with
  | nil => exact .ok _
  | cons x xs =>
    obtain ⟨n, x⟩ := x
    cases ys with
    | nil => exact .ok _
    | cons y ys =>
      obtain ⟨m, y⟩ := y
      simp only [attributesQuiet, Bool.and_eq_true] at h
      refine .ite ?_ (.ok _)
      refine (failsOnly_orIdentical (failsOnly_equal x y ?_)).bind fun _ =>
        .ite (failsOnly_equalFields xs ys ?_) (.ok _)
      · exact h.imp_right fun ⟨hx, hy⟩ => ⟨hx.1, hy.1⟩
      · exact h.imp_right fun ⟨hx, hy⟩ => ⟨hx.2, hy.2⟩
termination_by structural xs

end

/-- Comparing a value as an element of a collection. -/
theorem failsOnly_matchesElement {v w : Value}
    (h : P .signalingComparison ∨ v.isQuiet = true ∧ w.isQuiet = true) :
    FailsOnly P (v.matchesElement w) :=
  failsOnly_orIdentical (failsOnly_equal v w h)

end

theorem failsOnly_isAmong (v : Value) (xs : List Value) :
    FailsOnly Fault.OfComparison (v.isAmong xs) :=
  failsOnly_anyOf fun _ _ => failsOnly_matchesElement (.inl rfl)

/-- **Telling whether a default is worth publishing** is a comparison. -/
theorem failsOnly_isIntrinsic (v : Value) : FailsOnly Fault.OfComparison v.isIntrinsic := by
  unfold isIntrinsic
  split
  · exact .ok _
  · exact failsOnly_equal _ _ (.inl rfl)
  · split
    · exact failsOnly_equal _ _ (.inl rfl)
    · exact .ok _

/-! ## Keys -/

theorem ofKey_unhashable (kind : String) : Fault.OfKey (.unhashable kind) :=
  .inr ⟨kind, rfl⟩

mutual

theorem failsOnly_checkKey (v : Value) : FailsOnly Fault.OfKey v.checkKey := by
  cases v with
  | list _ | dict _ => exact .error (ofKey_unhashable _)
  | set _ _ => exact .ite (.ok _) (.error (ofKey_unhashable _))
  | bytes _ _ => exact .ite (.error (ofKey_unhashable _)) (.ok _)
  | tuple xs => exact failsOnly_checkKeys xs
  | decimal d =>
    cases d with
    | nan _ signaling _ =>
      cases signaling with
      | true => exact .error (.inl rfl)
      | false => exact .ok _
    | _ => exact .ok _
  | object label extended _ =>
    cases extended with
    | none => exact .ite (.ok _) (.error (ofKey_unhashable _))
    | some v =>
      exact .ite (.ite (.error (ofKey_unhashable _)) (failsOnly_checkKey v))
        (.error (ofKey_unhashable _))
  | member label _ v =>
    exact .ite (.ite (.error (ofKey_unhashable _)) (failsOnly_checkKey v)) (.ok _)
  | _ => exact .ok _
termination_by structural v

theorem failsOnly_checkKeys (vs : List Value) : FailsOnly Fault.OfKey (checkKeys vs) := by
  cases vs with
  | nil => exact .ok _
  | cons v vs => exact (failsOnly_checkKey v).bind fun _ => failsOnly_checkKeys vs
termination_by structural vs

end

end Value

theorem Record.failsOnly_checkKey (r : Record) : FailsOnly Fault.OfKey r.checkKey :=
  (Value.failsOnly_checkKeys _).bind fun _ => .error (Value.ofKey_unhashable _)

namespace Metadata

theorem failsOnly_checkKey (m : Metadata) : FailsOnly Fault.OfKey m.checkKey := by
  cases m with
  | record r => exact r.failsOnly_checkKey
  | limit l => exact Value.failsOnly_checkKeys _
  | field _ | note _ => exact .ok _

theorem failsOnly_checkKeys (ms : List Metadata) : FailsOnly Fault.OfKey (checkKeys ms) := by
  induction ms with
  | nil => exact .ok _
  | cons m ms ih => exact m.failsOnly_checkKey.bind fun _ => ih

end Metadata

namespace Token

mutual

theorem failsOnly_checkKey (t : Token) : FailsOnly Fault.OfKey t.checkKey := by
  cases t with
  | generic _ args => exact failsOnly_checkKeys args
  | union _ members => exact failsOnly_checkKeys members
  | literal vs => exact Value.failsOnly_checkKeys vs
  | annotated t ms =>
    exact (failsOnly_checkKey t).bind fun _ => Metadata.failsOnly_checkKeys ms
  | classVar t => exact failsOnly_checkKey t
  | value v => exact v.failsOnly_checkKey
  | _ => exact .ok _
termination_by structural t

theorem failsOnly_checkKeys (ts : List Token) : FailsOnly Fault.OfKey (checkKeys ts) := by
  cases ts with
  | nil => exact .ok _
  | cons t ts => exact (failsOnly_checkKey t).bind fun _ => failsOnly_checkKeys ts
termination_by structural ts

end

end Token

/-- **A key that cannot be looked up** holds something that can change, or a signaling
not-a-number. -/
theorem Key.failsOnly_check (k : Key) : FailsOnly Fault.OfKey k.check := by
  unfold Key.check
  split
  · exact Token.failsOnly_checkKey _
  · exact .ok _

/-! ## Annotations -/

theorem Value.failsOnly_asCount? (v : Value) : FailsOnly Fault.OfAnnotation v.asCount? := by
  unfold Value.asCount?
  split
  · exact .ok _
  · exact .ok _
  · split <;> exact .ok _
  · exact .error (.inr (.inl rfl))
  · exact .error (.inr (.inr rfl))

namespace Constraints

theorem failsOnly_assign (c : Constraints) (key : String) (v : Value) :
    FailsOnly Fault.OfAnnotation (c.assign key v) := by
  unfold assign
  split <;> first | exact .ok _ | exact v.failsOnly_asCount?.bind fun _ => .ok _ | skip
  split <;> exact .ok _

theorem failsOnly_assignAll (c : Constraints) (named : List (String × Value)) :
    FailsOnly Fault.OfAnnotation (c.assignAll named) := by
  induction named generalizing c with
  | nil => exact .ok _
  | cons e named ih => exact (c.failsOnly_assign e.1 e.2).bind ih

end Constraints

theorem Record.failsOnly_layerOn (r : Record) (t : Topic) :
    FailsOnly Fault.OfAnnotation (r.layerOn t) := by
  cases t with
  | group => exact Constraints.failsOnly_assignAll _ _
  | length | count =>
    exact (Value.failsOnly_asCount? _).bind fun _ =>
      (Value.failsOnly_asCount? _).bind fun _ => .ok _
  | _ => exact .ok _

theorem Record.failsOnly_layer? (r : Record) : FailsOnly Fault.OfAnnotation r.layer? := by
  unfold Record.layer?
  split
  · exact (r.failsOnly_layerOn _).bind fun _ => .ok _
  · exact .ok _

namespace Constraints

theorem failsOnly_appendUnique (target vs : List Value) :
    FailsOnly Fault.OfComparison (appendUnique target vs) := by
  induction vs generalizing target with
  | nil => exact .ok _
  | cons v vs ih => exact (v.failsOnly_isAmong target).bind fun _ => .ite (ih _) (ih _)

theorem failsOnly_fold (lower upper : Constraints) :
    FailsOnly Fault.OfAnnotation (lower.fold upper) :=
  ((failsOnly_appendUnique _ _).mono fun _ => .inl).bind fun _ => .ok _

theorem failsOnly_mergeOnto (c : Constraints) (rs : List Record) :
    FailsOnly Fault.OfAnnotation (c.mergeOnto rs) := by
  induction rs generalizing c with
  | nil => exact .ok _
  | cons r rs ih =>
    refine r.failsOnly_layer?.bind fun layer => ?_
    cases layer with
    | some layer => exact (c.failsOnly_fold layer).bind ih
    | none => exact ih c

/-- **Annotations fail to merge** over a comparison of choices, or over a count. -/
theorem failsOnly_merge (rs : List Record) : FailsOnly Fault.OfAnnotation (merge rs) :=
  failsOnly_mergeOnto {} rs

end Constraints

end Schemata
