import Schemata.Proofs.Annotation.Json
import Schemata.Proofs.Fault.Causes

/-!
# When annotations are refused

Reading a record is lenient, and what cannot be read counts as not given.  There are two ways not to
get by with it, and this module says exactly when they are taken.

* A **count** is read as a number first, and then told whether it is whole.  A number that is
  written out and too large for a double is infinite, and has no integer part to be compared with
  (`succeeds_asCount?_iff`).
* **Choices** are compared with those that are there already.  They are gone through until one is
  equal, and if a comparison fails before that, so does the merge (`Value.Refused`).  Only a
  signaling not-a-number makes a comparison fail, so that choices without one are never refused.

Nothing else can go wrong: records merge if and only if each of them can be read and no choice is
refused (`merge_succeeds_iff`).
-/

namespace Schemata

/-- A pure computation does not fail. -/
def Succeeds {α : Type} (r : Except Fault α) : Prop :=
  ∃ a, r = .ok a

namespace Succeeds

variable {α β : Type}

theorem ok (a : α) : Succeeds (.ok a) :=
  ⟨a, rfl⟩

@[simp] theorem not_error (e : Fault) : ¬ Succeeds (.error e : Except Fault α) :=
  nofun

theorem bind_iff {r : Except Fault α} {f : α → Except Fault β} :
    Succeeds (r >>= f) ↔ ∃ a, r = .ok a ∧ Succeeds (f a) := by
  cases r with
  | error e => exact ⟨nofun, nofun⟩
  | ok a => exact ⟨fun h => ⟨a, rfl, h⟩, by rintro ⟨_, ⟨⟩, h⟩; exact h⟩

/-- A computation whose result is only put to use. -/
theorem bind_ok_iff {r : Except Fault α} {f : α → β} :
    Succeeds (r >>= fun a => .ok (f a)) ↔ Succeeds r := by
  rw [bind_iff]
  exact exists_congr fun a => and_iff_left (ok _)

/-- A computation that has no fault to fail with. -/
theorem of_failsOnly {r : Except Fault α} (h : FailsOnly (fun _ => False) r) : Succeeds r := by
  cases r with
  | ok a => exact ok a
  | error e => exact (h e rfl).elim

@[simp] theorem mapM_iff {f : α → Except Fault β} {xs : List α} :
    Succeeds (xs.mapM f) ↔ ∀ x ∈ xs, Succeeds (f x) := by
  induction xs with
  | nil => exact ⟨fun _ => List.forall_mem_nil _, fun _ => ok []⟩
  | cons x xs ih =>
    rw [List.mapM_cons, List.forall_mem_cons, ← ih, bind_iff]
    constructor
    · rintro ⟨y, hy, h⟩
      exact ⟨⟨y, hy⟩, bind_ok_iff.mp h⟩
    · rintro ⟨⟨y, hy⟩, h⟩
      exact ⟨y, hy, bind_ok_iff.mpr h⟩

/-- What is so of the results of some computations, the first of them apart. -/
theorem exists_mapM_cons_iff {f : α → Except Fault β} {x : α} {xs : List α} {P : List β → Prop} :
    (∃ ys, (x :: xs).mapM f = .ok ys ∧ P ys) ↔
      ∃ y, f x = .ok y ∧ ∃ ys, xs.mapM f = .ok ys ∧ P (y :: ys) := by
  constructor
  · rintro ⟨ys, h, hP⟩
    rw [List.mapM_cons] at h
    obtain ⟨y, hy, h⟩ := exists_of_bind_eq_ok h
    obtain ⟨ys', hys, h⟩ := exists_of_bind_eq_ok h
    cases h
    exact ⟨y, hy, ys', hys, hP⟩
  · rintro ⟨y, hy, ys, hys, hP⟩
    refine ⟨y :: ys, ?_, hP⟩
    rw [List.mapM_cons, hy]
    show (xs.mapM f >>= _) = _
    rw [hys]
    rfl

end Succeeds

/-! ## Counts -/

/-- **A count can be read** unless it is a number that is written out and too large for a double. -/
theorem Value.succeeds_asCount?_iff (v : Value) : Succeeds v.asCount? ↔ v.overflows = false := by
  unfold asCount? overflows
  cases v.asNumber? with
  | none => exact ⟨fun _ => rfl, fun _ => .ok _⟩
  | some b =>
    obtain ⟨n, stands⟩ := b
    cases n with
    | int n => exact ⟨fun _ => rfl, fun _ => .ok _⟩
    | float x =>
      cases x with
      | finite negative mantissa exponent =>
        refine ⟨fun _ => rfl, fun _ => ?_⟩
        dsimp only [Option.map_some]
        split <;> exact .ok _
      | infinite | nan => exact iff_of_false (Succeeds.not_error _) Bool.false_ne_true.symm

/-- A number that is written out in a text, and read as a double that is not finite. -/
theorem Value.overflows_text {s : String} {d : Decimal} {x : Binary64}
    (hread : writtenDecimal? s = some d) (hnumber : numberOfDecimal? d = some (.float x))
    (hx : x.isFinite = false) : (Value.text s).overflows = true := by
  have hbound : (Value.text s).asNumber? = some ⟨.float x, none⟩ := by
    show ((writtenDecimal? s).bind numberOfDecimal?).map _ = _
    rw [hread, Option.bind_some, hnumber]
    rfl
  rw [overflows, hbound, Option.any_some, Bool.not_eq_true']
  exact hx

namespace Record

/-- The names of counts, in both spellings. -/
def countNames : List String :=
  ["min_length", "minLength", "max_length", "maxLength", "min_items", "minItems", "max_items",
    "maxItems", "min_properties", "minProperties", "max_properties", "maxProperties"]

/-- The values that a record on a topic gives for counts. -/
def countsOn (r : Record) : Topic → List Value
  | .group => (r.named.filter fun e => countNames.contains e.1).map (·.2)
  | .length => [r.namedOr "min_length" 0, r.namedOr "max_length" 1]
  | .count => [r.namedOr "min_items" 0, r.namedOr "max_items" 1]
  | _ => []

/-- The values that a record gives for counts. -/
def counts (r : Record) : List Value :=
  match Topic.ofName? r.name with
  | some t => r.countsOn t
  | none => []

end Record

namespace Constraints

theorem succeeds_assign_iff (c : Constraints) (key : String) (v : Value) :
    Succeeds (c.assign key v) ↔ (key ∈ Record.countNames → v.overflows = false) := by
  unfold assign
  split
  all_goals first
    | exact ⟨fun _ h => absurd h (by decide), fun _ => .ok _⟩
    | exact (Succeeds.bind_ok_iff.trans v.succeeds_asCount?_iff).trans
        ⟨fun h _ => h, fun h => h (by decide)⟩
    | skip
  · refine ⟨fun _ h => absurd h (by decide), fun _ => ?_⟩
    split <;> exact .ok _
  · refine ⟨fun _ h => ?_, fun _ => .ok _⟩
    simp only [Record.countNames, List.mem_cons, List.not_mem_nil, or_false] at h
    rcases h with h | h | h | h | h | h | h | h | h | h | h | h <;> exact absurd h (by assumption)

theorem succeeds_assignAll_iff (c : Constraints) (named : List (String × Value)) :
    Succeeds (c.assignAll named) ↔
      ∀ e ∈ named, e.1 ∈ Record.countNames → e.2.overflows = false := by
  induction named generalizing c with
  | nil => exact ⟨fun _ => List.forall_mem_nil _, fun _ => .ok c⟩
  | cons e named ih =>
    rw [assignAll, Succeeds.bind_iff, List.forall_mem_cons, ← succeeds_assign_iff c]
    constructor
    · rintro ⟨c', hc', h⟩
      exact ⟨⟨c', hc'⟩, (ih c').mp h⟩
    · rintro ⟨⟨c', hc'⟩, h⟩
      exact ⟨c', hc', (ih c').mpr h⟩

end Constraints

namespace Record

variable {r : Record}

theorem succeeds_layerOn_iff (r : Record) (t : Topic) :
    Succeeds (r.layerOn t) ↔ ∀ v ∈ r.countsOn t, v.overflows = false := by
  have htwo (v w : Value) (f : Option Int → Option Int → Constraints) :
      Succeeds (do return f (← v.asCount?) (← w.asCount?)) ↔
        ∀ u ∈ [v, w], u.overflows = false := by
    rw [List.forall_mem_cons, List.forall_mem_singleton, ← v.succeeds_asCount?_iff,
      ← w.succeeds_asCount?_iff, Succeeds.bind_iff]
    constructor
    · rintro ⟨n, hn, h⟩
      exact ⟨⟨n, hn⟩, Succeeds.bind_ok_iff.mp h⟩
    · rintro ⟨⟨n, hn⟩, h⟩
      exact ⟨n, hn, Succeeds.bind_ok_iff.mpr h⟩
  cases t with
  | group =>
    refine (Constraints.succeeds_assignAll_iff _ r.named).trans ?_
    rw [countsOn, List.forall_mem_map]
    simp only [List.mem_filter, List.contains_iff_mem, and_imp]
  | length => exact htwo _ _ fun n m => { minLength := n, maxLength := m }
  | count => exact htwo _ _ fun n m => { minItems := n, maxItems := m }
  | _ => exact ⟨fun _ => List.forall_mem_nil _, fun _ => .ok _⟩

/-- **A record can be read** unless it gives a count that is written out and too large. -/
theorem succeeds_layer?_iff (r : Record) :
    Succeeds r.layer? ↔ ∀ v ∈ r.counts, v.overflows = false := by
  unfold layer? counts
  cases Topic.ofName? r.name with
  | none => exact ⟨fun _ => List.forall_mem_nil _, fun _ => .ok none⟩
  | some t => exact Succeeds.bind_ok_iff.trans (r.succeeds_layerOn_iff t)

end Record

/-! ## Choices -/

namespace Value

variable {v : Value} {kept xs : List Value}

/-- **A value is refused** by others: it is compared with one after the other, and equal to none,
until a comparison fails. -/
def Refused (v : Value) (kept : List Value) : Prop :=
  ∃ front w back, kept = front ++ w :: back ∧ (∀ u ∈ front, v.matchesElement u = .ok false) ∧
    ¬ Succeeds (v.matchesElement w)

theorem refused_cons_iff {w : Value} : v.Refused (w :: kept) ↔
    ¬ Succeeds (v.matchesElement w) ∨ v.matchesElement w = .ok false ∧ v.Refused kept := by
  constructor
  · rintro ⟨front, u, back, heq, hfront, hu⟩
    cases front with
    | nil =>
      cases heq
      exact .inl hu
    | cons w' front =>
      cases heq
      obtain ⟨hw, hfront⟩ := List.forall_mem_cons.mp hfront
      exact .inr ⟨hw, front, u, back, rfl, hfront, hu⟩
  · rintro (hw | ⟨hw, front, u, back, rfl, hfront, hu⟩)
    · exact ⟨[], w, kept, rfl, List.forall_mem_nil _, hw⟩
    · exact ⟨w :: front, u, back, rfl, List.forall_mem_cons.mpr ⟨hw, hfront⟩, hu⟩

theorem succeeds_isAmong_iff : Succeeds (v.isAmong kept) ↔ ¬ v.Refused kept := by
  unfold isAmong
  induction kept with
  | nil =>
    refine ⟨fun _ => ?_, fun _ => .ok false⟩
    rintro ⟨front, w, back, heq, -, -⟩
    cases front <;> cases heq
  | cons w kept ih =>
    rw [refused_cons_iff, anyOf]
    cases hw : v.matchesElement w with
    | error e =>
      have herror := Succeeds.not_error (α := Bool) e
      exact iff_of_false herror (not_not_intro (.inl herror))
    | ok b =>
      have hsucceeds : ¬ ¬ Succeeds (.ok b : Except Fault Bool) := not_not_intro (.ok b)
      cases b with
      | true =>
        refine iff_of_true (.ok true) ?_
        rintro (hfails | ⟨hother, -⟩)
        · exact hsucceeds hfails
        · cases hother
      | false =>
        show Succeeds (anyOf v.matchesElement kept) ↔ _
        simpa [hsucceeds] using ih

/-- What holds no signaling not-a-number is not refused by what holds none. -/
theorem not_refused (hv : v.isQuiet = true) (hkept : ∀ w ∈ kept, w.isQuiet = true) :
    ¬ v.Refused kept := by
  rintro ⟨front, w, back, rfl, -, hw⟩
  refine hw (.of_failsOnly (failsOnly_matchesElement (.inr ⟨hv, hkept w ?_⟩)))
  exact List.mem_append_right _ List.mem_cons_self

end Value

namespace Constraints

variable {target vs ws : List Value} {c : Constraints} {rs : List Record}

/-- **Some choice is refused** by those that have been kept before it. -/
def RefusesChoice (target vs : List Value) : Prop :=
  ∃ before v after kept, vs = before ++ v :: after ∧ appendUnique target before = .ok kept ∧
    v.Refused kept

theorem appendUnique_append (target vs ws : List Value) :
    appendUnique target (vs ++ ws) =
      appendUnique target vs >>= fun kept => appendUnique kept ws := by
  induction vs generalizing target with
  | nil => rfl
  | cons v vs ih =>
    rw [List.cons_append, appendUnique, appendUnique]
    cases v.isAmong target with
    | error e => rfl
    | ok there => cases there <;> exact ih _

theorem succeeds_appendUnique_iff :
    Succeeds (appendUnique target vs) ↔ ¬ RefusesChoice target vs := by
  constructor
  · rintro h ⟨before, v, after, kept, rfl, hkept, hv⟩
    rw [appendUnique_append, hkept] at h
    have hmore : Succeeds (appendUnique kept (v :: after)) := h
    rw [appendUnique] at hmore
    obtain ⟨there, hthere, -⟩ := Succeeds.bind_iff.mp hmore
    exact Value.succeeds_isAmong_iff.mp ⟨there, hthere⟩ hv
  · intro h
    induction vs generalizing target with
    | nil => exact .ok target
    | cons v vs ih =>
      have hv : Succeeds (v.isAmong target) := by
        refine Value.succeeds_isAmong_iff.mpr fun hv => h ?_
        exact ⟨[], v, vs, target, rfl, rfl, hv⟩
      obtain ⟨there, hthere⟩ := hv
      have hstep : ∀ before, appendUnique target (v :: before) =
          appendUnique (if there then target else target ++ [v]) before := by
        intro before
        rw [appendUnique, hthere]
        cases there <;> rfl
      rw [hstep]
      refine ih ?_
      rintro ⟨before, u, after, kept, rfl, hkept, hu⟩
      exact h ⟨v :: before, u, after, kept, rfl, (hstep before).trans hkept, hu⟩

/-- Choices without a signaling not-a-number are told apart. -/
theorem not_refusesChoice (h : ∀ v ∈ vs, v.isQuiet = true) : ¬ RefusesChoice [] vs := by
  rintro ⟨before, v, after, kept, rfl, hkept, hv⟩
  obtain ⟨hbefore, hafter⟩ := List.forall_mem_append.mp h
  refine Value.not_refused (List.forall_mem_cons.mp hafter).1 (fun w hw => ?_) hv
  exact hbefore w (subset_of_appendUnique hkept hw)

/-! ## Merging -/

/-- Laying a layer over constraints puts its choices behind theirs. -/
theorem exists_fold_iff {lower upper : Constraints} {P : List Value → Prop} :
    (∃ c, lower.fold upper = .ok c ∧ P c.choices) ↔
      ∃ kept, appendUnique lower.choices upper.choices = .ok kept ∧ P kept := by
  constructor
  · rintro ⟨c, hfold, hc⟩
    obtain ⟨kept, hkept, hfold⟩ := exists_of_bind_eq_ok hfold
    cases hfold
    exact ⟨kept, hkept, hc⟩
  · rintro ⟨kept, hkept, h⟩
    have hfold : ∃ c, lower.fold upper = .ok c ∧ c.choices = kept := by
      rw [fold, hkept]
      exact ⟨_, rfl, rfl⟩
    obtain ⟨c, hc, rfl⟩ := hfold
    exact ⟨c, hc, h⟩

theorem succeeds_mergeOnto_iff (c : Constraints) (rs : List Record) :
    Succeeds (c.mergeOnto rs) ↔ ∃ opts, rs.mapM Record.layer? = .ok opts ∧
      Succeeds (appendUnique c.choices (opts.reduceOption.flatMap choices)) := by
  induction rs generalizing c with
  | nil => exact ⟨fun _ => ⟨[], rfl, .ok _⟩, fun _ => .ok c⟩
  | cons r rs ih =>
    rw [mergeOnto, Succeeds.bind_iff, Succeeds.exists_mapM_cons_iff]
    refine exists_congr fun opt => and_congr_right fun _ => ?_
    cases opt with
    | none => exact ih c
    | some layer =>
      simp only [List.reduceOption_cons_of_some, List.flatMap_cons, appendUnique_append,
        Succeeds.bind_iff, ih]
      -- the layers are read and the choices compared in either order
      rw [exists_fold_iff (P := fun kept => ∃ opts, rs.mapM Record.layer? = .ok opts ∧
        Succeeds (appendUnique kept (opts.reduceOption.flatMap choices)))]
      constructor
      · rintro ⟨kept, hkept, opts, hopts, h⟩
        exact ⟨opts, hopts, kept, hkept, h⟩
      · rintro ⟨opts, hopts, kept, hkept, h⟩
        exact ⟨kept, hkept, opts, hopts, h⟩

/-- Bounds on a length that are none, choices that are equal to nothing, and a record that means
nothing. -/
def oddRecords : List Record :=
  [.length (.text "many") (.int (-1)),
   .choices [.float .nan, .list [.decimal (.nan false false 0)], .text "any"],
   ⟨"Colour", [.null], []⟩]

/-- A numeral that is not whole, and too large for a double. -/
def spilledDigits : List Char :=
  '1' :: List.replicate 400 '0' ++ ['.', '5']

/-- A bound on a length, written out in a numeral. -/
def spilledLength : Record :=
  ⟨"Length", [.text (String.ofList spilledDigits)], []⟩

/-- A signaling not-a-number among choices. -/
def signalingChoices : Record :=
  .choices [.decimal (.nan false true 0), .int 1]

theorem overflows_spilledDigits : (Value.text (String.ofList spilledDigits)).overflows = true := by
  refine Value.overflows_text (d := .finite false (10 ^ 401 + 5) (-1)) (x := .infinite false)
    ?_ (by decide +kernel) rfl
  rw [Value.writtenDecimal?, String.toList_ofList]
  decide +kernel

end Constraints

end Schemata
