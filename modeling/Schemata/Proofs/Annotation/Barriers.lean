import Schemata.Descriptor.Reading
import Schemata.Proofs.Annotation.Merging
import Schemata.Proofs.Schema.Validation

/-!
# Bounds on whole numbers

A bound in the metadata of a type is one thing: it has a value, and it excludes this value or does
not.  In a set of constraints it is two things, a number and a flag, and when constraints are laid
over one another these go by different rules.  Of the numbers the last stands; the flag is raised if
any layer raises it.  So a flag can end up beside a number that it was never given with.

`merge_of_barriers` says what becomes of any number of bounds in any order.  At each end there is
the value of the last bound, and it is excluded if some bound at this end excludes its own
(`Published`).  That is too much by one number at the most: of what all bounds admit, the value
itself is cut off (`published_iff`).

Metadata amounts to records (`Metadata.records`), and records to layers.  `Amounts` ties the records
to the bounds that they stand for, and goes through the metadata with it.  The texts of a field make
a record, too, and it stands for no bound.
-/

namespace Schemata

/-- The two ends of a range. -/
inductive Side where
  | lower | upper
  deriving DecidableEq, Repr

/-- **A bound on whole numbers**, at one of the ends. -/
structure Barrier where
  side : Side
  /-- The value itself is excluded. -/
  strict : Bool
  value : Int
  deriving DecidableEq, Repr

namespace Barrier

/-- What a bound lets through. -/
def Admits (b : Barrier) (v : Int) : Prop :=
  match b.side, b.strict with
  | .lower, false => b.value ≤ v
  | .lower, true => b.value < v
  | .upper, false => v ≤ b.value
  | .upper, true => v < b.value

instance : ∀ (b : Barrier) (v : Int), Decidable (b.Admits v)
  | ⟨.lower, false, n⟩, v => inferInstanceAs (Decidable (n ≤ v))
  | ⟨.lower, true, n⟩, v => inferInstanceAs (Decidable (n < v))
  | ⟨.upper, false, n⟩, v => inferInstanceAs (Decidable (v ≤ n))
  | ⟨.upper, true, n⟩, v => inferInstanceAs (Decidable (v < n))

/-- The value of the last bound at an end. -/
def lastAt (side : Side) (bs : List Barrier) : Option Int :=
  ((bs.filter (·.side == side)).map value).getLast?

/-- Some bound at an end excludes its value. -/
def strictAt (side : Side) (bs : List Barrier) : Bool :=
  bs.any fun b => b.side == side && b.strict

/-- **What is published of some bounds** lets a number through: at each end the value of the last of
them counts, and it is excluded if any bound at this end excludes its own. -/
def Published (bs : List Barrier) (v : Int) : Prop :=
  ∀ side, ∀ n ∈ lastAt side bs, Admits ⟨side, strictAt side bs, n⟩ v

/-- **A number is cut off**: it is the value of the last bound at an end, and some bound at this end
excludes its own value. -/
def CutOff (bs : List Barrier) (v : Int) : Prop :=
  ∃ side, v ∈ lastAt side bs ∧ strictAt side bs = true

variable {bs bs' : List Barrier} {side : Side} {strict : Bool} {n v : Int}

theorem admits_strict_iff (h : Admits ⟨side, false, n⟩ v) : Admits ⟨side, true, n⟩ v ↔ v ≠ n := by
  cases side <;> simp only [Admits] at h ⊢ <;> omega

theorem admits_of_strict (h : Admits ⟨side, strict, n⟩ v) : Admits ⟨side, false, n⟩ v := by
  cases side <;> cases strict <;> simp only [Admits] at h ⊢ <;> omega

/-- The last bound at an end is one of the bounds. -/
theorem exists_of_mem_lastAt (h : n ∈ lastAt side bs) : ∃ strict, ⟨side, strict, n⟩ ∈ bs := by
  obtain ⟨b, hb, rfl⟩ := List.mem_map.mp (List.mem_of_getLast? h)
  obtain ⟨hb, hside⟩ := List.mem_filter.mp hb
  rw [← eq_of_beq hside]
  exact ⟨b.strict, hb⟩

/-- **What all bounds admit is published, unless it is cut off.** -/
theorem published_iff (h : ∀ b ∈ bs, b.Admits v) : Published bs v ↔ ¬ CutOff bs v := by
  have hloose {side : Side} {n : Int} (hn : n ∈ lastAt side bs) : Admits ⟨side, false, n⟩ v := by
    obtain ⟨strict, hb⟩ := exists_of_mem_lastAt hn
    exact admits_of_strict (h _ hb)
  constructor
  · rintro hpublished ⟨side, hv, hstrict⟩
    have hadmits := hpublished side v hv
    rw [hstrict, admits_strict_iff (hloose hv)] at hadmits
    exact hadmits rfl
  · intro hcut side n hn
    cases hstrict : strictAt side bs with
    | false => exact hloose hn
    | true =>
      rw [admits_strict_iff (hloose hn)]
      rintro rfl
      exact hcut ⟨side, hn, hstrict⟩

end Barrier

/-! ## The bounds that metadata gives -/

/-- The whole number that a value is. -/
def Value.wholeNumber? (v : Value) : Option Int :=
  match v.core with
  | .int n => some n
  | _ => none

/-- A bound with a whole number for its value. -/
def Barrier.given? (side : Side) (strict : Bool) (v : Value) : Option (List Barrier) :=
  v.wholeNumber?.map fun n => [⟨side, strict, n⟩]

/-- The same, where null is no bound. -/
def Barrier.optional? (side : Side) (strict : Bool) (v : Value) : Option (List Barrier) :=
  match v with
  | .null => some []
  | v => given? side strict v

open Barrier in
/-- The bounds that a limit gives: `none` if it is no bound, or if its value is no whole number. -/
def Limit.barriers? : Limit → Option (List Barrier)
  | .atLeast v => given? .lower false v
  | .moreThan v => given? .lower true v
  | .atMost v => given? .upper false v
  | .lessThan v => given? .upper true v
  | .interval above least below greatest => do
    let bs₁ ← optional? .lower true above
    let bs₂ ← optional? .lower false least
    let bs₃ ← optional? .upper true below
    let bs₄ ← optional? .upper false greatest
    return bs₁ ++ bs₂ ++ bs₃ ++ bs₄
  | _ => none

namespace Metadata

/-- The bounds that a piece of metadata gives, itself or in a field: `none` if it is a record, or if
it limits anything in another way. -/
def barriers? : Metadata → Option (List Barrier)
  | .limit l => l.barriers?
  | .field d => (d.limits.mapM Limit.barriers?).map List.flatten
  | .note _ => some []
  | .record _ => none

/-- **The bounds that some metadata gives**, in order. -/
def barriersOfAll? (ms : List Metadata) : Option (List Barrier) :=
  (ms.mapM barriers?).map List.flatten

end Metadata

/-- **The record of a bound**: one for each end and each sort. -/
def Barrier.record (side : Side) (strict : Bool) : Value → Record :=
  match side, strict with
  | .lower, false => Metadata.leastRecord
  | .lower, true => Metadata.aboveRecord
  | .upper, false => Metadata.greatestRecord
  | .upper, true => Metadata.belowRecord

/-! ## What stands for bounds among constraints -/

/-- The rational number that a bound is published as. -/
def Bound.rational? (b : Bound) : Option ℚ :=
  (b.toValue Number.toValue).rational?

namespace Constraints

/-- The bound at an end. -/
def bound (side : Side) (c : Constraints) : Option Bound :=
  match side with
  | .lower => c.minimum
  | .upper => c.maximum

/-- The bound at an end is excluded. -/
def excludes (side : Side) (c : Constraints) : Bool :=
  match side with
  | .lower => c.exclusiveMinimum
  | .upper => c.exclusiveMaximum

/-- Constraints that demand nothing of a number but that it keeps to bounds. -/
structure BoundsOnly (c : Constraints) : Prop where
  type : c.type = none
  multipleOf : c.multipleOf = none
  choices : c.choices = []
  extensions : c.extensions = []

/-- **Some layers stand for some bounds.** -/
structure StandFor (layers : List Constraints) (bs : List Barrier) : Prop where
  only : ∀ c ∈ layers, c.BoundsOnly
  bounds : ∀ side, (layers.filterMap (bound side)).map Bound.rational? =
    (bs.filter (·.side == side)).map fun b => some (b.value : ℚ)
  excludes : ∀ side, layers.any (excludes side) = Barrier.strictAt side bs

variable {layers layers' : List Constraints} {bs bs' : List Barrier} {c : Constraints}

theorem StandFor.nil : StandFor [] [] where
  only _ hc := absurd hc List.not_mem_nil
  bounds _ := rfl
  excludes _ := rfl

theorem StandFor.append (h : StandFor layers bs) (h' : StandFor layers' bs') :
    StandFor (layers ++ layers') (bs ++ bs') where
  only c hc := (List.mem_append.mp hc).elim (h.only c) (h'.only c)
  bounds side := by
    rw [List.filterMap_append, List.map_append, h.bounds, h'.bounds, List.filter_append,
      List.map_append]
  excludes side := by
    rw [List.any_append, h.excludes, h'.excludes, Barrier.strictAt, Barrier.strictAt,
      Barrier.strictAt, List.any_append]

/-- A layer without a bound. -/
theorem StandFor.silent (honly : c.BoundsOnly) (hbound : ∀ side, c.bound side = none)
    (hexcludes : ∀ side, c.excludes side = false) : StandFor [c] [] where
  only := by simpa using honly
  bounds side := by simp [hbound side]
  excludes side := by simp [hexcludes side, Barrier.strictAt]

/-- **What merged layers say** that stand for some bounds. -/
theorem StandFor.summary (h : StandFor layers bs) : (summary layers).BoundsOnly ∧ ∀ side,
    ((summary layers).bound side).map Bound.rational? =
      (Barrier.lastAt side bs).map (fun n : Int => some (n : ℚ)) ∧
    (Constraints.summary layers).excludes side = Barrier.strictAt side bs := by
  have hnone {α : Type} {f : Constraints → Option α} (hf : ∀ c ∈ layers, f c = none) :
      last f layers = none := by
    rw [last, List.filterMap_eq_nil_iff.mpr hf]
    rfl
  have hnil {α : Type} {f : Constraints → List α} (hf : ∀ c ∈ layers, f c = []) :
      layers.flatMap f = [] :=
    List.flatMap_eq_nil_iff.mpr hf
  refine ⟨⟨hnone fun c hc => (h.only c hc).type, hnone fun c hc => (h.only c hc).multipleOf, ?_,
    ?_⟩,
    fun side => ⟨?_, ?_⟩⟩
  · show (layers.flatMap choices).eraseDupsBy _ = []
    rw [hnil fun c hc => (h.only c hc).choices]
    rfl
  · show setKeys (layers.flatMap extensions) [] = []
    rw [hnil fun c hc => (h.only c hc).extensions]
    rfl
  · have hlast : (Constraints.summary layers).bound side = last (bound side) layers := by
      cases side <;> rfl
    rw [hlast, last, ← List.getLast?_map, h.bounds, Barrier.lastAt, ← List.getLast?_map,
      List.map_map]
    rfl
  · rw [← h.excludes]
    cases side <;> rfl

end Constraints

/-! ## From metadata to constraints -/

/-- **Some records amount to some bounds**: they can be read, and their layers stand for these. -/
def Amounts (rs : List Record) (bs : List Barrier) : Prop :=
  ∃ layers, rs.mapM Record.layer? = .ok (layers.map some) ∧ Constraints.StandFor layers bs

namespace Amounts

variable {rs rs' : List Record} {bs bs' : List Barrier} {v : Value}

theorem nil : Amounts [] [] :=
  ⟨[], rfl, .nil⟩

theorem append (h : Amounts rs bs) (h' : Amounts rs' bs') : Amounts (rs ++ rs') (bs ++ bs') := by
  obtain ⟨layers, hread, hlayers⟩ := h
  obtain ⟨layers', hread', hlayers'⟩ := h'
  refine ⟨layers ++ layers', ?_, hlayers.append hlayers'⟩
  rw [List.mapM_append, hread, hread', List.map_append]
  rfl

theorem flatMap {α : Type} {f : α → List Record} {g : α → Option (List Barrier)}
    (h : ∀ a bs, g a = some bs → Amounts (f a) bs) {as : List α}
    (hbs : (as.mapM g).map List.flatten = some bs) : Amounts (as.flatMap f) bs := by
  induction as generalizing bs with
  | nil =>
    cases hbs
    exact nil
  | cons a as ih =>
    obtain ⟨bss, hbss, rfl⟩ := Option.map_eq_some_iff.mp hbs
    rw [List.mapM_cons] at hbss
    obtain ⟨bs₁, h₁, hbss⟩ := Option.bind_eq_some_iff.mp hbss
    obtain ⟨bss', h', hbss⟩ := Option.bind_eq_some_iff.mp hbss
    cases hbss
    exact (h a bs₁ h₁).append (ih (Option.map_eq_some_iff.mpr ⟨_, h', rfl⟩))

/-- A number that was given is published as the number that it is. -/
theorem rational?_given {n : Int} (hv : v.core = .int n) :
    Bound.rational? (Carried.given v (.int n)) = some (n : ℚ) := by
  have hcore : v.rational? = some (n : ℚ) := by rw [Value.rational?, hv]
  cases v with
  | member | object => exact hcore
  | _ => rfl

theorem bound (side : Side) (strict : Bool) (h : Barrier.given? side strict v = some bs) :
    Amounts [Barrier.record side strict v] bs := by
  obtain ⟨n, hn, rfl⟩ := Option.map_eq_some_iff.mp h
  have hcore : v.core = .int n := by
    unfold Value.wholeNumber? at hn
    split at hn
    next hcore => rw [hcore, Option.some.inj hn]
    next => cases hn
  have hnumber : v.asNumber? = some (Carried.given v (.int n)) := by rw [Value.asNumber?, hcore]
  have hproperty : Topic.ofName? "Property" = some .group := by decide +kernel
  refine ⟨[match side with
    | .lower => { minimum := v.asNumber?, exclusiveMinimum := strict }
    | .upper => { maximum := v.asNumber?, exclusiveMaximum := strict }], ?_, ?_, ?_, ?_⟩
  · cases side <;> cases strict <;>
      simp only [Barrier.record, Metadata.leastRecord, Metadata.aboveRecord,
        Metadata.greatestRecord, Metadata.belowRecord, Record.property, List.mapM_cons,
        List.mapM_nil, Record.layer?, hproperty] <;> rfl
  · intro c hc
    rw [List.mem_singleton.mp hc]
    cases side <;> exact ⟨rfl, rfl, rfl, rfl⟩
  · intro side'
    rw [hnumber]
    cases side <;> cases side' <;> simp [Constraints.bound, rational?_given hcore]
  · intro side'
    cases side <;> cases side' <;> simp [Constraints.excludes, Barrier.strictAt]

/-- A bound that may be missing. -/
theorem optionalBound (side : Side) (strict : Bool)
    (h : Barrier.optional? side strict v = some bs) :
    Amounts (Metadata.boundRecord v (Barrier.record side strict)) bs := by
  unfold Barrier.optional? at h
  split at h
  · cases h
    exact nil
  next hnull =>
    have hgiven : Metadata.boundRecord v (Barrier.record side strict) =
        [Barrier.record side strict v] := by
      unfold Metadata.boundRecord
      split
      · exact absurd rfl hnull
      · rfl
    rw [hgiven]
    exact bound side strict h

theorem limitRecords {l : Limit} (h : l.barriers? = some bs) :
    Amounts (Metadata.limitRecords l) bs := by
  cases l with
  | atLeast v => exact bound .lower false h
  | moreThan v => exact bound .lower true h
  | atMost v => exact bound .upper false h
  | lessThan v => exact bound .upper true h
  | interval above least below greatest =>
    obtain ⟨bs₁, h₁, h⟩ := Option.bind_eq_some_iff.mp h
    obtain ⟨bs₂, h₂, h⟩ := Option.bind_eq_some_iff.mp h
    obtain ⟨bs₃, h₃, h⟩ := Option.bind_eq_some_iff.mp h
    obtain ⟨bs₄, h₄, h⟩ := Option.bind_eq_some_iff.mp h
    cases h
    exact (((optionalBound .lower true h₁).append (optionalBound .lower false h₂)).append
      (optionalBound .upper true h₃)).append (optionalBound .upper false h₄)
  | multipleOf | minLength | maxLength | lengths => cases h

/-- Texts, examples and the mark that something is deprecated bound nothing. -/
theorem silent_assignAll {named : List (String × Value)}
    (h : ∀ e ∈ named, e.1 ∈ ["title", "description", "examples", "deprecated"]) {c : Constraints}
    (honly : c.BoundsOnly) (hbound : ∀ side, c.bound side = none)
    (hexcludes : ∀ side, c.excludes side = false) : ∃ c', c.assignAll named = .ok c' ∧
      c'.BoundsOnly ∧ (∀ side, c'.bound side = none) ∧ ∀ side, c'.excludes side = false := by
  induction named generalizing c with
  | nil => exact ⟨c, rfl, honly, hbound, hexcludes⟩
  | cons e named ih =>
    obtain ⟨hkey, hnamed⟩ := List.forall_mem_cons.mp h
    obtain ⟨key, v⟩ := e
    obtain ⟨c₁, hassign, honly₁, hbound₁, hexcludes₁⟩ : ∃ c₁, c.assign key v = .ok c₁ ∧
        c₁.BoundsOnly ∧ (∀ side, c₁.bound side = none) ∧ ∀ side, c₁.excludes side = false := by
      simp only [List.mem_cons, List.not_mem_nil, or_false] at hkey
      rcases hkey with rfl | rfl | rfl | rfl <;>
        exact ⟨_, rfl, ⟨honly.1, honly.2, honly.3, honly.4⟩, hbound, hexcludes⟩
    obtain ⟨c', hall, hc'⟩ := ih hnamed honly₁ hbound₁ hexcludes₁
    refine ⟨c', ?_, hc'⟩
    rw [Constraints.assignAll, hassign]
    exact hall

theorem textRecords (t : FieldTexts) : Amounts (Metadata.textRecords t) [] := by
  have hproperty : Topic.ofName? "Property" = some .group := by decide +kernel
  unfold Metadata.textRecords
  extract_lets entry samples named
  have hentry {name : String} {v : Value} : ∀ e ∈ entry name v, e.1 = name := by
    intro e he
    unfold entry at he
    split at he
    · rw [List.mem_singleton.mp he]
    · cases he
  have hsamples : ∀ e ∈ samples, e.1 = "examples" := by
    intro e he
    unfold samples at he
    split at he
    · rw [List.mem_singleton.mp he]
    · cases he
  have hnamed : ∀ e ∈ named, e.1 ∈ ["title", "description", "examples", "deprecated"] := by
    intro e he
    rcases List.mem_append.mp he with he | he
    · rcases List.mem_append.mp he with he | he
      · rcases List.mem_append.mp he with he | he
        · simp [hentry e he]
        · simp [hentry e he]
      · simp [hsamples e he]
    · split at he
      · simp [List.mem_singleton.mp he]
      · cases he
  split
  · exact nil
  · obtain ⟨c, hc, honly, hbound, hexcludes⟩ :=
      silent_assignAll hnamed (c := {}) ⟨rfl, rfl, rfl, rfl⟩ (by rintro ⟨⟩ <;> rfl)
        (by rintro ⟨⟩ <;> rfl)
    refine ⟨[c], ?_, .silent honly hbound hexcludes⟩
    have hlayer : (Record.property named).layer? = .ok (some c) := by
      have hgroup : (Record.property named).layerOn .group = .ok c := hc
      rw [Record.layer?, Record.property, hproperty]
      show (do return some (← (Record.property named).layerOn .group)) = _
      rw [hgroup]
      rfl
    rw [List.mapM_cons, hlayer]
    rfl

/-- **The records of metadata amount to the bounds that it gives.** -/
theorem recordsOfAll {ms : List Metadata} (h : Metadata.barriersOfAll? ms = some bs) :
    Amounts (Metadata.recordsOfAll ms) bs := by
  refine flatMap (fun m bs hm => ?_) h
  cases m with
  | record r => cases hm
  | limit l => exact limitRecords hm
  | field d =>
    have hlimits : Amounts (d.limits.flatMap Metadata.limitRecords) bs :=
      flatMap (fun _ _ => limitRecords) hm
    rw [← List.append_nil bs]
    exact hlimits.append (textRecords d.texts)
  | note text =>
    cases hm
    exact nil

end Amounts

/-- **What becomes of bounds.**  Metadata that gives nothing but bounds merges, and amounts to the
value of the last bound at each end, which is excluded if any bound at this end is strict. -/
theorem Constraints.merge_of_barriers {ms : List Metadata} {bs : List Barrier}
    (h : Metadata.barriersOfAll? ms = some bs) : ∃ c,
    merge (Metadata.recordsOfAll ms) = .ok c ∧ c.BoundsOnly ∧ ∀ side,
      (c.bound side).map Bound.rational? =
        (Barrier.lastAt side bs).map (fun n : Int => some (n : ℚ)) ∧
      c.excludes side = Barrier.strictAt side bs := by
  obtain ⟨layers, hread, hlayers⟩ := Amounts.recordsOfAll h
  have hlayers' : (layers.map some).reduceOption = layers := by
    rw [List.reduceOption, List.filterMap_map]
    exact List.filterMap_some
  have hchoices : layers.flatMap choices = [] :=
    List.flatMap_eq_nil_iff.mpr fun c hc => (hlayers.only c hc).choices
  refine ⟨_, merge_of_layers hread ?_, ?_⟩
  · rw [hlayers', hchoices]
    exact ⟨nofun, nofun⟩
  · rw [hlayers']
    exact hlayers.summary

end Schemata
