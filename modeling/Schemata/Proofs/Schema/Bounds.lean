import Schemata.Proofs.Annotation.Barriers
import Schemata.Proofs.Schema.Nullability
import Schemata.Proofs.Synthesis.Instances
import Mathlib.Algebra.Order.Ring.Cast

/-!
# Whole numbers that a leaf accepts

A leaf renders a number and its flag together again: the flag decides under which keyword the number
is put.  So if a leaf demands nothing but bounds, it accepts a whole number if and only if the
number has the type of the leaf and keeps to the bounds (`accepts_leaf_int`).

The property of a type that is a leaf is the bare schema of the leaf with constraints laid on it,
and perhaps a default.  Laying on constraints that are nothing but bounds makes it accept what the
bare schema accepts within the bounds (`accepts_laidOn_int`), whatever kind of leaf it is: kinds
have formats and lengths at the most, and these mean nothing for numbers.
-/

namespace Schemata

open Rendered

namespace Keywords

/-- The bound at an end. -/
def bound (side : Side) (k : Keywords) : Option Bound :=
  match side with
  | .lower => k.minimum
  | .upper => k.maximum

/-- The bound at an end is excluded. -/
def excludes (side : Side) (k : Keywords) : Bool :=
  match side with
  | .lower => k.exclusiveMinimum
  | .upper => k.exclusiveMaximum

/-- Keywords that demand nothing of a number but that it keeps to bounds. -/
structure BoundsOnly (k : Keywords) : Prop where
  multipleOf : k.multipleOf = none
  choices : k.choices = []
  extensions : k.extensions = []

variable {D : Dialect} {refPrefix : String} {k : Keywords} {t : Option JsonType} {v : Int}
  {siblings : List Entry}

/-- The keyword that a bound is put under. -/
def boundKey (side : Side) (strict : Bool) : String :=
  match side, strict with
  | .lower, false => "minimum"
  | .lower, true => "exclusiveMinimum"
  | .upper, false => "maximum"
  | .upper, true => "exclusiveMaximum"

/-- The entry of a bound. -/
def boundEntry (side : Side) (k : Keywords) : Rendered :=
  numberEntry (boundKey side (k.excludes side)) (k.bound side)

/-- The entries that speak of numbers, if none of them speaks of multiples. -/
theorem numberEntries_eq (hk : k.multipleOf = none) :
    k.numberEntries = k.boundEntry .lower ++ k.boundEntry .upper := by
  have hkey (side : Side) (b : Bool) :
      boundKey side b = if b then boundKey side true else boundKey side false := by
    cases b <;> rfl
  rw [numberEntries, hk, boundEntry, boundEntry, hkey .lower, hkey .upper]
  exact List.append_nil _

/-- A keyword for a bound, and the whole numbers that meet it. -/
theorem meets_bound_iff (side : Side) (strict : Bool) {x : Value} {n : Int}
    (hx : x.rational? = some (n : ℚ)) :
    D.Meets siblings (D.keywordOf ((boundKey side strict : Wording), x)) (.int v) ↔
      Barrier.Admits ⟨side, strict, n⟩ v := by
  have hbounds (key : Wording) (holds : ℚ → ℚ → Prop) :
      (D.keywordOf (key, x)).Bounds (.int v) holds ↔ holds n v := by
    have hread : (D.keywordOf (key, x)).value.rational? = some (n : ℚ) := hx
    rw [Entry.Bounds, hread]
    simp [Value.rational?, Value.core]
  cases side <;> cases strict <;> refine (hbounds _ _).trans ?_
  · exact Int.cast_le
  · exact Int.cast_lt
  · exact Int.cast_le
  · exact Int.cast_lt

/-- **A whole number meets the entry of a bound** if it keeps to the bound. -/
theorem meets_boundEntry {side : Side} {bound : Option Int}
    (h : (k.bound side).map Bound.rational? = bound.map fun n : Int => some (n : ℚ)) :
    (∀ e ∈ k.boundEntry side, D.Meets siblings (D.keywordOf e) (.int v)) ↔
      ∀ n ∈ bound, Barrier.Admits ⟨side, k.excludes side, n⟩ v := by
  unfold boundEntry
  cases bound with
  | none =>
    rw [Option.map_eq_none_iff.mp h]
    simp [numberEntry, optionalEntry]
  | some n =>
    obtain ⟨b, hb, hn⟩ := Option.map_eq_some_iff.mp h
    rw [hb]
    simpa [numberEntry, optionalEntry, entry] using meets_bound_iff side (k.excludes side) hn

/-- **Of what a leaf says only the bounds matter to a whole number.** -/
theorem meets_ownEntries (hk : k.BoundsOnly) :
    (∀ e ∈ k.ownEntries, D.Meets siblings (D.keywordOf e) (.int v)) ↔
      ∀ side, ∀ e ∈ k.boundEntry side, D.Meets siblings (D.keywordOf e) (.int v) := by
  have hentries := numberEntries_eq hk.multipleOf
  constructor
  · intro h side e he
    refine h e (numberEntries_subset k ?_)
    rw [hentries]
    cases side with
    | lower => exact List.mem_append_left _ he
    | upper => exact List.mem_append_right _ he
  · intro h e he
    rcases sorts_ownEntries k e he with ⟨hchoices, -⟩ | he | ⟨key, hkey, hk⟩
    · exact absurd hk.choices hchoices
    · rw [hentries] at he
      exact (List.mem_append.mp he).elim (h .lower e) (h .upper e)
    · have hread : (D.keywordOf e).key = key := Dialect.key_keywordOf hk
      rcases List.mem_append.mp hkey with hkey | hkey
      · exact Dialect.meets_of_describing (hread ▸ hkey)
      · exact Dialect.meets_int (hread ▸ hkey)

end Keywords

namespace Node

variable {D : Dialect} {refPrefix : String} {k : Keywords} {t : Option JsonType} {v : Int}
  {c : Constraints}

/-- **A leaf that demands nothing but bounds** accepts the whole numbers of its type that keep to
the bounds. -/
theorem accepts_leaf_int (hk : k.BoundsOnly) (bounds : Side → Option Int)
    (h : ∀ side, (k.bound side).map Bound.rational? =
      (bounds side).map fun n : Int => some (n : ℚ)) :
    D.Accepts ((leaf k t).render refPrefix) (.int v) ↔
      (∀ j ∈ t, (Value.int v).HasType j) ∧
        ∀ side, ∀ n ∈ bounds side, Barrier.Admits ⟨side, k.excludes side, n⟩ v := by
  have hentries : (leaf k t).entries refPrefix = k.typeEntry t ++ k.ownEntries := by
    show k.finish (k.typeEntry t) = _
    rw [Keywords.finish, hk.extensions]
    rfl
  have htype (siblings : List Entry) :
      (∀ e ∈ k.typeEntry t, D.Meets siblings (D.keywordOf e) (.int v)) ↔
        ∀ j ∈ t, (Value.int v).HasType j := by
    cases t with
    | none => simp [Keywords.typeEntry]
    | some j =>
      obtain ⟨x, hx, htakes⟩ := k.exists_typeEntry j
      have hmeets : D.Meets siblings (D.keywordOf ((("type" : String) : Wording), x)) (.int v) ↔
          (Value.int v).HasType j := by
        refine (htakes (.int v)).trans (or_iff_left ?_)
        rintro ⟨-, hnull⟩
        cases hnull
      rw [hx]
      simpa [entry] using hmeets
  rw [render, Dialect.accepts_toValue, hentries, List.forall_mem_append, htype,
    Keywords.meets_ownEntries hk]
  exact and_congr_right fun _ => forall_congr' fun side => Keywords.meets_boundEntry (h side)

/-- What the bare schema of a kind of leaf accepts. -/
theorem accepts_schema_int {kind : Kind} : D.Accepts (kind.schema.render refPrefix) (.int v) ↔
    ∀ j ∈ kind.jsonType, (Value.int v).HasType j := by
  refine (accepts_leaf_int ⟨rfl, rfl, rfl⟩ (fun _ => none) fun side => ?_).trans
    (and_iff_left fun _ _ hn => absurd hn (Option.not_mem_none _))
  cases side <;> rfl

/-- What becomes of the schema of a leaf when bounds are laid on it. -/
theorem exists_leaf_of_laidOn (hc : c.BoundsOnly) (kind : Kind) (default : Option Value) :
    ∃ k : Keywords, (c.laidOn kind.schema).withDefault default = leaf k kind.jsonType ∧
      k.BoundsOnly ∧ ∀ side, k.bound side = c.bound side ∧
        ((c.bound side).isSome → k.excludes side = c.excludes side) := by
  obtain ⟨k₀, hschema, hk₀, hnone⟩ : ∃ k₀ : Keywords, kind.schema = leaf k₀ kind.jsonType ∧
      k₀.BoundsOnly ∧ k₀.minimum = none ∧ k₀.maximum = none :=
    ⟨_, rfl, ⟨rfl, rfl, rfl⟩, rfl, rfl⟩
  have hlaid : c.laidOn kind.schema = leaf (c.onLeaf k₀ kind.jsonType) kind.jsonType := by
    have hconcrete : (c.nullable && !kind.schema.isConcrete) = false := Bool.and_false _
    rw [Constraints.laidOn, hconcrete, hschema]
    show leaf (c.onLeaf k₀ (c.type <|> kind.jsonType)) (c.type <|> kind.jsonType) = _
    rw [hc.type]
    rfl
  have hk : (c.onLeaf k₀ kind.jsonType).BoundsOnly := by
    refine ⟨?_, ?_, ?_⟩
    · show (c.multipleOf <|> k₀.multipleOf) = none
      rw [hc.multipleOf, hk₀.multipleOf]
      rfl
    · show Constraints.upperList c.choices k₀.choices = []
      rw [hc.choices, hk₀.choices]
      rfl
    · show setKeys c.extensions k₀.extensions = []
      rw [hc.extensions, hk₀.extensions]
      rfl
  have hbounds (side : Side) : (c.onLeaf k₀ kind.jsonType).bound side = c.bound side ∧
      ((c.bound side).isSome → (c.onLeaf k₀ kind.jsonType).excludes side = c.excludes side) := by
    cases side with
    | lower =>
      refine ⟨?_, fun hsome => if_pos hsome⟩
      show (c.minimum <|> k₀.minimum) = c.minimum
      rw [hnone.1]
      cases c.minimum <;> rfl
    | upper =>
      refine ⟨?_, fun hsome => if_pos hsome⟩
      show (c.maximum <|> k₀.maximum) = c.maximum
      rw [hnone.2]
      cases c.maximum <;> rfl
  rw [hlaid]
  cases default with
  | none => exact ⟨_, rfl, hk, hbounds⟩
  | some d =>
    exact ⟨{ c.onLeaf k₀ kind.jsonType with default := some d }, rfl,
      ⟨hk.multipleOf, hk.choices, hk.extensions⟩, hbounds⟩

/-- **Bounds that are laid on the schema of a leaf** are all that it demands of a whole number
besides. -/
theorem accepts_laidOn_int {kind : Kind} (hc : c.BoundsOnly) (bounds : Side → Option Int)
    (h : ∀ side, (c.bound side).map Bound.rational? =
      (bounds side).map fun n : Int => some (n : ℚ)) (default : Option Value) :
    D.Accepts (((c.laidOn kind.schema).withDefault default).render refPrefix) (.int v) ↔
      D.Accepts (kind.schema.render refPrefix) (.int v) ∧
        ∀ side, ∀ n ∈ bounds side, Barrier.Admits ⟨side, c.excludes side, n⟩ v := by
  obtain ⟨k, hleaf, hk, hbounds⟩ := exists_leaf_of_laidOn hc kind default
  have hexcludes (side : Side) {n : Int} (hn : n ∈ bounds side) :
      k.excludes side = c.excludes side := by
    refine (hbounds side).2 ?_
    rw [← Option.isSome_map (f := Bound.rational?), h side, Option.mem_def.mp hn]
    rfl
  rw [hleaf, accepts_leaf_int hk bounds fun side => (hbounds side).1 ▸ h side, accepts_schema_int]
  refine and_congr_right fun _ => forall_congr' fun side => forall₂_congr fun n hn => ?_
  rw [hexcludes side hn]

end Node

end Schemata
