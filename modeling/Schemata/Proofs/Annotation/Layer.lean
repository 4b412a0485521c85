import Schemata.Annotation.Merge
import Schemata.Proofs.Descriptor.Reading

/-!
# What one record can say

A record is read as a layer of constraints, and reading is lenient: an argument of the wrong kind
counts as not given.  Of two sorts of arguments this is used later on.  A blank text says nothing,
so no text of a layer is blank; and a negative number counts nothing, so no count of a layer is
negative (`normal_of_layer?`).

Whatever the record, there are only two ways for a text or a count to get into its layer: it was
there before, or it is the reading of an argument.  For a group of named constraints, which sets one
after the other, this is seen for each name (`mem_assign`) and carried along the group
(`normal_assignAll`); the other records set theirs at once.
-/

namespace Schemata

namespace Value

variable {v : Value}

/-- A text that is read is not blank. -/
theorem notBlank_asText? {s : Wording} (h : s ∈ v.asText?) : Text.isBlankText s.plain = false := by
  simpa using (Option.filter_eq_some_iff.mp h).2

/-- A count that is read is not negative. -/
theorem nonneg_asCount? {n : Option Int} (h : v.asCount? = .ok n) {i : Int} (hi : i ∈ n) :
    0 ≤ i := by
  have hcut {m : Int} (hm : i ∈ if m < 0 then none else some m) : 0 ≤ i := by
    split at hm
    · cases hm
    · cases hm
      omega
  unfold asCount? at h
  split at h
  · cases h
    cases hi
  · cases h
    exact hcut hi
  · split at h
    · cases h
      exact hcut hi
    · cases h
      cases hi
  · cases h
  · cases h

end Value

namespace Constraints

/-- The texts of a set of constraints, with those that are not set. -/
def texts (c : Constraints) : List (Option Wording) :=
  [c.title, c.description, c.format, c.pattern]

/-- The counts of a set of constraints, with those that are not set. -/
def counts (c : Constraints) : List (Option Int) :=
  [c.minLength, c.maxLength, c.minItems, c.maxItems, c.minProperties, c.maxProperties]

/-- **No text is blank and no count is negative.** -/
structure Normal (c : Constraints) : Prop where
  texts : ∀ t ∈ c.texts, ∀ s ∈ t, Text.isBlankText s.plain = false
  counts : ∀ n ∈ c.counts, ∀ i ∈ n, 0 ≤ i

variable {c c' : Constraints} {key : String} {v : Value}

theorem normal_empty : Normal {} where
  texts := by simp [Constraints.texts]
  counts := by simp [Constraints.counts]

/-- A named constraint sets one thing, to what its value is read as. -/
theorem mem_assign (h : c.assign key v = .ok c') :
    (∀ t ∈ c'.texts, t ∈ c.texts ∨ t = v.asText?) ∧
      ∀ n ∈ c'.counts, n ∈ c.counts ∨ v.asCount? = .ok n := by
  unfold assign at h
  split at h
  all_goals first
    | cases h
      simp [texts, counts]
    | obtain ⟨n, hn, h⟩ := exists_of_bind_eq_ok h
      cases h
      simp [texts, counts, hn]
    | split at h <;> cases h <;> simp [texts, counts]

theorem normal_assign (hc : c.Normal) (h : c.assign key v = .ok c') : c'.Normal where
  texts t ht s hs := by
    rcases (mem_assign h).1 t ht with ht | rfl
    · exact hc.texts t ht s hs
    · exact Value.notBlank_asText? hs
  counts n hn i hi := by
    rcases (mem_assign h).2 n hn with hn | hn
    · exact hc.counts n hn i hi
    · exact Value.nonneg_asCount? hn hi

theorem normal_assignAll {named : List (String × Value)} (hc : c.Normal)
    (h : c.assignAll named = .ok c') : c'.Normal := by
  induction named generalizing c with
  | nil =>
    cases h
    exact hc
  | cons e named ih =>
    obtain ⟨c₁, h₁, h⟩ := exists_of_bind_eq_ok h
    exact ih (normal_assign hc h₁) h

/-- A set of constraints that says nothing but one text. -/
theorem normal_of_text (h : ∀ t ∈ c.texts, t = none ∨ t = v.asText?)
    (hcounts : ∀ n ∈ c.counts, n = none) : c.Normal where
  texts t ht s hs := by
    rcases h t ht with rfl | rfl
    · cases hs
    · exact Value.notBlank_asText? hs
  counts n hn i hi := by
    rw [hcounts n hn] at hi
    cases hi

/-- A set of constraints that says nothing but two counts. -/
theorem normal_of_counts {v' : Value} {n n' : Option Int} (hn : v.asCount? = .ok n)
    (hn' : v'.asCount? = .ok n') (h : ∀ m ∈ c.counts, m = none ∨ m = n ∨ m = n')
    (htexts : ∀ t ∈ c.texts, t = none) : c.Normal where
  texts t ht s hs := by
    rw [htexts t ht] at hs
    cases hs
  counts m hm i hi := by
    rcases h m hm with rfl | rfl | rfl
    · cases hi
    · exact Value.nonneg_asCount? hn hi
    · exact Value.nonneg_asCount? hn' hi

end Constraints

namespace Record

variable {r : Record} {c : Constraints}

theorem normal_of_layerOn {t : Topic} (h : r.layerOn t = .ok c) : c.Normal := by
  cases t with
  | group =>
    refine Constraints.normal_assignAll ?_ h
    split
    · exact Constraints.normal_empty
    · exact Constraints.normal_of_text (v := r.arg 0) (by simp [Constraints.texts])
        (by simp [Constraints.counts])
  | length | count =>
    obtain ⟨n, hn, h⟩ := exists_of_bind_eq_ok h
    obtain ⟨n', hn', h⟩ := exists_of_bind_eq_ok h
    cases h
    exact Constraints.normal_of_counts hn hn' (by simp [Constraints.counts])
      (by simp [Constraints.texts])
  | pattern =>
    cases h
    exact Constraints.normal_of_text (v := r.namedOr "pattern" 0) (by simp [Constraints.texts])
      (by simp [Constraints.counts])
  | description | title =>
    cases h
    exact Constraints.normal_of_text (v := r.namedOr "text" 0) (by simp [Constraints.texts])
      (by simp [Constraints.counts])
  | _ =>
    cases h
    exact Constraints.normal_of_text (v := .null) (by simp [Constraints.texts])
      (by simp [Constraints.counts])

/-- **A layer says nothing blank and counts nothing negative.** -/
theorem normal_of_layer? (h : r.layer? = .ok (some c)) : c.Normal := by
  unfold layer? at h
  split at h
  · obtain ⟨c', hc', h⟩ := exists_of_bind_eq_ok h
    cases h
    exact normal_of_layerOn hc'
  · cases h

end Record

end Schemata
