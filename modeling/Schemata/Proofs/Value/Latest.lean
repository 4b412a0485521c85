import Schemata.Proofs.Value.Mapping
import Mathlib.Data.List.Basic

/-!
# The last of its sort

Where keys are set in turn, the last to set a key decides what is found there.  `LastOf` tells which
element of a list this is, and `getKey?_setKeys_filterMap` that it is the one that is found,
whatever the elements are that the entries were made from.

So all that is set is found again exactly if no two elements that set the same key give it different
values (`forall_getKey?_iff`).
-/

namespace Schemata

/-- The last element of a list that something is true of. -/
def LastOf {α : Type} (p : α → Prop) (xs : List α) (x : α) : Prop :=
  ∃ before after, xs = before ++ x :: after ∧ p x ∧ ∀ y ∈ after, ¬ p y

section

variable {α : Type} {p : α → Prop} {xs : List α} {x y : α}

theorem LastOf.mem (h : LastOf p xs x) : x ∈ xs := by
  obtain ⟨before, after, rfl, -⟩ := h
  exact List.mem_append_right _ List.mem_cons_self

theorem LastOf.holds (h : LastOf p xs x) : p x := by
  obtain ⟨before, after, -, hx, -⟩ := h
  exact hx

@[simp] theorem not_lastOf_nil : ¬ LastOf p [] x :=
  fun h => List.not_mem_nil h.mem

theorem lastOf_concat_of_pos (hy : p y) : LastOf p (xs ++ [y]) x ↔ x = y := by
  constructor
  · rintro ⟨before, after, h, -, hafter⟩
    rcases List.eq_nil_or_concat' after with rfl | ⟨after, z, rfl⟩
    · exact (List.singleton_inj.mp (List.append_inj' h rfl).2).symm
    · rw [← List.cons_append, ← List.append_assoc] at h
      have hz : y = z := List.singleton_inj.mp (List.append_inj' h rfl).2
      exact absurd hy (hafter y (by simp [hz]))
  · rintro rfl
    exact ⟨xs, [], rfl, hy, List.forall_mem_nil _⟩

theorem lastOf_concat_of_neg (hy : ¬ p y) : LastOf p (xs ++ [y]) x ↔ LastOf p xs x := by
  constructor
  · rintro ⟨before, after, h, hx, hafter⟩
    rcases List.eq_nil_or_concat' after with rfl | ⟨after, z, rfl⟩
    · have hxy : y = x := List.singleton_inj.mp (List.append_inj' h rfl).2
      exact absurd (hxy ▸ hx) hy
    · rw [← List.cons_append, ← List.append_assoc] at h
      exact ⟨before, after, (List.append_inj' h rfl).1, hx,
        fun u hu => hafter u (List.mem_append_left _ hu)⟩
  · rintro ⟨before, after, rfl, hx, hafter⟩
    refine ⟨before, after ++ [y], by simp, hx, List.forall_mem_append.mpr ⟨hafter, ?_⟩⟩
    exact List.forall_mem_singleton.mpr hy

/-- Where something is true of an element, there is a last one. -/
theorem exists_lastOf (hx : x ∈ xs) (h : p x) : ∃ y, LastOf p xs y := by
  induction xs using List.reverseRecOn with
  | nil => cases hx
  | append_singleton xs y ih =>
    by_cases hy : p y
    · exact ⟨y, (lastOf_concat_of_pos hy).mpr rfl⟩
    · rcases List.mem_append.mp hx with hx | hx
      · exact (ih hx).imp fun z hz => (lastOf_concat_of_neg hy).mpr hz
      · rw [List.mem_singleton.mp hx] at h
        exact absurd h hy

end

section

variable {α κ ν : Type} [BEq κ] [LawfulBEq κ] {xs : List α} {k : κ} {v : ν}

/-- **What is found after a layer has been laid over others**: the value of the last element of the
layer that is about the key, or else what was there. -/
theorem getKey?_setKeys_filterMap {told : α → Option (κ × ν)} {m : List (κ × ν)} {p : α → Prop}
    {value : α → ν} (h : ∀ x u, told x = some (k, u) ↔ p x ∧ value x = u) :
    getKey? k (setKeys (xs.filterMap told) m) = some v ↔
      (∃ x, LastOf p xs x ∧ value x = v) ∨ (∀ x ∈ xs, ¬ p x) ∧ getKey? k m = some v := by
  induction xs using List.reverseRecOn with
  | nil => simp [not_lastOf_nil, setKeys]
  | append_singleton xs y ih =>
    by_cases hy : p y
    · have hnone : ¬ ∀ x ∈ xs ++ [y], ¬ p x := fun hall => hall y (by simp) hy
      simp only [lastOf_concat_of_pos hy, exists_eq_left, hnone, false_and, or_false]
      rw [List.filterMap_append, List.filterMap_cons, (h y _).mpr ⟨hy, rfl⟩, List.filterMap_nil,
        setKeys_concat, getKey?_setKey, if_pos BEq.rfl, Option.some.injEq]
    · have hkept : getKey? k (setKeys ((xs ++ [y]).filterMap told) m) =
          getKey? k (setKeys (xs.filterMap told) m) := by
        cases he : told y with
        | none => simp [he]
        | some e =>
          have hne : (e.1 == k) = false := beq_eq_false_iff_ne.mpr fun heq =>
            hy ((h y e.2).mp (by rw [he, ← heq])).1
          rw [List.filterMap_append, List.filterMap_cons, he, List.filterMap_nil, setKeys_concat,
            getKey?_setKey, hne]
          rfl
      rw [hkept, ih]
      simp only [lastOf_concat_of_neg hy, List.forall_mem_append, List.forall_mem_singleton, hy,
        not_false_eq_true, and_true]

variable {key : α → κ} {value : α → ν}

/-- What is found in a mapping that was made of the elements of a list. -/
theorem getKey?_setKeys_map_iff :
    getKey? k (setKeys (xs.map fun x => (key x, value x)) []) = some v ↔
      ∃ x, LastOf (fun x => key x = k) xs x ∧ value x = v := by
  have hentry (x : α) (u : ν) : (some ∘ fun x => (key x, value x)) x = some (k, u) ↔
      key x = k ∧ value x = u := by
    rw [Function.comp_apply, Option.some.injEq, Prod.mk.injEq]
  rw [← List.filterMap_eq_map, getKey?_setKeys_filterMap hentry]
  simp [getKey?]

/-- **All that is set is found again** exactly if no two elements give one key different values. -/
theorem forall_getKey?_iff :
    (∀ x ∈ xs, getKey? (key x) (setKeys (xs.map fun x => (key x, value x)) []) = some (value x)) ↔
      ∀ x ∈ xs, ∀ y ∈ xs, key x = key y → value x = value y := by
  constructor
  · intro h x hx y hy hkey
    have hfound := h x hx
    rw [hkey, h y hy] at hfound
    exact (Option.some.inj hfound).symm
  · intro h x hx
    obtain ⟨y, hy⟩ := exists_lastOf (p := fun y => key y = key x) hx rfl
    exact getKey?_setKeys_map_iff.mpr ⟨y, hy, h y hy.mem x hx hy.holds⟩

end

end Schemata
