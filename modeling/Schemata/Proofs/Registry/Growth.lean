import Schemata.Registry.Basic
import Mathlib.Data.List.Nodup

/-!
# Growth of a registry

A registry only ever gains entries between the start and the end of a group: `Grown r new r'`
says that `r'` is `r` with the entries `new` written at its end, under names that were free,
and noted in the innermost journal.  What a group does when it ends is then read off: dropping
it gives back the registry it was opened on (`Grown.rollback`), and keeping it leaves that
registry with the new entries (`Grown.commit`).
-/

namespace Schemata

/-! ## Looking up keys -/

section Keys

variable {κ α : Type} [BEq κ] [LawfulBEq κ]

theorem getKey?_eq_none_iff {k : κ} {m : List (κ × α)} :
    getKey? k m = none ↔ k ∉ m.map Prod.fst := by
  induction m with
  | nil => simp [getKey?]
  | cons e m ih =>
    obtain ⟨k', v⟩ := e
    unfold getKey?
    by_cases h : k' = k
    · simp [h]
    · rw [if_neg (by simpa using h), ih, List.map_cons, List.mem_cons, not_or]
      exact ⟨fun hm => ⟨fun hk => h hk.symm, hm⟩, fun hm => hm.2⟩

theorem mem_of_getKey? {k : κ} {v : α} {m : List (κ × α)} (h : getKey? k m = some v) :
    (k, v) ∈ m := by
  induction m with
  | nil => cases h
  | cons e m ih =>
    obtain ⟨k', v'⟩ := e
    unfold getKey? at h
    split at h
    next hk =>
      rw [eq_of_beq hk, Option.some.inj h]
      exact List.mem_cons_self
    next => exact List.mem_cons_of_mem _ (ih h)

omit [LawfulBEq κ] in
@[simp] theorem getKey?_append {k : κ} {m m' : List (κ × α)} :
    getKey? k (m ++ m') = (getKey? k m).or (getKey? k m') := by
  induction m with
  | nil => rfl
  | cons e m ih =>
    obtain ⟨k', v'⟩ := e
    rw [List.cons_append, getKey?, getKey?]
    split
    · rfl
    · exact ih

/-- A key that is put behind others is found, unless one of them is the same. -/
theorem getKey?_concat_self {k : κ} {v : α} {m : List (κ × α)} (h : getKey? k m = none) :
    getKey? k (m ++ [(k, v)]) = some v := by
  rw [getKey?_append, h, Option.none_or]
  exact if_pos (beq_self_eq_true k)

theorem getKey?_concat_of_ne {k k' : κ} {v : α} {m : List (κ × α)} (h : k' ≠ k) :
    getKey? k (m ++ [(k', v)]) = getKey? k m := by
  have hnone : getKey? k [(k', v)] = none := if_neg (by simpa using h)
  rw [getKey?_append, hnone, Option.or_none]

omit [LawfulBEq κ] in
theorem getKey?_cons {k k' : κ} {v : α} {m : List (κ × α)} :
    getKey? k ((k', v) :: m) = if k' == k then some v else getKey? k m :=
  rfl

/-- What is found among the keys that pass a test. -/
theorem getKey?_filter {p : κ → Bool} {k : κ} {m : List (κ × α)} :
    getKey? k (m.filter fun e => p e.1) = if p k then getKey? k m else none := by
  induction m with
  | nil => exact (ite_self _).symm
  | cons e m ih =>
    obtain ⟨k', v⟩ := e
    rw [List.filter_cons, getKey?_cons]
    by_cases hk : k' = k
    · rw [hk, beq_self_eq_true, if_pos rfl]
      split
      next hp => rw [getKey?_cons, beq_self_eq_true, if_pos rfl]
      next hp => rw [ih, if_neg hp]
    · have hne : ¬ (k' == k) = true := by simpa using hk
      rw [if_neg hne, ← ih]
      split
      next => rw [getKey?_cons, if_neg hne]
      next => rfl

end Keys

namespace Registry

variable {α : Type} {r r₁ r₂ : Registry α} {name : String}

@[simp] theorem get?_eq_none_iff : r.get? name = none ↔ name ∉ r.names :=
  getKey?_eq_none_iff

@[simp] theorem isSome_get?_iff : (r.get? name).isSome = true ↔ name ∈ r.names := by
  rw [Option.isSome_iff_ne_none, ne_eq, get?_eq_none_iff, not_not]

@[simp] theorem contains_iff : r.contains name = true ↔ name ∈ r.names :=
  isSome_get?_iff

theorem mem_entries_of_get? {a : α} (h : r.get? name = some a) : (name, a) ∈ r.entries :=
  mem_of_getKey? h

theorem mem_names_of_get? {a : α} (h : r.get? name = some a) : name ∈ r.names :=
  List.mem_map_of_mem (f := Prod.fst) (mem_entries_of_get? h)

/-! ## Writing -/

/-- The journals after some names have been written. -/
def noted (journals : List (List String)) (names : List String) : List (List String) :=
  match journals with
  | [] => []
  | j :: js => (j ++ names) :: js

@[simp] theorem noted_nil (journals : List (List String)) : noted journals [] = journals := by
  cases journals with
  | nil => rfl
  | cons j js => rw [noted, List.append_nil]

@[simp] theorem noted_noted (journals : List (List String)) (names names' : List String) :
    noted (noted journals names) names' = noted journals (names ++ names') := by
  cases journals with
  | nil => rfl
  | cons j js => simp only [noted, List.append_assoc]

/-- One registry is another with some entries written at its end. -/
structure Grown (r : Registry α) (new : List (String × α)) (r' : Registry α) : Prop where
  entries : r'.entries = r.entries ++ new
  journals : r'.journals = noted r.journals (new.map Prod.fst)
  fresh : ∀ e ∈ new, e.1 ∉ r.names
  nodup : (new.map Prod.fst).Nodup

namespace Grown

variable {new new₁ new₂ : List (String × α)}

theorem refl (r : Registry α) : Grown r [] r where
  entries := (List.append_nil _).symm
  journals := (noted_nil _).symm
  fresh := nofun
  nodup := List.nodup_nil

theorem eq_of_nil (h : Grown r [] r₁) : r₁ = r := by
  obtain ⟨entries, journals⟩ := r₁
  obtain ⟨hentries, hjournals, -, -⟩ := h
  cases hentries.trans (List.append_nil _)
  cases hjournals.trans (noted_nil _)
  rfl

theorem names (h : Grown r new r₁) : r₁.names = r.names ++ new.map Prod.fst := by
  rw [Registry.names, h.entries, List.map_append]
  rfl

theorem trans (h₁ : Grown r new₁ r₁) (h₂ : Grown r₁ new₂ r₂) : Grown r (new₁ ++ new₂) r₂ where
  entries := by rw [h₂.entries, h₁.entries, List.append_assoc]
  journals := by rw [h₂.journals, h₁.journals, noted_noted, List.map_append]
  fresh := by
    intro e he
    rcases List.mem_append.mp he with he | he
    · exact h₁.fresh e he
    · intro hm
      refine h₂.fresh e he ?_
      rw [h₁.names]
      exact List.mem_append_left _ hm
  nodup := by
    rw [List.map_append, List.nodup_append]
    refine ⟨h₁.nodup, h₂.nodup, ?_⟩
    intro a ha b hb hab
    obtain ⟨e, he, rfl⟩ := List.mem_map.mp hb
    refine h₂.fresh e he ?_
    rw [h₁.names, ← hab]
    exact List.mem_append_right _ ha

theorem names_subset (h : Grown r new r₁) : r.names ⊆ r₁.names := by
  rw [h.names]
  exact List.subset_append_left _ _

theorem names_nodup (h : Grown r new r₁) (hr : r.names.Nodup) : r₁.names.Nodup := by
  rw [h.names, List.nodup_append]
  refine ⟨hr, h.nodup, ?_⟩
  intro a ha b hb hab
  obtain ⟨e, he, rfl⟩ := List.mem_map.mp hb
  exact h.fresh e he (hab ▸ ha)

/-- **Dropping a group gives back the registry it was opened on.** -/
theorem rollback (h : Grown r.open_ new r₁) : r₁.rollback = r := by
  have hj : r₁.journals = new.map Prod.fst :: r.journals := h.journals
  have hold : r.entries.filter (fun e => !(new.map Prod.fst).contains e.1) = r.entries := by
    refine List.filter_eq_self.mpr fun e he => ?_
    simp only [Bool.not_eq_true', List.contains_eq_mem, decide_eq_false_iff_not, List.mem_map,
      not_exists, not_and]
    intro e' he' heq
    exact h.fresh e' he' (heq ▸ List.mem_map_of_mem he)
  have hnew : new.filter (fun e => !(new.map Prod.fst).contains e.1) = [] := by
    refine List.filter_eq_nil_iff.mpr fun e he => ?_
    simp only [Bool.not_eq_true', List.contains_eq_mem, decide_eq_false_iff_not, not_not]
    exact List.mem_map_of_mem he
  rw [Registry.rollback, hj]
  show { r₁.dropNames (new.map Prod.fst) with journals := r.journals } = r
  rw [dropNames, h.entries]
  show ({ entries := (r.entries ++ new).filter _, journals := r.journals } : Registry α) = r
  rw [List.filter_append, hold, hnew, List.append_nil]

/-- **Keeping a group leaves the registry it was opened on with the new entries.** -/
theorem commit (h : Grown r.open_ new r₁) : Grown r new r₁.commit := by
  have hj : r₁.journals = new.map Prod.fst :: r.journals := h.journals
  have hentries : r₁.commit.entries = r₁.entries := by
    rw [Registry.commit]
    split <;> rfl
  refine ⟨hentries.trans h.entries, ?_, h.fresh, h.nodup⟩
  rw [Registry.commit, hj]
  cases r.journals with
  | nil => rfl
  | cons j js => rfl

end Grown

theorem put_of_get? {a stored : α} (h : r.get? name = some stored) :
    r.put name a = (stored, r) := by
  rw [put, h]

theorem put_of_free {a : α} (h : r.get? name = none) : r.put name a = (a, r.store name a) := by
  rw [put, h]

theorem grown_store {a : α} (h : r.get? name = none) : Grown r [(name, a)] (r.store name a) where
  entries := rfl
  journals := by
    rw [store]
    cases r.journals <;> rfl
  fresh := by
    intro e he
    rw [List.mem_singleton.mp he]
    exact get?_eq_none_iff.mp h
  nodup := List.nodup_singleton _

/-- What is written by storing an entry unless the name is taken. -/
theorem grown_put (r : Registry α) (name : String) (a : α) :
    ∃ new, Grown r new (r.put name a).2 ∧ ∀ e ∈ new, e = (name, a) := by
  cases h : r.get? name with
  | some stored =>
    rw [put_of_get? h]
    exact ⟨[], Grown.refl r, nofun⟩
  | none =>
    rw [put_of_free h]
    exact ⟨_, grown_store h, fun e he => List.mem_singleton.mp he⟩

/-! ## Entries alone -/

/-- A registry with no group open. -/
def bare (r : Registry α) : Registry α :=
  { entries := r.entries }

@[simp] theorem bare_commit (r : Registry α) : r.commit.bare = r.bare := by
  rw [commit]
  split <;> rfl

/-- What is stored does not depend on the groups that are open. -/
theorem bare_put (r : Registry α) (name : String) (a : α) :
    (r.bare.put name a).1 = (r.put name a).1 ∧
      (r.bare.put name a).2 = (r.put name a).2.bare := by
  have hget : r.bare.get? name = r.get? name := rfl
  cases h : r.get? name with
  | some stored =>
    rw [put_of_get? h, put_of_get? (hget.trans h)]
    exact ⟨rfl, rfl⟩
  | none =>
    rw [put_of_free h, put_of_free (hget.trans h)]
    exact ⟨rfl, rfl⟩

end Registry

end Schemata
