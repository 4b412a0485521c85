import Schemata.Value.Literal
import Mathlib.Data.List.Induction

/-!
# Setting keys in turn

An ordered mapping is a list of entries, and `setKeys` sets some of its keys, one after the other.
Equal keys need not be one and the same: the first of them stays in its place, and only the value
changes.

Of the entries that are set it is enough to keep one for each key: the mapping that they make by
themselves says all that they say.  So it is no matter whether entries are set one by one or their
mapping is set at once (`setKeys_setKeys`).  At a key the last value is found that was given for it
(`getKey?_setKeys_nil`), and no key is there twice (`keysApart_setKeys`).
-/

namespace Schemata

section

variable {κ α : Type} [BEq κ] [EquivBEq κ] {j k : κ} {u v : α} {m : List (κ × α)}

/-- A key that is equal to another one is equal to what that is equal to, and to nothing else. -/
theorem beq_eq_of_beq {i j k : κ} (h : (j == k) = true) : (i == j) = (i == k) := by
  rw [Bool.eq_iff_iff]
  exact ⟨fun hij => PartialEquivBEq.trans hij h,
    fun hik => PartialEquivBEq.trans hik (PartialEquivBEq.symm h)⟩

/-! ## Two keys -/

/-- A key that is set twice keeps the first spelling and the second value. -/
theorem setKey_setKey_of_beq (h : (j == k) = true) :
    setKey k v (setKey j u m) = setKey j v m := by
  induction m with
  | nil => simp [setKey, h]
  | cons e m ih =>
    obtain ⟨i, w⟩ := e
    by_cases hi : (i == j) = true
    · have hik : (i == k) = true := beq_eq_of_beq h ▸ hi
      simp [setKey, hi, hik]
    · have hik : (i == k) = false := by simpa [← beq_eq_of_beq (i := i) h] using hi
      simp [setKey, hi, hik, ih]

/-- Keys that differ may be set in either order, once one of them has its place. -/
theorem setKey_comm (hk : m.any (·.1 == k) = true) (h : (j == k) = false) :
    setKey k v (setKey j u m) = setKey j u (setKey k v m) := by
  induction m with
  | nil => cases hk
  | cons e m ih =>
    obtain ⟨i, w⟩ := e
    by_cases hj : (i == j) = true
    · have hik : (i == k) = false := by
        rw [BEq.comm, beq_eq_of_beq hj, BEq.comm]
        exact h
      simp [setKey, hj, hik]
    · by_cases hik : (i == k) = true
      · simp [setKey, hj, hik]
      · have hk' : m.any (·.1 == k) = true := by simpa [hik] using hk
        simp [setKey, hj, hik, ih hk']

theorem any_setKey : (setKey j u m).any (·.1 == k) = (m.any (·.1 == k) || j == k) := by
  induction m with
  | nil => simp [setKey]
  | cons e m ih =>
    obtain ⟨i, w⟩ := e
    by_cases hj : (i == j) = true
    · have hik : (j == k) = (i == k) := by
        rw [BEq.comm, ← beq_eq_of_beq hj, BEq.comm]
      simp [setKey, hj, hik, Bool.or_right_comm]
    · simp [setKey, hj, ih, Bool.or_assoc]

/-! ## Many keys -/

/-- No two keys are equal. -/
def KeysApart (m : List (κ × α)) : Prop :=
  m.Pairwise fun e e' => (e.1 == e'.1) = false

theorem keysApart_setKey (h : KeysApart m) : KeysApart (setKey k v m) := by
  induction m with
  | nil => exact List.pairwise_singleton _ _
  | cons e m ih =>
    obtain ⟨i, w⟩ := e
    obtain ⟨hi, hm⟩ := List.pairwise_cons.mp h
    by_cases hik : (i == k) = true
    · simp only [setKey, hik, if_true]
      exact List.pairwise_cons.mpr ⟨hi, hm⟩
    · rw [setKey, if_neg hik]
      refine List.pairwise_cons.mpr ⟨fun e he => ?_, ih hm⟩
      -- the keys are those that were there, and the new one
      have hnone : (setKey k v m).any (·.1 == i) = false := by
        rw [any_setKey, Bool.or_eq_false_iff, List.any_eq_false, BEq.comm]
        exact ⟨fun e' he' => by simp [BEq.comm (a := e'.1), hi e' he'], by simpa using hik⟩
      have := List.any_eq_false.mp hnone e he
      rw [BEq.comm]
      simpa using this

omit [EquivBEq κ] in
@[simp] theorem setKeys_concat (es : List (κ × α)) (e : κ × α) (m : List (κ × α)) :
    setKeys (es ++ [e]) m = setKey e.1 e.2 (setKeys es m) := by
  simp [setKeys]

omit [EquivBEq κ] in
theorem setKeys_append (es es' m : List (κ × α)) :
    setKeys (es ++ es') m = setKeys es' (setKeys es m) :=
  List.foldl_append

/-- **No key is set twice.** -/
theorem keysApart_setKeys (es : List (κ × α)) : KeysApart (setKeys es []) := by
  induction es using List.reverseRecOn with
  | nil => exact .nil
  | append_singleton es e ih =>
    rw [setKeys_concat]
    exact keysApart_setKey ih

/-- A key that has its place may be set before others. -/
theorem setKey_setKeys {es : List (κ × α)} (hk : m.any (·.1 == k) = true)
    (hes : ∀ e ∈ es, (e.1 == k) = false) :
    setKey k v (setKeys es m) = setKeys es (setKey k v m) := by
  induction es generalizing m with
  | nil => rfl
  | cons e es ih =>
    obtain ⟨he, hes⟩ := List.forall_mem_cons.mp hes
    show setKey k v (setKeys es (setKey e.1 e.2 m)) = setKeys es (setKey e.1 e.2 (setKey k v m))
    rw [ih (by rw [any_setKey, hk, Bool.true_or]) hes, setKey_comm hk he]

/-- A key set in a mapping, which is then set as a whole. -/
theorem setKeys_setKey {n : List (κ × α)} (hn : KeysApart n) :
    setKeys (setKey k v n) m = setKey k v (setKeys n m) := by
  induction n generalizing m with
  | nil => rfl
  | cons e n ih =>
    obtain ⟨i, w⟩ := e
    obtain ⟨hi, hn⟩ := List.pairwise_cons.mp hn
    by_cases hik : (i == k) = true
    · have hkeys : ∀ e ∈ n, (e.1 == k) = false := fun e he => by
        rw [← beq_eq_of_beq hik, BEq.comm]
        exact hi e he
      rw [setKey, if_pos hik]
      show setKeys n (setKey i v m) = setKey k v (setKeys n (setKey i w m))
      rw [setKey_setKeys (by rw [any_setKey, hik, Bool.or_true]) hkeys, setKey_setKey_of_beq hik]
    · rw [setKey, if_neg hik]
      exact ih hn

/-- **Entries set one by one, or their mapping set at once.** -/
@[simp] theorem setKeys_setKeys (es m : List (κ × α)) :
    setKeys (setKeys es []) m = setKeys es m := by
  induction es using List.reverseRecOn with
  | nil => rfl
  | append_singleton es e ih =>
    rw [setKeys_concat, setKeys_concat, setKeys_setKey (keysApart_setKeys es), ih]

/-! ## Keys that are there -/

omit [EquivBEq κ] in
/-- The entry in front keeps its place, and takes the last of the values that are set there. -/
theorem setKeys_cons (es : List (κ × α)) (k : κ) (u : α) (m : List (κ × α)) :
    setKeys es ((k, u) :: m) =
      (k, ((es.filter (k == ·.1)).getLast?.map (·.2)).getD u) ::
        setKeys (es.filter fun e => !(k == e.1)) m := by
  induction es using List.reverseRecOn with
  | nil => rfl
  | append_singleton es e ih =>
    rw [setKeys_concat, ih, setKey, List.filter_append, List.filter_append]
    by_cases he : (k == e.1) = true
    · simp [he]
    · simp [he]

omit [EquivBEq κ] in
/-- Keys that are none of those that are there are set behind them. -/
theorem setKeys_append_of_apart {es : List (κ × α)} (n : List (κ × α))
    (h : ∀ e ∈ es, ∀ e' ∈ m, (e'.1 == e.1) = false) :
    setKeys es (m ++ n) = m ++ setKeys es n := by
  induction m with
  | nil => rfl
  | cons e' m ih =>
    have hnone : es.filter (e'.1 == ·.1) = [] :=
      List.filter_eq_nil_iff.mpr fun e he => by simp [h e he e' List.mem_cons_self]
    have hall : es.filter (fun e => !(e'.1 == e.1)) = es :=
      List.filter_eq_self.mpr fun e he => by simp [h e he e' List.mem_cons_self]
    rw [List.cons_append, setKeys_cons es e'.1 e'.2, hnone, hall,
      ih fun e he e'' he'' => h e he e'' (List.mem_cons_of_mem _ he'')]
    rfl

omit [EquivBEq κ] in
theorem exists_of_mem_setKey {e : κ × α} (h : e ∈ setKey k v m) :
    (∃ e' ∈ m, e'.1 = e.1) ∨ k = e.1 := by
  induction m with
  | nil =>
    rw [List.mem_singleton.mp h]
    exact .inr rfl
  | cons e₁ m ih =>
    unfold setKey at h
    split at h
    · rcases List.mem_cons.mp h with rfl | h
      · exact .inl ⟨e₁, List.mem_cons_self, rfl⟩
      · exact .inl ⟨e, List.mem_cons_of_mem _ h, rfl⟩
    · rcases List.mem_cons.mp h with rfl | h
      · exact .inl ⟨_, List.mem_cons_self, rfl⟩
      · rcases ih h with ⟨e', he', hk⟩ | hk
        · exact .inl ⟨e', List.mem_cons_of_mem _ he', hk⟩
        · exact .inr hk

omit [EquivBEq κ] in
/-- The keys that have been set by themselves are those that were given. -/
theorem exists_of_mem_setKeys {es : List (κ × α)} {e : κ × α} (h : e ∈ setKeys es []) :
    ∃ e' ∈ es, e'.1 = e.1 := by
  induction es using List.reverseRecOn generalizing e with
  | nil => cases h
  | append_singleton es e₁ ih =>
    rw [setKeys_concat] at h
    rcases exists_of_mem_setKey h with ⟨e', he', hk⟩ | hk
    · obtain ⟨e'', he'', hk'⟩ := ih he'
      exact ⟨e'', List.mem_append_left _ he'', hk'.trans hk⟩
    · exact ⟨e₁, List.mem_append_right _ List.mem_cons_self, hk⟩

omit [EquivBEq κ] in
/-- What is set in a mapping is what was there or what is given. -/
theorem forall_setKey {P : κ → Prop} {Q : α → Prop} (hm : ∀ e ∈ m, P e.1 ∧ Q e.2) (hk : P k)
    (hv : Q v) : ∀ e ∈ setKey k v m, P e.1 ∧ Q e.2 := by
  induction m with
  | nil => exact List.forall_mem_singleton.mpr ⟨hk, hv⟩
  | cons e m ih =>
    obtain ⟨he, hm⟩ := List.forall_mem_cons.mp hm
    unfold setKey
    split
    · exact List.forall_mem_cons.mpr ⟨⟨he.1, hv⟩, hm⟩
    · exact List.forall_mem_cons.mpr ⟨he, ih hm⟩

omit [EquivBEq κ] in
theorem forall_setKeys {P : κ → Prop} {Q : α → Prop} {es m : List (κ × α)}
    (hes : ∀ e ∈ es, P e.1 ∧ Q e.2) (hm : ∀ e ∈ m, P e.1 ∧ Q e.2) :
    ∀ e ∈ setKeys es m, P e.1 ∧ Q e.2 := by
  induction es generalizing m with
  | nil => exact hm
  | cons e es ih =>
    obtain ⟨he, hes⟩ := List.forall_mem_cons.mp hes
    exact ih hes (forall_setKey hm he.1 he.2)

/-! ## Looking keys up -/

theorem getKey?_setKey : getKey? k (setKey j u m) = if j == k then some u else getKey? k m := by
  induction m with
  | nil => rfl
  | cons e m ih =>
    obtain ⟨i, w⟩ := e
    by_cases hj : (i == j) = true
    · have hik : (j == k) = (i == k) := by
        rw [BEq.comm, ← beq_eq_of_beq hj, BEq.comm]
      rw [setKey, if_pos hj, getKey?, getKey?, hik]
      by_cases hi : (i == k) = true <;> simp [hi]
    · rw [setKey, if_neg hj, getKey?, getKey?, ih]
      by_cases hi : (i == k) = true
      · have hjk : (j == k) = false := by
          rw [← beq_eq_of_beq hi, BEq.comm]
          simpa using hj
        simp [hi, hjk]
      · simp [hi]

/-- **The last value that was given for a key.** -/
theorem getKey?_setKeys_nil (es : List (κ × α)) :
    getKey? k (setKeys es []) = (es.filter (·.1 == k)).getLast?.map (·.2) := by
  induction es using List.reverseRecOn with
  | nil => rfl
  | append_singleton es e ih =>
    rw [setKeys_concat, getKey?_setKey, List.filter_append]
    by_cases he : (e.1 == k) = true
    · simp [he]
    · simp [he, ih]

/-- Of entries that are set in two lots, the second lot decides where it says anything. -/
theorem getKey?_setKeys_append (es es' : List (κ × α)) :
    getKey? k (setKeys (es ++ es') []) =
      (getKey? k (setKeys es' [])).or (getKey? k (setKeys es [])) := by
  rw [getKey?_setKeys_nil, getKey?_setKeys_nil, getKey?_setKeys_nil, List.filter_append,
    List.getLast?_append]
  cases (es'.filter (·.1 == k)).getLast? <;> rfl

/-- What is set is found, where no other key is equal. -/
theorem getKey?_of_mem (h : KeysApart m) (he : (k, v) ∈ m) : getKey? k m = some v := by
  induction m with
  | nil => cases he
  | cons e m ih =>
    obtain ⟨hapart, hm⟩ := List.pairwise_cons.mp h
    rcases List.mem_cons.mp he with rfl | he
    · exact if_pos ReflBEq.rfl
    · rw [getKey?, hapart _ he]
      exact ih hm he

/-! ## Keys that are set again -/

/-- A mapping whose keys are there, with the values that they have, is set to no effect. -/
theorem setKeys_self (h : KeysApart m) : setKeys m m = m := by
  induction m with
  | nil => rfl
  | cons e m ih =>
    obtain ⟨i, w⟩ := e
    obtain ⟨hi, hm⟩ := List.pairwise_cons.mp h
    have hnone : m.filter (i == ·.1) = [] :=
      List.filter_eq_nil_iff.mpr fun e he => by simp [hi e he]
    have hall : m.filter (fun e => !(i == e.1)) = m :=
      List.filter_eq_self.mpr fun e he => by simp [hi e he]
    show setKeys m (setKey i w ((i, w) :: m)) = _
    rw [setKey, if_pos ReflBEq.rfl, setKeys_cons, hnone, hall, ih hm]
    rfl

/-- **Keys that are set twice.** -/
@[simp] theorem setKeys_again (es m : List (κ × α)) : setKeys es (setKeys es m) = setKeys es m := by
  have hself : setKeys es (setKeys es []) = setKeys es [] := by
    rw [← setKeys_setKeys es (setKeys es []), setKeys_self (keysApart_setKeys es)]
  rw [← setKeys_append, ← setKeys_setKeys (es ++ es), setKeys_append, hself, setKeys_setKeys]

end

end Schemata
