import Schemata.Proofs.Annotation.Layer
import Schemata.Proofs.Value.Mapping
import Mathlib.Data.List.ReduceOption
import Mathlib.Tactic.FinCases

/-!
# What many records amount to

The layers of a list of records are laid over one another, in order.  What comes out can be said
without going through them one by one: every constraint is read off all layers at once, by one of
five rules, and `summary` writes the rules down.

* Of texts, numbers, counts, types, settings and payloads, **the last that is given** stands.
* A flag is raised if **some layer** raises it.
* Choices and required names are **all that are given, without what is equal to an earlier one**.
* Vendor data has, at each key, **the last value** given for it.

`merge_eq_summary` says that merging is this, whenever all records can be read and all choices be
compared.  Since the rules know of layers only, a record without a layer has no effect.  Since each
of them can be applied to the front and to the back of the list first, merging is laying what the
back amounts to over what the front amounts to.  The third rule asks for more than the others here:
an equal of an equal has to be equal, or else a value that is dropped on account of its neighbour
would not be dropped on account of what the neighbour is dropped for.
-/

namespace Schemata

/-! ## Values without repeats -/

section

variable {α : Type} {r : α → α → Bool} {pool target vs ws : List α} {v : α}

/-- Put values behind others, except those that are equal to one that is there. -/
def collect (r : α → α → Bool) (target vs : List α) : List α :=
  vs.foldl (fun acc v => if acc.any (r v) then acc else acc ++ [v]) target

theorem collect_cons : collect r target (v :: vs) =
    collect r (if target.any (r v) then target else target ++ [v]) vs :=
  rfl

@[simp] theorem collect_append : collect r target (vs ++ ws) = collect r (collect r target vs) ws :=
  List.foldl_append

theorem eraseDupsBy_loop_eq_collect (target vs : List α) :
    List.eraseDupsBy.loop r vs target.reverse = collect r target vs := by
  induction vs generalizing target with
  | nil => exact List.reverse_reverse target
  | cons v vs ih =>
    rw [List.eraseDupsBy.loop, List.any_reverse, collect_cons]
    cases target.any (r v) with
    | true => exact ih target
    | false =>
      rw [if_neg Bool.false_ne_true, ← ih, List.reverse_append]
      rfl

/-- Leaving out what is equal to an earlier value is putting all behind nothing. -/
theorem eraseDupsBy_eq_collect : vs.eraseDupsBy r = collect r [] vs :=
  eraseDupsBy_loop_eq_collect [] vs

/-- What is there stays there. -/
theorem subset_collect : target ⊆ collect r target vs := by
  induction vs generalizing target with
  | nil => exact fun _ => id
  | cons w vs ih =>
    rw [collect_cons]
    refine List.Subset.trans ?_ ih
    split
    · exact fun _ => id
    · exact List.subset_append_left _ _

theorem collect_subset : collect r target vs ⊆ target ++ vs := by
  induction vs generalizing target with
  | nil => simp [collect]
  | cons w vs ih =>
    rw [collect_cons]
    refine List.Subset.trans ih ?_
    split
    · simp
    · simp

/-- What is put behind others is unlike all of them. -/
theorem pairwise_collect (h : target.Pairwise fun u v => r v u = false) (vs : List α) :
    (collect r target vs).Pairwise fun u v => r v u = false := by
  induction vs generalizing target with
  | nil => exact h
  | cons v vs ih =>
    rw [collect_cons]
    refine ih ?_
    split
    next => exact h
    next hany =>
      refine List.pairwise_append.mpr ⟨h, List.pairwise_singleton _ _, fun u hu w hw => ?_⟩
      rw [List.mem_singleton.mp hw]
      exact Bool.eq_false_iff.mpr fun hr => hany (List.any_eq_true.mpr ⟨u, hu, hr⟩)

/-- Values are put behind others, and these stay as they are. -/
theorem exists_collect_eq_append (target vs : List α) :
    ∃ new, collect r target vs = target ++ new ∧ new ⊆ vs := by
  induction vs generalizing target with
  | nil => exact ⟨[], (List.append_nil _).symm, List.Subset.refl _⟩
  | cons v vs ih =>
    rw [collect_cons]
    split
    · obtain ⟨new, hnew, hsub⟩ := ih target
      exact ⟨new, hnew, List.subset_cons_of_subset v hsub⟩
    · obtain ⟨new, hnew, hsub⟩ := ih (target ++ [v])
      refine ⟨v :: new, ?_, List.cons_subset_cons v hsub⟩
      rw [hnew, List.append_assoc]
      rfl

/-- Values that are unlike one another are all put behind others that they are unlike. -/
theorem collect_eq_append (h : (target ++ vs).Pairwise fun u v => r v u = false) :
    collect r target vs = target ++ vs := by
  induction vs generalizing target with
  | nil => exact (List.append_nil _).symm
  | cons v vs ih =>
    have hany : ¬ target.any (r v) = true := by
      rw [List.any_eq_true]
      rintro ⟨u, hu, hr⟩
      have hne := (List.pairwise_append.mp h).2.2 u hu v List.mem_cons_self
      cases hne.symm.trans hr
    rw [List.append_cons] at h
    rw [collect_cons, if_neg hany, ih h, List.append_assoc]
    rfl

/-- A value that has been put there, or an equal of it. -/
theorem exists_of_mem_collect (target : List α) (h : v ∈ vs) :
    ∃ w ∈ collect r target vs, w = v ∨ r v w = true := by
  induction vs generalizing target with
  | nil => cases h
  | cons u vs ih =>
    rw [collect_cons]
    rcases List.mem_cons.mp h with rfl | h
    · split
      next hany =>
        obtain ⟨w, hw, hr⟩ := List.any_eq_true.mp hany
        exact ⟨w, subset_collect hw, .inr hr⟩
      next => exact ⟨v, subset_collect (List.mem_append_right _ List.mem_cons_self), .inl rfl⟩
    · exact ih _ h

/-- Nothing is put behind values that have an equal of everything that is given. -/
theorem collect_eq_self (h : ∀ v ∈ vs, target.any (r v) = true) : collect r target vs = target := by
  induction vs with
  | nil => rfl
  | cons v vs ih =>
    obtain ⟨hv, hvs⟩ := List.forall_mem_cons.mp h
    rw [collect_cons, if_pos hv]
    exact ih hvs

/-- **Values that are put behind others twice.** -/
theorem collect_again (hrefl : ∀ v ∈ vs, r v v = true) :
    collect r (collect r target vs) vs = collect r target vs := by
  refine collect_eq_self fun v hv => ?_
  obtain ⟨w, hw, heq⟩ := exists_of_mem_collect (r := r) target hv
  refine List.any_eq_true.mpr ⟨w, hw, ?_⟩
  rcases heq with rfl | heq
  · exact hrefl w hv
  · exact heq

/-- **Values put behind others after they have been put behind one another.** -/
theorem collect_collect (htrans : ∀ u ∈ pool, ∀ v ∈ pool, ∀ w ∈ pool,
      r u v = true → r v w = true → r u w = true)
    (htarget : target ⊆ pool) (hvs : vs ⊆ pool) (hws : ws ⊆ pool) :
    collect r target (collect r vs ws) = collect r (collect r target vs) ws := by
  induction ws generalizing vs with
  | nil => rfl
  | cons w ws ih =>
    obtain ⟨hw, hws⟩ := List.cons_subset.mp hws
    rw [collect_cons, collect_cons]
    cases hany : vs.any (r w) with
    | false =>
      rw [if_neg Bool.false_ne_true, ih (List.append_subset.mpr ⟨hvs, by simpa using hw⟩) hws,
        collect_append]
      rfl
    | true =>
      rw [if_pos rfl, ih hvs hws]
      -- what the value is equal to has been put there, or an equal of it
      obtain ⟨v, hv, hwv⟩ := List.any_eq_true.mp hany
      obtain ⟨u, hu, huv⟩ := exists_of_mem_collect (r := r) target hv
      have hpool : u ∈ pool :=
        List.append_subset.mpr ⟨htarget, hvs⟩ (collect_subset hu)
      have hwu : r w u = true := by
        rcases huv with rfl | hvu
        · exact hwv
        · exact htrans w hw v (hvs hv) u hpool hwv hvu
      rw [if_pos (List.any_eq_true.mpr ⟨u, hu, hwu⟩)]

end

/-! ## Comparing choices -/

namespace Value

/-- Two values count as equal inside a collection. -/
def alike (v w : Value) : Bool :=
  match v.matchesElement w with
  | .ok b => b
  | .error _ => false

/-- **Values that can be compared**: no comparison fails, and an equal of an equal is equal. -/
structure Comparable (vs : List Value) : Prop where
  decides : ∀ v ∈ vs, ∀ w ∈ vs, ∃ b, v.matchesElement w = .ok b
  trans : ∀ u ∈ vs, ∀ v ∈ vs, ∀ w ∈ vs, u.alike v = true → v.alike w = true → u.alike w = true

variable {v : Value} {vs ws : List Value}

theorem Comparable.subset (h : Comparable ws) (hvs : vs ⊆ ws) : Comparable vs where
  decides v hv w hw := h.decides v (hvs hv) w (hvs hw)
  trans u hu v hv w hw := h.trans u (hvs hu) v (hvs hv) w (hvs hw)

theorem isAmong_eq_any (h : ∀ w ∈ vs, ∃ b, v.matchesElement w = .ok b) :
    v.isAmong vs = .ok (vs.any v.alike) := by
  unfold isAmong
  induction vs with
  | nil => rfl
  | cons w vs ih =>
    obtain ⟨⟨b, hb⟩, hvs⟩ := List.forall_mem_cons.mp h
    have halike : v.alike w = b := by rw [alike, hb]
    rw [anyOf, hb, List.any_cons, halike]
    cases b with
    | true => rfl
    | false => exact ih hvs

end Value

namespace Constraints

theorem appendUnique_eq_collect {target vs : List Value} (h : Value.Comparable (target ++ vs)) :
    appendUnique target vs = .ok (collect Value.alike target vs) := by
  induction vs generalizing target with
  | nil => rfl
  | cons v vs ih =>
    have hmem : v ∈ target ++ v :: vs := by simp
    rw [appendUnique, collect_cons,
      Value.isAmong_eq_any fun w hw => h.decides v hmem w (List.mem_append_left _ hw)]
    show (if target.any v.alike then appendUnique target vs
      else appendUnique (target ++ [v]) vs) = _
    split
    · exact ih (h.subset (by simp))
    · exact ih (h.subset (by simp))

theorem appendNames_eq_collect (target names : List Wording) :
    appendNames target names = collect (· == ·) target names := by
  unfold appendNames collect
  simp only [List.contains_eq_any_beq]

/-- Names are equal if they are plainly the same. -/
instance {α : Type} [BEq α] [EquivBEq α] : EquivBEq (Carried α) where
  symm := PartialEquivBEq.symm (α := α)
  trans := PartialEquivBEq.trans (α := α)
  rfl := ReflBEq.rfl (α := α)

/-! ## The five rules -/

variable {α : Type}

/-- The last of what layers give. -/
def last (f : Constraints → Option α) (layers : List Constraints) : Option α :=
  (layers.filterMap f).getLast?

/-- The last text that layers give and that is not blank. -/
def lastText (f : Constraints → Option Wording) (layers : List Constraints) : Option Wording :=
  ((layers.filterMap f).filter fun s => !Text.isBlankText s.plain).getLast?

/-- The last list that layers give and that is not empty. -/
def lastList (f : Constraints → List α) (layers : List Constraints) : List α :=
  (((layers.map f).filter fun vs => !vs.isEmpty).getLast?).getD []

/-- Of what layers give, each value once. -/
def unrepeated (r : α → α → Bool) (f : Constraints → List α) (layers : List Constraints) :
    List α :=
  (layers.flatMap f).eraseDupsBy r

/-- Of the entries that layers give, the last for each key. -/
def latest (f : Constraints → List (Wording × Value)) (layers : List Constraints) :
    List (Wording × Value) :=
  setKeys (layers.flatMap f) []

/-- **What layers amount to.** -/
def summary (layers : List Constraints) : Constraints where
  title := lastText title layers
  description := lastText description layers
  format := lastText format layers
  type := last type layers
  minimum := last minimum layers
  maximum := last maximum layers
  exclusiveMinimum := layers.any exclusiveMinimum
  exclusiveMaximum := layers.any exclusiveMaximum
  multipleOf := last multipleOf layers
  minLength := last minLength layers
  maxLength := last maxLength layers
  pattern := lastText pattern layers
  minItems := last minItems layers
  maxItems := last maxItems layers
  uniqueItems := layers.any uniqueItems
  minProperties := last minProperties layers
  maxProperties := last maxProperties layers
  nullable := layers.any nullable
  readOnly := layers.any readOnly
  writeOnly := layers.any writeOnly
  deprecated := layers.any deprecated
  array := layers.any array
  notEmpty := layers.any notEmpty
  requiredProperty := layers.any requiredProperty
  additionalAllowed := last additionalAllowed layers
  unevaluatedProperties := last unevaluatedProperties layers
  default := last default layers
  sample := last sample layers
  samples := lastList samples layers
  choices := unrepeated Value.alike choices layers
  required := unrepeated (· == ·) required layers
  extensions := latest extensions layers

variable {xs ys layers : List Constraints} {c layer : Constraints}

@[simp] theorem last_append (f : Constraints → Option α) :
    last f (xs ++ ys) = (last f ys <|> last f xs) := by
  rw [last, List.filterMap_append, List.getLast?_append, Option.orElse_eq_orElse,
    Option.orElse_eq_or]
  rfl

@[simp] theorem last_singleton (f : Constraints → Option α) : last f [layer] = f layer := by
  unfold last
  cases h : f layer <;> simp [h]

/-- A text that is not blank is not empty. -/
theorem upperText_of_notBlank {s : Wording} (h : Text.isBlankText s.plain = false)
    (lower : Option Wording) : upperText (some s) lower = some s := by
  have hne : s.plain.isEmpty = false := by
    rw [Bool.eq_false_iff]
    intro he
    rw [String.isEmpty_iff.mp he] at h
    cases h
  rw [upperText, hne]
  rfl

@[simp] theorem lastText_append (f : Constraints → Option Wording) :
    lastText f (xs ++ ys) = upperText (lastText f ys) (lastText f xs) := by
  unfold lastText
  rw [List.filterMap_append, List.filter_append, List.getLast?_append]
  cases h : ((ys.filterMap f).filter fun s => !Text.isBlankText s.plain).getLast? with
  | none => rfl
  | some s =>
    have hs := List.mem_filter.mp (List.mem_of_getLast? h)
    rw [upperText_of_notBlank (by simpa using hs.2)]
    rfl

theorem lastText_singleton {f : Constraints → Option Wording}
    (h : ∀ s ∈ f layer, Text.isBlankText s.plain = false) : lastText f [layer] = f layer := by
  unfold lastText
  cases hf : f layer with
  | none => simp [hf]
  | some s => simp [hf, h s hf]

@[simp] theorem lastList_append (f : Constraints → List α) :
    lastList f (xs ++ ys) = upperList (lastList f ys) (lastList f xs) := by
  unfold lastList
  rw [List.map_append, List.filter_append, List.getLast?_append]
  cases h : ((ys.map f).filter fun vs => !vs.isEmpty).getLast? with
  | none => rfl
  | some vs =>
    have hvs := (List.mem_filter.mp (List.mem_of_getLast? h)).2
    rw [Bool.not_eq_true'] at hvs
    simp [upperList, hvs]

@[simp] theorem lastList_singleton (f : Constraints → List α) : lastList f [layer] = f layer := by
  unfold lastList
  cases h : f layer <;> simp [h]

theorem unrepeated_append_singleton (r : α → α → Bool) (f : Constraints → List α) :
    unrepeated r f (xs ++ [layer]) = collect r (unrepeated r f xs) (f layer) := by
  unfold unrepeated
  rw [eraseDupsBy_eq_collect, eraseDupsBy_eq_collect, List.flatMap_append, collect_append,
    List.flatMap_singleton]

theorem unrepeated_append {r : α → α → Bool} {f : Constraints → List α}
    (htrans : ∀ u ∈ (xs ++ ys).flatMap f, ∀ v ∈ (xs ++ ys).flatMap f, ∀ w ∈ (xs ++ ys).flatMap f,
      r u v = true → r v w = true → r u w = true) :
    unrepeated r f (xs ++ ys) = collect r (unrepeated r f xs) (unrepeated r f ys) := by
  rw [List.flatMap_append] at htrans
  unfold unrepeated
  rw [eraseDupsBy_eq_collect, eraseDupsBy_eq_collect, eraseDupsBy_eq_collect,
    List.flatMap_append, collect_append, collect_collect htrans _ (List.nil_subset _) _]
  · rfl
  · exact List.Subset.trans collect_subset (by simp)
  · exact List.subset_append_right _ _

theorem latest_append_singleton (f : Constraints → List (Wording × Value)) :
    latest f (xs ++ [layer]) = setKeys (f layer) (latest f xs) := by
  unfold latest
  rw [List.flatMap_append, setKeys_append, List.flatMap_singleton]

theorem latest_append (f : Constraints → List (Wording × Value)) :
    latest f (xs ++ ys) = setKeys (latest f ys) (latest f xs) := by
  unfold latest
  rw [List.flatMap_append, setKeys_append, setKeys_setKeys]

/-! ## Laying layers over one another -/

theorem choices_summary_subset (layers : List Constraints) :
    (summary layers).choices ⊆ layers.flatMap choices := by
  unfold summary unrepeated
  rw [eraseDupsBy_eq_collect]
  exact List.Subset.trans collect_subset (by simp)

/-- Choices of some layers can be compared with what the layers before them amount to. -/
theorem comparable_choices (h : Value.Comparable ((xs ++ ys).flatMap choices)) {vs : List Value}
    (hvs : vs ⊆ ys.flatMap choices) : Value.Comparable ((summary xs).choices ++ vs) := by
  refine h.subset ?_
  rw [List.flatMap_append]
  exact List.append_subset.mpr
    ⟨List.subset_append_of_subset_left _ (choices_summary_subset xs),
      List.subset_append_of_subset_right _ hvs⟩

/-- Laying one more layer over what some amount to. -/
theorem fold_layer (hnormal : layer.Normal)
    (h : Value.Comparable ((xs ++ [layer]).flatMap choices)) :
    (summary xs).fold layer = .ok (summary (xs ++ [layer])) := by
  have hchoices : Value.Comparable ((summary xs).choices ++ layer.choices) := by
    refine comparable_choices h ?_
    rw [List.flatMap_singleton]
    exact List.Subset.refl _
  have htexts := hnormal.texts
  simp only [texts, List.forall_mem_cons] at htexts
  obtain ⟨htitle, hdescription, hformat, hpattern, -⟩ := htexts
  rw [fold, appendUnique_eq_collect hchoices]
  refine congrArg Except.ok ?_
  simp [summary, unrepeated_append_singleton, appendNames_eq_collect, latest_append_singleton,
    lastText_singleton htitle, lastText_singleton hdescription, lastText_singleton hformat,
    lastText_singleton hpattern]

/-- **Laying what some layers amount to over what others do.** -/
theorem fold_summary (h : Value.Comparable ((xs ++ ys).flatMap choices)) :
    (summary xs).fold (summary ys) = .ok (summary (xs ++ ys)) := by
  have hchoices := comparable_choices h (choices_summary_subset ys)
  have hrequired : unrepeated (· == ·) required (xs ++ ys) =
      collect (· == ·) (unrepeated (· == ·) required xs) (unrepeated (· == ·) required ys) :=
    unrepeated_append fun _ _ _ _ _ _ => PartialEquivBEq.trans
  rw [fold, appendUnique_eq_collect hchoices]
  refine congrArg Except.ok ?_
  simp [summary, unrepeated_append h.trans, hrequired, appendNames_eq_collect, latest_append]

/-! ## Merging -/

variable {rs : List Record} {opts : List (Option Constraints)}

/-- Laying the layers of some records over what others amount to. -/
theorem mergeOnto_summary (xs : List Constraints) (hread : rs.mapM Record.layer? = .ok opts)
    (h : Value.Comparable ((xs ++ opts.reduceOption).flatMap choices)) :
    mergeOnto (summary xs) rs = .ok (summary (xs ++ opts.reduceOption)) := by
  induction rs generalizing xs opts with
  | nil =>
    cases hread
    simp [mergeOnto]
  | cons r rs ih =>
    rw [List.mapM_cons] at hread
    obtain ⟨opt, hopt, hread⟩ := exists_of_bind_eq_ok hread
    obtain ⟨opts', hopts, hread⟩ := exists_of_bind_eq_ok hread
    cases hread
    rw [mergeOnto, hopt]
    cases opt with
    | none =>
      rw [List.reduceOption_cons_of_none] at h ⊢
      exact ih _ hopts h
    | some layer =>
      rw [List.reduceOption_cons_of_some, List.append_cons] at h ⊢
      have hfold : (summary xs).fold layer = .ok (summary (xs ++ [layer])) :=
        fold_layer (Record.normal_of_layer? hopt) (h.subset (by simp))
      show ((summary xs).fold layer >>= fun c => c.mergeOnto rs) = _
      rw [hfold]
      exact ih _ hopts h

/-- What laying a layer over constraints preserves, laying those of some records over them does. -/
theorem mergeOnto_induction {P Q : Constraints → Prop} {c c' : Constraints}
    (hfold : ∀ lower upper c, P lower → Q upper → lower.fold upper = .ok c → P c)
    (hrs : ∀ r ∈ rs, ∀ layer, r.layer? = .ok (some layer) → Q layer) (hc : P c)
    (h : c.mergeOnto rs = .ok c') : P c' := by
  induction rs generalizing c with
  | nil =>
    cases h
    exact hc
  | cons r rs ih =>
    obtain ⟨hr, hrs⟩ := List.forall_mem_cons.mp hrs
    obtain ⟨layer?, hlayer, h⟩ := exists_of_bind_eq_ok h
    cases layer? with
    | none => exact ih hrs hc h
    | some layer =>
      obtain ⟨c₁, hc₁, h⟩ := exists_of_bind_eq_ok h
      exact ih hrs (hfold c layer c₁ hc (hr layer hlayer) hc₁) h

theorem merge_of_layers (hread : rs.mapM Record.layer? = .ok opts)
    (h : Value.Comparable (opts.reduceOption.flatMap choices)) :
    merge rs = .ok (summary opts.reduceOption) :=
  mergeOnto_summary [] hread h

theorem normal_of_mapM (hread : rs.mapM Record.layer? = .ok opts)
    (hlayer : layer ∈ opts.reduceOption) : layer.Normal := by
  obtain ⟨r, -, hr⟩ := exists_of_mem_mapM hread (List.reduceOption_mem_iff.mp hlayer)
  exact Record.normal_of_layer? hr

/-- A record without a topic has no effect, wherever it stands. -/
theorem mergeOnto_of_ofName?_eq_none {r : Record} (h : Topic.ofName? r.name = none)
    (c : Constraints) (before others : List Record) :
    c.mergeOnto (before ++ r :: others) = c.mergeOnto (before ++ others) := by
  induction before generalizing c with
  | nil =>
    have hlayer : r.layer? = .ok none := by rw [Record.layer?, h]
    rw [List.nil_append, List.nil_append, mergeOnto, hlayer]
    rfl
  | cons r' before ih => simp only [List.cons_append, mergeOnto, ih]

/-- **Merging reads every constraint off all layers at once.**  If some records can be read, and no
comparison among the choices of their layers fails or is other than transitive, then they merge, and
amount to the summary of their layers; the layers hold no blank text and no negative count, and at
each key the vendor data has the last value that a layer gives.  So records may be cut in two
anywhere, and what the back amounts to be laid over what the front amounts to; and records without a
topic may be dropped. -/
theorem merge_eq_summary (rs : List Record) {opts : List (Option Constraints)}
    (hread : rs.mapM Record.layer? = .ok opts)
    (h : Value.Comparable (opts.reduceOption.flatMap choices)) :
    merge rs = .ok (summary opts.reduceOption) ∧
      (∀ layer ∈ opts.reduceOption, layer.Normal) ∧
      (∀ key, getKey? key (summary opts.reduceOption).extensions =
        ((opts.reduceOption.flatMap extensions).filter (·.1 == key)).getLast?.map (·.2)) ∧
      (∀ front back, rs = front ++ back → ∃ a b, merge front = .ok a ∧ merge back = .ok b ∧
        a.fold b = merge rs) ∧
      ∀ before r others, Topic.ofName? r.name = none →
        merge (before ++ r :: others) = merge (before ++ others) := by
  refine ⟨merge_of_layers hread h, fun _ => normal_of_mapM hread,
    fun key => getKey?_setKeys_nil _, ?_, fun before r others hr =>
      mergeOnto_of_ofName?_eq_none hr {} before others⟩
  rintro front back rfl
  have hmerge := merge_of_layers hread h
  rw [List.mapM_append] at hread
  obtain ⟨opts₁, h₁, hread⟩ := exists_of_bind_eq_ok hread
  obtain ⟨opts₂, h₂, hread⟩ := exists_of_bind_eq_ok hread
  cases hread
  rw [List.reduceOption_append] at h hmerge
  refine ⟨_, _, merge_of_layers h₁ (h.subset ?_), merge_of_layers h₂ (h.subset ?_), ?_⟩
  · rw [List.flatMap_append]
    exact List.subset_append_left _ _
  · rw [List.flatMap_append]
    exact List.subset_append_right _ _
  · rw [hmerge]
    exact fold_summary h

/-- What is said of a rating: there are choices twice over and a record that means nothing, and
neither the blank title nor the negative count takes anything away. -/
def ratingRecords : List Record :=
  [.schema [("title", .text "Rating"), ("minimum", .int 1), ("minLength", .int 3),
     ("enum", .list [.int 1, .text "high"])],
   ⟨"Colour", [.text "red"], []⟩,
   .length (.int (-1)) (.int 9),
   .choices [.bool true, .int 2],
   .property [("title", .text " "), ("minimum", .int 0), ("exclusiveMinimum", .bool true)]]

theorem ratingRecords_merge_eq_summary : ∃ opts, ratingRecords.mapM Record.layer? = .ok opts ∧
    Value.Comparable (opts.reduceOption.flatMap choices) ∧
    merge ratingRecords = .ok (summary opts.reduceOption) ∧
    summary opts.reduceOption =
      { title := some "Rating", minimum := some ⟨.int 0, none⟩, exclusiveMinimum := true,
        minLength := some 3, maxLength := some 9,
        choices := [.int 1, .text "high", .int 2] } := by
  have hgroup : Topic.ofName? "Schema" = some .group := by decide +kernel
  have hproperty : Topic.ofName? "Property" = some .group := by decide +kernel
  have hcolour : Topic.ofName? "Colour" = none := by decide +kernel
  have hlength : Topic.ofName? "Length" = some .length := by decide +kernel
  have hchoices : Topic.ofName? "Choices" = some .choices := by decide +kernel
  have hread : ratingRecords.mapM Record.layer? = .ok
      [some { title := some "Rating", minimum := some ⟨.int 1, none⟩, minLength := some 3,
              choices := [.int 1, .text "high"] },
       none,
       some { maxLength := some 9 },
       some { choices := [.bool true, .int 2] },
       some { minimum := some ⟨.int 0, none⟩, exclusiveMinimum := true }] := by
    simp only [ratingRecords, Record.schema, Record.length, Record.choices, Record.property,
      List.mapM_cons, List.mapM_nil, Record.layer?, hgroup, hproperty, hcolour, hlength, hchoices]
    rfl
  have hcompare : Value.Comparable [.int 1, .text "high", .bool true, .int 2] := by
    refine ⟨fun v hv w hw => ?_, by decide +kernel⟩
    fin_cases hv <;> fin_cases hw <;> exact ⟨_, rfl⟩
  exact ⟨_, hread, hcompare, (merge_eq_summary ratingRecords hread hcompare).1, by rfl⟩

end Constraints

end Schemata
