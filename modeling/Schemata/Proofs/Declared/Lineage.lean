import Schemata.Declared.Inheritance
import Schemata.Proofs.Descriptor.Reading

/-!
# Which classes are above a class?

The lineages of the bases of a class are merged into one order, and merging keeps the order of each
of them.  Where at most one base is a declared class, there is not much to merge: every declared
class above the class is that base or above it, and so they come in the order in which they come
above the base (`indices_linearize_of_single`).  The builtin classes may stand anywhere between
them; the roots of the hierarchies that a class belongs to are always among these.

What carries the proof is that the lineages which are still to be merged agree about the declared
classes (`Program.Agree`): one has all of them, and any other one only the first of these.  Whatever
is taken next, a declared class or not, leaves lineages that agree about the rest.
-/

namespace Schemata

/-! ## Declared classes among others -/

/-- The place of a declared class among the classes. -/
def Token.index? : Token → Option Nat
  | .declared i => some i
  | _ => .none

/-- The places of the declared classes among some types. -/
def Token.indices (ts : List Token) : List Nat :=
  ts.filterMap Token.index?

namespace Token

variable {t u : Token} {ts : List Token} {i : Nat}

@[simp] theorem index?_eq_some : t.index? = some i ↔ t = .declared i := by
  cases t with
  | declared j => exact ⟨fun h => by cases h; rfl, fun h => by cases h; rfl⟩
  | _ => exact ⟨nofun, nofun⟩

@[simp] theorem indices_cons_declared : indices (.declared i :: ts) = i :: indices ts := rfl

theorem indices_cons_of_none (h : t.index? = .none) : indices (t :: ts) = indices ts :=
  List.filterMap_cons_none h

@[simp] theorem mem_indices : i ∈ indices ts ↔ .declared i ∈ ts := by
  unfold indices
  rw [List.mem_filterMap]
  exact ⟨fun ⟨t, ht, hi⟩ => index?_eq_some.mp hi ▸ ht, fun h => ⟨_, h, rfl⟩⟩

/-- What is the same as a class that is not declared is none either. -/
theorem index?_of_same (h : t.same u = true) (ht : t.isDeclaration = true) :
    u.index? = t.index? := by
  rw [eq_of_same ht h]

end Token

open Token (indices)

namespace Program

variable {p : Program} {t next : Token} {ts bases out : List Token} {l : List Token}
  {ls : List (List Token)} {is : List Nat} {i j : Nat} {c : Class}

theorem classesAmong_eq (p : Program) (ts : List Token) :
    p.classesAmong ts = (indices ts).filterMap fun i => p.classes[i]? := by
  unfold classesAmong indices
  rw [List.filterMap_filterMap]
  refine List.filterMap_congr fun t _ => ?_
  cases t <;> rfl

/-! ## Merging -/

/-- A lineage without a class that it may start with. -/
def dropHead (t : Token) (l : List Token) : List Token :=
  if l.head?.any t.same then l.tail else l

theorem dropHead_of_same {u : Token} (h : t.same u = true) : dropHead t (u :: l) = l :=
  if_pos h

theorem dropHead_of_not_same {u : Token} (h : ¬ t.same u = true) : dropHead t (u :: l) = u :: l :=
  if_neg h

theorem mem_of_mem_dropHead {u : Token} (h : u ∈ dropHead t l) : u ∈ l := by
  unfold dropHead at h
  split at h
  · exact List.mem_of_mem_tail h
  · exact h

theorem length_dropHead_le (t : Token) (l : List Token) : (dropHead t l).length ≤ l.length := by
  unfold dropHead
  split
  · simp
  · exact Nat.le_refl _

theorem withoutHead_eq (t : Token) (ls : List (List Token)) :
    withoutHead t ls = ls.map (dropHead t) := by
  unfold withoutHead
  refine List.map_congr_left fun l _ => ?_
  cases l with
  | nil => rfl
  | cons h l => rfl

/-- All types in some lineages are declarations. -/
def AllDeclarations (ls : List (List Token)) : Prop :=
  ∀ l ∈ ls, ∀ t ∈ l, t.isDeclaration = true

theorem AllDeclarations.withoutHead (h : AllDeclarations ls) :
    AllDeclarations (withoutHead t ls) := by
  rw [withoutHead_eq]
  intro l hl u hu
  obtain ⟨l, hmem, rfl⟩ := List.mem_map.mp hl
  exact h l hmem u (mem_of_mem_dropHead hu)

/-- What is taken next heads one of the lineages. -/
theorem exists_head_of_find? {q : Token → Bool}
    (h : (ls.filterMap List.head?).find? q = some next) :
    ∃ l ∈ ls, l.head? = some next :=
  List.mem_filterMap.mp (List.mem_of_find?_eq_some h)

/-- What is taken next is in no tail. -/
theorem not_mem_tail_of_find? (hall : AllDeclarations ls)
    (h : (ls.filterMap List.head?).find? (fun t => !isBelow t ls) = some next) (hl : l ∈ ls) :
    next ∉ l.tail := by
  intro hmem
  have hbelow : isBelow next ls = true :=
    List.any_eq_true.mpr ⟨l, hl, List.any_eq_true.mpr ⟨next, hmem,
      Token.same_of_isDeclaration (hall l hl next (List.mem_of_mem_tail hmem))⟩⟩
  have hnot := List.find?_some h
  rw [hbelow] at hnot
  cases hnot

theorem length_withoutHead_le (t : Token) (ls : List (List Token)) :
    (withoutHead t ls).flatten.length ≤ ls.flatten.length := by
  rw [withoutHead_eq]
  induction ls with
  | nil => exact Nat.le_refl _
  | cons l ls ih =>
    have hle := length_dropHead_le t l
    simp only [List.map_cons, List.flatten_cons, List.length_append]
    omega

/-- Taking the head off a lineage makes all of them together shorter. -/
theorem length_withoutHead_lt (hl : l ∈ ls) (hhead : l.head? = some t)
    (hsame : t.same t = true) : (withoutHead t ls).flatten.length < ls.flatten.length := by
  obtain ⟨rest, rfl⟩ := List.head?_eq_some_iff.mp hhead
  obtain ⟨before, behind, rfl⟩ := List.append_of_mem hl
  have hbefore := length_withoutHead_le t before
  have hbehind := length_withoutHead_le t behind
  rw [withoutHead_eq] at hbefore hbehind ⊢
  simp only [List.map_append, List.map_cons, dropHead_of_same hsame, List.flatten_append,
    List.flatten_cons, List.length_append, List.length_cons]
  omega

/-- **What one round of merging does.**  No lineage has a class left, or one that heads a lineage
and comes after no other is taken. -/
theorem mergeLineages_succ_eq_ok {fuel : Nat} (h : mergeLineages (fuel + 1) ls = .ok out) :
    (out = [] ∧ ∀ l ∈ ls, l = []) ∨ ∃ next rest, out = next :: rest ∧
      (ls.filterMap List.head?).find? (fun t => !isBelow t ls) = some next ∧
      mergeLineages fuel (withoutHead next ls) = .ok rest := by
  unfold mergeLineages at h
  dsimp only at h
  split at h
  next hempty =>
    cases h
    refine .inl ⟨rfl, fun l hl => ?_⟩
    have hhead := List.filterMap_eq_nil_iff.mp (List.isEmpty_iff.mp hempty) l hl
    exact List.head?_eq_none_iff.mp hhead
  next =>
    split at h
    next => cases h
    next next hfind =>
      cases hrest : mergeLineages fuel (withoutHead next ls) with
      | error heads =>
        rw [hrest] at h
        cases h
      | ok rest =>
        rw [hrest] at h
        cases h
        exact .inr ⟨next, rest, rfl, hfind, hrest⟩

/-- **Lineages that agree about the declared classes**: one has all of them, and every other one no
more than the first few. -/
structure Agree (is : List Nat) (ls : List (List Token)) : Prop where
  whole : ∃ l ∈ ls, indices l = is
  start : ∀ l ∈ ls, indices l <+: is

/-- A class that is not declared is taken. -/
theorem Agree.withoutHead_of_none (h : Agree is ls) (hnext : next.isDeclaration = true)
    (hnone : next.index? = none) : Agree is (withoutHead next ls) := by
  have hindices (l : List Token) : indices (dropHead next l) = indices l := by
    cases l with
    | nil => rfl
    | cons u l =>
      by_cases hsame : next.same u = true
      · have hu : u.index? = none := (Token.index?_of_same hsame hnext).trans hnone
        rw [dropHead_of_same hsame, Token.indices_cons_of_none hu]
      · rw [dropHead_of_not_same hsame]
  rw [withoutHead_eq]
  constructor
  · obtain ⟨l, hl, his⟩ := h.whole
    exact ⟨_, List.mem_map_of_mem hl, (hindices l).trans his⟩
  · intro l hl
    obtain ⟨l, hmem, rfl⟩ := List.mem_map.mp hl
    rw [hindices]
    exact h.start l hmem

/-- A lineage either starts with the first class that all agree about, or it has no declared class
left. -/
theorem Agree.indices_dropHead (h : Agree (i :: is) ls) (hl : l ∈ ls)
    (htail : .declared i ∉ l.tail) :
    indices l = i :: indices (dropHead (.declared i) l) ∨
      indices l = [] ∧ dropHead (.declared i) l = l := by
  cases l with
  | nil => exact .inr ⟨rfl, rfl⟩
  | cons u l =>
    by_cases hsame : (Token.declared i).same u = true
    · left
      rw [dropHead_of_same hsame, ← Token.eq_of_same (t := .declared i) rfl hsame]
      rfl
    refine .inr ⟨?_, dropHead_of_not_same hsame⟩
    obtain ⟨more, hmore⟩ := h.start _ hl
    cases hus : indices (u :: l) with
    | nil => rfl
    | cons k ks =>
      rw [hus] at hmore
      obtain rfl : k = i := (List.cons.inj hmore).1
      have hmem : .declared k ∈ u :: l := Token.mem_indices.mp (hus ▸ List.mem_cons_self)
      rcases List.mem_cons.mp hmem with rfl | hmem
      · exact absurd (Token.same_of_isDeclaration rfl) hsame
      · exact absurd hmem htail

/-- A declared class is taken: it is the first of those that the lineages agree about. -/
theorem Agree.withoutHead_of_declared (h : Agree (i :: is) ls)
    (htail : ∀ l ∈ ls, .declared i ∉ l.tail) : Agree is (withoutHead (.declared i) ls) := by
  rw [withoutHead_eq]
  constructor
  · obtain ⟨l, hl, his⟩ := h.whole
    refine ⟨_, List.mem_map_of_mem hl, ?_⟩
    rcases h.indices_dropHead hl (htail l hl) with hcons | ⟨hnil, -⟩
    · exact (List.cons.inj (hcons.symm.trans his)).2
    · cases hnil.symm.trans his
  · intro l hl
    obtain ⟨l, hmem, rfl⟩ := List.mem_map.mp hl
    rcases h.indices_dropHead hmem (htail l hmem) with hcons | ⟨hnil, hsame⟩
    · have hstart := h.start l hmem
      rw [hcons, List.cons_prefix_cons] at hstart
      exact hstart.2
    · simp [hsame, hnil]

/-- Lineages without classes agree that there are none. -/
theorem Agree.eq_nil (h : Agree is ls) (hnone : ∀ l ∈ ls, l = []) : is = [] := by
  obtain ⟨l, hl, rfl⟩ := h.whole
  rw [hnone l hl]
  rfl

/-- **Merging keeps the order of the declared classes** that the lineages agree about. -/
theorem indices_of_mergeLineages {fuel : Nat} (h : Agree is ls) (hall : AllDeclarations ls)
    (hfuel : ls.flatten.length ≤ fuel) (hmerge : mergeLineages fuel ls = .ok out) :
    indices out = is := by
  induction fuel generalizing is ls out with
  | zero =>
    cases hmerge
    refine (h.eq_nil fun l hl => ?_).symm
    exact List.flatten_eq_nil_iff.mp (List.length_eq_zero_iff.mp (Nat.le_zero.mp hfuel)) l hl
  | succ fuel ih =>
    rcases mergeLineages_succ_eq_ok hmerge with ⟨rfl, hnone⟩ | ⟨next, rest, rfl, hfind, hrest⟩
    · exact (h.eq_nil hnone).symm
    obtain ⟨l, hl, hhead⟩ := exists_head_of_find? hfind
    have hnext : next.isDeclaration = true := hall l hl next (List.mem_of_mem_head? hhead)
    have hshort := length_withoutHead_lt hl hhead (Token.same_of_isDeclaration hnext)
    cases hindex : next.index? with
    | none =>
      rw [Token.indices_cons_of_none hindex]
      exact ih (h.withoutHead_of_none hnext hindex) hall.withoutHead (by omega) hrest
    | some i =>
      obtain rfl := Token.index?_eq_some.mp hindex
      -- the class is the first of those that the lineages agree about
      obtain ⟨behind, rfl⟩ := List.head?_eq_some_iff.mp hhead
      obtain ⟨more, rfl⟩ := h.start _ hl
      rw [Token.indices_cons_declared, Token.indices_cons_declared]
      refine congrArg (i :: ·) (ih (h.withoutHead_of_declared fun l hl => ?_)
        hall.withoutHead (by omega) hrest)
      exact not_mem_tail_of_find? hall hfind hl

/-- Merging brings in nothing new. -/
theorem mem_of_mergeLineages {fuel : Nat} (hmerge : mergeLineages fuel ls = .ok out)
    (ht : t ∈ out) : ∃ l ∈ ls, t ∈ l := by
  induction fuel generalizing ls out with
  | zero =>
    cases hmerge
    cases ht
  | succ fuel ih =>
    rcases mergeLineages_succ_eq_ok hmerge with ⟨rfl, -⟩ | ⟨next, rest, rfl, hfind, hrest⟩
    · cases ht
    rcases List.mem_cons.mp ht with rfl | ht
    · obtain ⟨l, hl, hhead⟩ := exists_head_of_find? hfind
      exact ⟨l, hl, List.mem_of_mem_head? hhead⟩
    · obtain ⟨l, hl, htl⟩ := ih hrest ht
      rw [withoutHead_eq] at hl
      obtain ⟨l, hmem, rfl⟩ := List.mem_map.mp hl
      exact ⟨l, hmem, mem_of_mem_dropHead htl⟩

/-! ## The classes above a class -/

theorem lineage_declared (hc : p.classes[i]? = some c) :
    p.lineage (.declared i) = .declared i :: c.ancestry := by
  unfold lineage
  dsimp only
  rw [hc]

/-- There is no declared class above a builtin one. -/
theorem indices_lineage_of_none (hnone : t.index? = none) : indices (p.lineage t) = [] := by
  refine List.eq_nil_iff_forall_not_mem.mpr fun i hi => ?_
  have hmem := Token.mem_indices.mp hi
  cases t with
  | builtin b =>
    obtain ⟨_, -, hb⟩ := List.mem_map.mp hmem
    cases hb
  | declared j => cases hnone
  | _ => cases hmem

/-- The lineages that are merged for a class. -/
theorem exists_merge_of_linearize (h : p.linearize bases = .ok out) :
    mergeLineages (bases.map p.lineage ++ [bases]).flatten.length
      (bases.map p.lineage ++ [bases]) = .ok out := by
  unfold linearize at h
  dsimp only at h
  split at h
  · cases h
  split at h
  next hmerge =>
    cases h
    exact hmerge
  next => cases h

/-- What is above a class is one of its bases or above one of them. -/
theorem mem_of_linearize (h : p.linearize bases = .ok out) (ht : t ∈ out) :
    t ∈ bases ∨ ∃ b ∈ bases, t ∈ p.lineage b := by
  obtain ⟨l, hl, htl⟩ := mem_of_mergeLineages (exists_merge_of_linearize h) ht
  rcases List.mem_append.mp hl with hl | hl
  · obtain ⟨b, hb, rfl⟩ := List.mem_map.mp hl
    exact .inr ⟨b, hb, htl⟩
  · exact .inl (List.mem_singleton.mp hl ▸ htl)

section

variable (hbases : ∀ t ∈ bases, t.isDeclaration = true ∧ ∀ u ∈ p.lineage t, u.isDeclaration = true)
include hbases

theorem allDeclarations_lineages : AllDeclarations (bases.map p.lineage ++ [bases]) := by
  intro l hl t ht
  rcases List.mem_append.mp hl with hl | hl
  · obtain ⟨b, hb, rfl⟩ := List.mem_map.mp hl
    exact (hbases b hb).2 t ht
  · exact (hbases t (List.mem_singleton.mp hl ▸ ht)).1

/-- **A class without a declared base** has no declared class above it. -/
theorem indices_linearize_of_none (hnone : indices bases = []) (h : p.linearize bases = .ok out) :
    indices out = [] := by
  refine indices_of_mergeLineages ⟨⟨bases, by simp, hnone⟩, fun l hl => ?_⟩
    (allDeclarations_lineages hbases) (Nat.le_refl _) (exists_merge_of_linearize h)
  rcases List.mem_append.mp hl with hl | hl
  · obtain ⟨b, hb, rfl⟩ := List.mem_map.mp hl
    simp [indices_lineage_of_none (List.filterMap_eq_nil_iff.mp hnone b hb)]
  · simp [List.mem_singleton.mp hl, hnone]

/-- **A class with one declared base** has that class above it, and the classes above that. -/
theorem indices_linearize_of_single (hj : indices bases = [j]) (hc : p.classes[j]? = some c)
    (h : p.linearize bases = .ok out) : indices out = j :: indices c.ancestry := by
  have hlineage : indices (p.lineage (.declared j)) = j :: indices c.ancestry := by
    rw [lineage_declared hc, Token.indices_cons_declared]
  have hbase : .declared j ∈ bases := Token.mem_indices.mp (hj ▸ List.mem_singleton_self j)
  refine indices_of_mergeLineages ⟨⟨_, ?_, hlineage⟩, fun l hl => ?_⟩
    (allDeclarations_lineages hbases) (Nat.le_refl _) (exists_merge_of_linearize h)
  · exact List.mem_append_left _ (List.mem_map_of_mem hbase)
  rcases List.mem_append.mp hl with hl | hl
  · obtain ⟨b, hb, rfl⟩ := List.mem_map.mp hl
    cases hindex : b.index? with
    | none =>
      simp [indices_lineage_of_none hindex]
    | some k =>
      obtain rfl := Token.index?_eq_some.mp hindex
      have hk : k ∈ indices bases := Token.mem_indices.mpr hb
      rw [hj, List.mem_singleton] at hk
      simp [hk, hlineage]
  · rw [List.mem_singleton.mp hl, hj]
    exact List.cons_prefix_cons.mpr ⟨rfl, List.nil_prefix⟩

end

end Program

end Schemata
