import Mathlib.Data.Set.Card
import Schemata.Proofs.Descriptor.Reading
import Schemata.Proofs.Synthesis.Ownership

/-!
# Following bases

A type has at most one base, so that there is one way to go from base to base, and it goes on until
a type has no base, or is no object, or comes again.  `Session.FollowsBases` is a part of this way,
and `Session.ClimbsBases` one on which no descriptor comes twice.  The bases that
`Environment.baseChain` gives are the longest climb there is (`Ascends.prefix_of_climbs`).

Descriptors may be their own bases, at any distance, and what ends the walk is that it minds the
descriptors it has come by.  Two things have to be seen to.

* A type for which no reading can be kept is read again each time, so that its descriptor is always
  a new one and is never minded.  A type like this that was among its own bases would have no end
  of them; `Environment.BasesEnd` says that this is not so.
* The walk is counted, since it does not follow the structure of anything.  Tokens that name bases
  are named in the program (`base_mem_baseTokens`).  Each step takes one of those whose descriptor
  has not been minded, or else the types that cannot be kept come closer to their end.  This is the
  measure that gets smaller (`room_lt`), and the count is large enough for it
  (`ascends_of_baseChain`).
-/

namespace Schemata

/-- The same descriptor. -/
def Descriptor.same (d d' : Descriptor) : Bool :=
  d.identity.same d'.identity

/-- A type and its base, as far as a session knows. -/
def BaseOf (env : Environment) (s : Session) (d b : Descriptor) : Prop :=
  ∃ t, d.base = some t ∧ s.Settles (env.describe t) b

/-- **Bases are followed** from a type: the first is the base of the type, each other one the base
of the one before, and all but the last are objects. -/
structure Session.FollowsBases (env : Environment) (s : Session) (d : Descriptor)
    (bases : List Descriptor) : Prop where
  linked : (d :: bases).IsChain (BaseOf env s)
  objects : ∀ b ∈ bases.dropLast, b.shape = .object

/-- **Bases are climbed**: they are followed, and no descriptor comes twice, nor does the one of the
type itself. -/
structure Session.ClimbsBases (env : Environment) (s : Session) (d : Descriptor)
    (bases : List Descriptor) : Prop extends s.FollowsBases env d bases where
  distinct : (d :: bases).Pairwise fun x y => y.same x = false

/-- **The longest climb**: every climb is the beginning of it. -/
structure Session.LongestClimb (env : Environment) (s : Session) (d : Descriptor)
    (bases : List Descriptor) : Prop extends s.ClimbsBases env d bases where
  longest : ∀ path, s.ClimbsBases env d path → path <+: bases

/-- **The kind of leaf that bases lead to**: a leaf of this kind is come to by following bases, and
is not the type itself.  There is none where bases come back to the type or to one of them. -/
structure Session.LeadsTo (env : Environment) (s : Session) (d : Descriptor)
    (kind : Option Kind) : Prop where
  leaf : ∀ k, kind = some k ↔ ∃ path b, s.FollowsBases env d (path ++ [b]) ∧
    b.shape = .primitive ∧ b.kind = some k ∧ b.same d = false
  cycle : ∀ path b, s.FollowsBases env d (path ++ [b]) → (∃ x ∈ d :: path, b.same x = true) →
    kind = none

variable {env : Environment} {s S : Session} {d d' b x : Descriptor} {bases path : List Descriptor}
  {seen : List Identity} {t t' : Token} {w w' : Walk}

theorem BaseOf.unique (h : BaseOf env s d b) (h' : BaseOf env s d x) : b = x := by
  obtain ⟨t, ht, hb⟩ := h
  obtain ⟨t', ht', hx⟩ := h'
  cases ht.symm.trans ht'
  exact hb.unique hx

/-! ## Parts of the way -/

namespace Session.FollowsBases

theorem nil : s.FollowsBases env d [] :=
  ⟨.singleton d, List.forall_mem_nil _⟩

theorem cons_iff : s.FollowsBases env d (b :: bases) ↔
    BaseOf env s d b ∧ (bases ≠ [] → b.shape = .object) ∧ s.FollowsBases env b bases := by
  constructor
  · rintro ⟨hlinked, hobjects⟩
    obtain ⟨hbase, hlinked⟩ := List.isChain_cons_cons.mp hlinked
    refine ⟨hbase, fun hne => hobjects b ?_, hlinked, fun x hx => hobjects x ?_⟩
    · rw [List.dropLast_cons_of_ne_nil hne]
      exact List.mem_cons_self
    · rw [List.dropLast_cons_of_ne_nil (by rintro rfl; cases hx)]
      exact List.mem_cons_of_mem b hx
  · rintro ⟨hbase, hobject, hlinked, hobjects⟩
    refine ⟨List.isChain_cons_cons.mpr ⟨hbase, hlinked⟩, fun x hx => ?_⟩
    rcases eq_or_ne bases [] with rfl | hne
    · cases hx
    · rw [List.dropLast_cons_of_ne_nil hne] at hx
      rcases List.mem_cons.mp hx with rfl | hx
      · exact hobject hne
      · exact hobjects x hx

/-- What follows after one of the bases is followed from there. -/
theorem of_append {before : List Descriptor} (h : s.FollowsBases env d (before ++ b :: bases)) :
    s.FollowsBases env b bases := by
  induction before generalizing d with
  | nil => exact (cons_iff.mp h).2.2
  | cons x before ih => exact ih (cons_iff.mp h).2.2

/-- There is one way: of two parts of it one goes on where the other stops. -/
theorem prefix_or (h : s.FollowsBases env d path) (h' : s.FollowsBases env d bases) :
    path <+: bases ∨ ∃ b rest, path = bases ++ b :: rest := by
  induction path generalizing d bases with
  | nil => exact .inl List.nil_prefix
  | cons x path ih =>
    cases bases with
    | nil => exact .inr ⟨x, path, rfl⟩
    | cons y bases =>
      obtain ⟨hx, -, h⟩ := cons_iff.mp h
      obtain ⟨hy, -, h'⟩ := cons_iff.mp h'
      obtain rfl := hx.unique hy
      rcases ih h h' with hbegins | ⟨b, rest, rfl⟩
      · exact .inl (List.cons_prefix_cons.mpr ⟨rfl, hbegins⟩)
      · exact .inr ⟨b, rest, rfl⟩

/-- What is followed to the end ends at the leaf that it comes to. -/
theorem ends (h : s.FollowsBases env d (path ++ [b])) (hb : b.shape = .primitive) :
    Ends env s path.length d b.kind := by
  induction path generalizing d with
  | nil =>
    obtain ⟨⟨t, ht, hdescribe⟩, -, -⟩ := cons_iff.mp h
    exact .here ht hdescribe hb
  | cons x path ih =>
    obtain ⟨⟨t, ht, hdescribe⟩, hobject, h⟩ := cons_iff.mp h
    exact .beyond ht hdescribe (hobject (by simp)) (ih h)

theorem describes (h : s.FollowsBases env d bases) (hx : x ∈ bases) : s.Describes env x := by
  induction bases generalizing d with
  | nil => cases hx
  | cons b bases ih =>
    obtain ⟨⟨t, -, hdescribe⟩, -, h⟩ := cons_iff.mp h
    rcases List.mem_cons.mp hx with rfl | hx
    · exact ⟨t, hdescribe⟩
    · exact ih h hx

end Session.FollowsBases

/-! ## All of the way -/

/-- **A walk through bases that is not cut short**, in a session that knows so much: it stops at a
type without a base, before a descriptor that has been seen, and at what is no object. -/
inductive Ascends (env : Environment) (s : Session) :
    List Identity → Descriptor → List Descriptor → Prop
  | root {seen : List Identity} {d : Descriptor} (hbase : d.base = none) : Ascends env s seen d []
  | seen {seen : List Identity} {d b : Descriptor} (hbase : BaseOf env s d b)
      (hseen : seen.any b.identity.same = true) : Ascends env s seen d []
  | last {seen : List Identity} {d b : Descriptor} (hbase : BaseOf env s d b)
      (hnew : seen.any b.identity.same = false) (hshape : b.shape ≠ .object) :
      Ascends env s seen d [b]
  | more {seen : List Identity} {d b : Descriptor} {bases : List Descriptor}
      (hbase : BaseOf env s d b) (hnew : seen.any b.identity.same = false)
      (hshape : b.shape = .object) (h : Ascends env s (b.identity :: seen) b bases) :
      Ascends env s seen d (b :: bases)

namespace Ascends

theorem follows (h : Ascends env s seen d bases) : s.FollowsBases env d bases := by
  induction h with
  | root | seen => exact .nil
  | last hbase => exact Session.FollowsBases.cons_iff.mpr ⟨hbase, fun h => absurd rfl h, .nil⟩
  | more hbase _ hshape _ ih =>
    exact Session.FollowsBases.cons_iff.mpr ⟨hbase, fun _ => hshape, ih⟩

/-- Nothing is met that has been seen, and nothing is met twice. -/
theorem distinct (h : Ascends env s seen d bases) :
    (∀ b ∈ bases, seen.any b.identity.same = false) ∧
      bases.Pairwise fun x y => y.same x = false := by
  induction h with
  | root | seen => exact ⟨List.forall_mem_nil _, .nil⟩
  | last _ hnew => exact ⟨List.forall_mem_singleton.mpr hnew, List.pairwise_singleton _ _⟩
  | more _ hnew _ _ ih =>
    obtain ⟨hunseen, hpairwise⟩ := ih
    simp only [List.any_cons, Bool.or_eq_false_iff] at hunseen
    exact ⟨List.forall_mem_cons.mpr ⟨hnew, fun b hb => (hunseen b hb).2⟩,
      List.pairwise_cons.mpr ⟨fun b hb => (hunseen b hb).1, hpairwise⟩⟩

theorem climbs (h : Ascends env s [d.identity] d bases) : s.ClimbsBases env d bases := by
  obtain ⟨hunseen, hpairwise⟩ := h.distinct
  refine ⟨h.follows, List.pairwise_cons.mpr ⟨fun b hb => ?_, hpairwise⟩⟩
  simpa [Descriptor.same] using hunseen b hb

/-- What comes next has been seen, if anything comes next that may be followed. -/
theorem seen_of_follows {rest : List Descriptor} (h : Ascends env s seen d bases)
    (hpath : s.FollowsBases env d (bases ++ b :: rest)) :
    seen.any b.identity.same = true ∨ ∃ x ∈ bases, b.same x = true := by
  induction h with
  | root hbase =>
    obtain ⟨⟨t, ht, -⟩, -, -⟩ := Session.FollowsBases.cons_iff.mp hpath
    cases hbase.symm.trans ht
  | seen hbase hseen =>
    obtain ⟨hb, -, -⟩ := Session.FollowsBases.cons_iff.mp hpath
    rw [← hbase.unique hb]
    exact .inl hseen
  | last _ _ hshape =>
    obtain ⟨-, hobject, -⟩ := Session.FollowsBases.cons_iff.mp hpath
    exact absurd (hobject (List.cons_ne_nil _ _)) hshape
  | @more seen _ y bases _ _ _ _ ih =>
    obtain ⟨-, -, hpath⟩ := Session.FollowsBases.cons_iff.mp hpath
    rcases ih hpath with hseen | ⟨x, hx, hsame⟩
    · rcases Bool.or_eq_true _ _ ▸ hseen with hsame | hseen
      · exact .inr ⟨y, List.mem_cons_self, hsame⟩
      · exact .inl hseen
    · exact .inr ⟨x, List.mem_cons_of_mem y hx, hsame⟩

/-- What comes next is the type itself or one of the bases, if anything comes next that may be
followed. -/
theorem same_of_follows {rest : List Descriptor} (h : Ascends env s [d.identity] d bases)
    (hpath : s.FollowsBases env d (bases ++ b :: rest)) : ∃ x ∈ d :: bases, b.same x = true := by
  rcases h.seen_of_follows hpath with hseen | ⟨x, hx, hsame⟩
  · refine ⟨d, List.mem_cons_self, ?_⟩
    simpa [Descriptor.same] using hseen
  · exact ⟨x, List.mem_cons_of_mem d hx, hsame⟩

/-- **There is no longer climb** than all of the way. -/
theorem prefix_of_climbs (h : Ascends env s [d.identity] d bases)
    (hpath : s.ClimbsBases env d path) : path <+: bases := by
  rcases hpath.toFollowsBases.prefix_or h.follows with hbegins | ⟨b, rest, rfl⟩
  · exact hbegins
  · obtain ⟨x, hx, hsame⟩ := h.same_of_follows hpath.toFollowsBases
    have hdistinct := hpath.distinct
    rw [← List.cons_append, List.pairwise_append] at hdistinct
    cases hsame.symm.trans (hdistinct.2.2 x hx b List.mem_cons_self)

/-- **A leaf that bases lead to is the end of the way**, unless it is the type itself that they come
back to.  They lead to it by no detour: bases that come back to one of them do not end. -/
theorem eq_of_leaf (h : Ascends env s [d.identity] d bases) (hw : s.WellRead env)
    (hd : s.Describes env d) (hpath : s.FollowsBases env d (path ++ [b]))
    (hb : b.shape = .primitive) (hne : b.same d = false) : bases = path ++ [b] := by
  rcases hpath.prefix_or h.follows with ⟨more, rfl⟩ | ⟨x, rest, heq⟩
  · cases more with
    | nil => rw [List.append_nil]
    | cons y more =>
      have hobject := h.follows.objects b (by simp)
      cases hb.symm.trans hobject
  · rw [heq] at hpath
    obtain ⟨z, hz, hsame⟩ := h.same_of_follows hpath
    rcases List.eq_nil_or_concat rest with rfl | ⟨rest, y, rfl⟩
    · -- the leaf itself has been seen: it is neither the type nor an object
      obtain ⟨rfl, hx⟩ := List.append_inj' heq rfl
      cases hx
      rcases List.mem_cons.mp hz with rfl | hz
      · cases hne.symm.trans hsame
      · have hobject := hpath.objects z (by simpa using hz)
        obtain ⟨t, ht⟩ := h.follows.describes hz
        obtain ⟨u, hu⟩ := hpath.describes (x := b) (by simp)
        rw [eq_of_identity hw hu ht hsame] at hb
        cases hb.symm.trans hobject
    · -- two distances from one type to the leaf
      obtain ⟨-, hy⟩ : path = bases ++ x :: rest ∧ [b] = [y] :=
        List.append_inj' (heq.trans (by simp)) rfl
      cases hy
      have hzd : s.Describes env z := by
        rcases List.mem_cons.mp hz with rfl | hz
        · exact hd
        · exact h.follows.describes hz
      obtain ⟨t, ht⟩ := hzd
      obtain ⟨u, hu⟩ := hpath.describes (x := x) (by simp)
      obtain rfl := eq_of_identity hw hu ht hsame
      rw [List.concat_eq_append] at hpath
      have hshort : Ends env s rest.length x b.kind := hpath.of_append.ends hb
      obtain ⟨n, hlong, hlt⟩ : ∃ n, Ends env s n x b.kind ∧ rest.length < n := by
        rcases List.mem_cons.mp hz with rfl | hz
        · refine ⟨(bases ++ x :: rest).length, ?_, by simp; omega⟩
          refine Session.FollowsBases.ends ?_ hb
          simpa using hpath
        · obtain ⟨before, later, rfl⟩ := List.append_of_mem hz
          refine ⟨(later ++ x :: rest).length, ?_, by simp; omega⟩
          have hafter : s.FollowsBases env d (before ++ x :: (later ++ x :: rest ++ [b])) := by
            simpa using hpath
          exact hafter.of_append.ends hb
      exact absurd (hshort.unique hlong rfl).1 hlt.ne

theorem longestClimb (h : Ascends env s [d.identity] d bases) : s.LongestClimb env d bases :=
  ⟨h.climbs, fun _ => h.prefix_of_climbs⟩

end Ascends

/-! ## The leaf at the end -/

/-- The kind of the last base, if that is a leaf. -/
def leafKind (bases : List Descriptor) : Option Kind :=
  match bases.getLast? with
  | some b => if b.shape = .primitive then b.kind else none
  | none => none

theorem leafKind_eq_some {k : Kind} : leafKind bases = some k ↔
    ∃ path b, bases = path ++ [b] ∧ b.shape = .primitive ∧ b.kind = some k := by
  unfold leafKind
  constructor
  · intro h
    split at h
    next b hlast =>
      obtain ⟨path, rfl⟩ := List.getLast?_eq_some_iff.mp hlast
      split at h
      next hb => exact ⟨path, b, rfl, hb, h⟩
      next => cases h
    next => cases h
  · rintro ⟨path, b, rfl, hb, hk⟩
    rw [List.getLast?_concat]
    exact (if_pos hb).trans hk

namespace Environment

theorem baseChain_of_root (h : d.base = none) : env.baseChain d = pure [] := by
  have hfuel : env.baseFuel ≠ 0 := Nat.mul_ne_zero (by omega) (by omega)
  obtain ⟨fuel, hfuel⟩ := Nat.exists_eq_succ_of_ne_zero hfuel
  rw [baseChain, hfuel, basesFrom, h]

theorem primitiveKind_of_baseChain (h : env.baseChain d w = .ok bases w') :
    env.primitiveKind d w = .ok (leafKind bases) w' := by
  unfold primitiveKind
  split
  next hnone =>
    rw [baseChain_of_root (Option.isNone_iff_eq_none.mp hnone)] at h
    obtain ⟨rfl, rfl⟩ := pure_eq_ok.mp h
    rfl
  next =>
    rw [bind_of_ok h]
    unfold leafKind
    cases bases.getLast? <;> rfl

theorem primitiveKind_of_baseChain_error {e : Fault} (h : env.baseChain d w = .error e w') :
    env.primitiveKind d w = .error e w' := by
  unfold primitiveKind
  split
  next hnone =>
    rw [baseChain_of_root (Option.isNone_iff_eq_none.mp hnone)] at h
    cases h
  next => exact bind_eq_error.mpr (.inl h)

end Environment

/-- **Bases lead to the leaf at the end of the way.** -/
theorem Ascends.leadsTo (h : Ascends env s [d.identity] d bases) (hw : s.WellRead env)
    (hd : s.Describes env d) : s.LeadsTo env d (leafKind bases) := by
  refine ⟨fun k => leafKind_eq_some.trans ⟨?_, ?_⟩, fun path b hpath hcycle => ?_⟩
  · rintro ⟨path, b, rfl, hb, hk⟩
    refine ⟨path, b, h.follows, hb, hk, ?_⟩
    exact (List.pairwise_cons.mp h.climbs.distinct).1 b (by simp)
  · rintro ⟨path, b, hpath, hb, hk, hne⟩
    exact ⟨path, b, h.eq_of_leaf hw hd hpath hb hne, hb, hk⟩
  · refine Option.eq_none_iff_forall_ne_some.mpr fun k hk => ?_
    obtain ⟨before, leaf, rfl, hleaf, -⟩ := leafKind_eq_some.mp hk
    rcases hpath.prefix_or h.follows with hbegins | ⟨y, rest, heq⟩
    · -- the bases that were climbed are all different
      have hdistinct := h.climbs.distinct.sublist (hbegins.sublist.cons_cons d)
      rw [← List.cons_append, List.pairwise_append] at hdistinct
      obtain ⟨x, hx, hsame⟩ := hcycle
      cases hsame.symm.trans (hdistinct.2.2 x hx b (List.mem_singleton_self b))
    · -- nothing is followed from a leaf
      rw [heq] at hpath
      have hobject := hpath.objects leaf (by
        rw [List.dropLast_append_of_ne_nil (List.cons_ne_nil y rest)]
        simp)
      cases hleaf.symm.trans hobject

/-! ## The end of the way

What follows shows that the count of `Environment.basesFrom` is never used up. -/

namespace Environment

variable (env) in
/-- The tokens that the program names as bases. -/
def baseTokens : List Token :=
  .builtin .dict :: (env.program.crafted.filterMap Descriptor.base ++
    env.program.classes.filterMap Program.baseOf ++ env.program.brands.map Brand.of)

variable (env) in
/-- A type for which no reading can be kept, and its base. -/
def Passes (t t' : Token) : Prop :=
  t.asType.isKey = false ∧
    ∃ d, env.program.read env.kinds t.asType = .ok d ∧ d.base = some t'

variable (env) in
/-- **Types for which no reading can be kept** do not have one another for bases without end. -/
def BasesEnd : Prop :=
  WellFounded fun t' t => env.Passes t t'

theorem length_baseTokens_le : env.baseTokens.length ≤ env.program.crafted.length +
    env.program.classes.length + env.program.brands.length + 1 := by
  have hcrafted := List.length_filterMap_le Descriptor.base env.program.crafted
  have hclasses := List.length_filterMap_le Program.baseOf env.program.classes
  simp only [baseTokens, List.length_cons, List.length_append, List.length_map]
  omega

/-! ### Bases are named in the program -/

theorem base_of_readClass {p : Program} {own : Token} {c : Class}
    (h : p.readClass own c = .ok d) (hbase : d.base = some t) : Program.baseOf c = some t := by
  unfold Program.readClass at h
  dsimp only at h
  split at h
  · cases h
    cases hbase
  all_goals
    obtain ⟨qs, -, hd⟩ := exists_of_bind_eq_ok h
    cases hd
    exact hbase

theorem base_mem_of_readStructure {p : Program} (hkind : ∀ b, t = .builtin b → b.facts.kind = none)
    (h : p.readStructure t = .ok d) (hbase : d.base = some t') :
    t' = .builtin .dict ∨ (∃ c ∈ p.classes, Program.baseOf c = some t') ∨
      ∃ b ∈ p.brands, b.of = t' := by
  have hitems {origin : Builtin} {args : List Token} (h : p.readItems t origin args = .ok d) :
      d.base = none := by
    obtain ⟨_, -, hd⟩ := exists_of_bind_eq_ok h
    cases hd
    rfl
  unfold Program.readStructure at h
  split at h
  next =>
    cases h
    cases hbase
  next =>
    split at h
    · cases h
      cases hbase
    · cases (hitems h).symm.trans hbase
    · obtain ⟨_, -, hd⟩ := exists_of_bind_eq_ok h
      cases hd
      cases hbase
  next b =>
    split at h
    · split at h
      · cases h
        cases hbase
      · cases (hitems h).symm.trans hbase
    · cases h
      cases hbase
    · cases (hitems h).symm.trans hbase
    · split at h
      · cases h
        refine .inl ?_
        -- of the builtin classes only a dictionary that is kept in order has a base
        have hleaf := hkind b rfl
        cases b <;> cases hbase <;> first | rfl | cases hleaf
      · cases h
        cases hbase
  next i =>
    cases hi : p.brands[i]? with
    | none =>
      rw [hi] at h
      cases h
      cases hbase
    | some b =>
      refine .inr (.inr ⟨b, List.mem_of_getElem? hi, ?_⟩)
      rw [hi] at h
      dsimp only [Option.map_some] at h
      split at h
      next => cases h; cases hbase
      next =>
        cases h
        simp_all
      next => cases h; cases hbase
  next i =>
    split at h
    next c hc =>
      exact .inr (.inl ⟨c, List.mem_of_getElem? hc, base_of_readClass h hbase⟩)
    next =>
      cases h
      cases hbase
  next =>
    obtain ⟨_, -, hd⟩ := exists_of_bind_eq_ok h
    cases hd
    cases hbase

theorem base_mem_of_read (h : env.program.read env.kinds t = .ok d) (hbase : d.base = some t') :
    t' ∈ env.baseTokens := by
  unfold Program.read at h
  dsimp only at h
  split at h
  · cases h
    cases hbase
  next hkind =>
  obtain ⟨inner?, -, h⟩ := exists_of_bind_eq_ok h
  split at h
  · cases h
    cases hbase
  split at h
  · cases h
    cases hbase
  have hleaf : ∀ b, t.bare = .builtin b → b.facts.kind = none := by
    intro b hb
    rw [hb] at hkind
    unfold Kinds.kindOf? at hkind
    split at hkind
    next herror => cases herror
    next =>
    split at hkind
    next => cases hkind
    next => exact hkind
  simp only [baseTokens, List.mem_cons, List.mem_append, List.mem_filterMap, List.mem_map]
  rcases base_mem_of_readStructure hleaf h hbase with hdict | hclass | hbrand
  · exact .inl hdict
  · exact .inr (.inl (.inr hclass))
  · exact .inr (.inr hbrand)

/-- It is enough that no base which the program names is read in passing and has a base itself. -/
theorem BasesEnd.of_forall (h : ∀ t ∈ env.baseTokens, ∀ t', ¬ env.Passes t t') : env.BasesEnd := by
  refine ⟨fun t => .intro t fun t' hpasses => .intro t' fun u hu => ?_⟩
  obtain ⟨-, d, hread, hbase⟩ := hpasses
  exact absurd hu (h t' (base_mem_of_read hread hbase) u)

/-- **What a known type has for its base is named in the program.** -/
theorem base_mem_baseTokens (hw : s.WellRead env) (hd : s.Describes env d)
    (hbase : d.base = some t) : t ∈ env.baseTokens := by
  obtain ⟨u, hu⟩ := hd
  rcases describe_cases hu with ⟨i, halike, -⟩ | ⟨v, hmem⟩ | ⟨v, d₀, hread, halike, -⟩
  · cases hi : env.program.crafted[i]? with
    | none =>
      rw [hi] at halike
      rw [halike] at hbase
      cases hbase
    | some d₀ =>
      rw [hi] at halike
      have hbase₀ : d₀.base = some t := by
        rw [halike] at hbase
        exact hbase
      refine List.mem_cons_of_mem _ (List.mem_append_left _ (List.mem_append_left _ ?_))
      exact List.mem_filterMap.mpr ⟨d₀, List.mem_of_getElem? hi, hbase₀⟩
  · obtain ⟨i, hi⟩ := List.mem_iff_getElem?.mp hmem
    obtain ⟨d₀, hread, rfl⟩ := hw i v d hi
    exact base_mem_of_read hread hbase
  · rw [halike] at hbase
    exact base_mem_of_read hread hbase

/-! ### The measure -/

/-- A token stands for a descriptor that has been seen. -/
def Minded (env : Environment) (s : Session) (seen : List Identity) (t : Token) : Prop :=
  ∃ x, s.Settles (env.describe t) x ∧ seen.any x.identity.same = true

variable (env) in
/-- How many bases are left to be seen. -/
noncomputable def unseen (s : Session) (seen : List Identity) : Nat :=
  {t | t ∈ env.baseTokens ∧ ¬ Minded env s seen t}.ncard

variable (env) in
/-- How many bases can come of a type before a reading is kept. -/
noncomputable def passing (t : Token) : Nat :=
  {t' | t' ∈ env.baseTokens ∧ Relation.TransGen env.Passes t t'}.ncard

variable (env) in
/-- How far a walk that has come to the base of a type can still go. -/
noncomputable def room (s : Session) (seen : List Identity) (t : Token) : Nat :=
  env.unseen s seen * (env.baseTokens.length + 1) + env.passing t

theorem ncard_bases_le (p : Token → Prop) :
    {t | t ∈ env.baseTokens ∧ p t}.ncard ≤ env.baseTokens.length := by
  classical
  calc {t | t ∈ env.baseTokens ∧ p t}.ncard
      ≤ (env.baseTokens.toFinset : Set Token).ncard :=
        Set.ncard_le_ncard fun t ht => List.mem_toFinset.mpr ht.1
    _ = env.baseTokens.toFinset.card := Set.ncard_coe_finset _
    _ ≤ env.baseTokens.length := List.toFinset_card_le _

/-- Of the bases fewer have a property that one of them loses and none gets. -/
theorem ncard_bases_lt {p q : Token → Prop} (hpq : ∀ t, p t → q t) (ht : t ∈ env.baseTokens)
    (hq : q t) (hp : ¬ p t) :
    {t | t ∈ env.baseTokens ∧ p t}.ncard < {t | t ∈ env.baseTokens ∧ q t}.ncard := by
  have hfinite : {t | t ∈ env.baseTokens ∧ q t}.Finite :=
    env.baseTokens.finite_toSet.subset fun _ h => h.1
  refine Set.ncard_lt_ncard ⟨fun t h => ⟨h.1, hpq t h.2⟩, fun hsub => hp ?_⟩ hfinite
  exact (hsub ⟨ht, hq⟩ : t ∈ env.baseTokens ∧ p t).2

theorem passing_lt (hends : env.BasesEnd) (h : env.Passes t t') :
    env.passing t' < env.passing t := by
  obtain ⟨-, d, hread, hbase⟩ := id h
  refine ncard_bases_lt (fun u hu => .trans (.single h) hu) (base_mem_of_read hread hbase)
    (.single h) fun hloop => ?_
  have hwf : WellFounded (Relation.TransGen fun t' t => env.Passes t t') :=
    WellFounded.transGen hends
  exact hwf.irrefl.irrefl t' (Relation.transGen_swap.mpr hloop)

/-- **A type that is not kept is read in passing.** -/
theorem passes_of_describe (hw : s.WellRead env) (h : s.Settles (env.describe t) b)
    (hid : b.identity = .passing) (hbase : b.base = some t') : env.Passes t t' := by
  have hrun := h ⟨s, []⟩ (.refl s)
  by_cases ht : ∃ i, t = .crafted i
  · obtain ⟨i, rfl⟩ := ht
    rw [describe_crafted] at hrun
    obtain ⟨rfl, -⟩ := pure_eq_ok.mp hrun
    cases hid
  rw [describe_eq env fun i hi => ht ⟨i, hi⟩] at hrun
  split at hrun
  next =>
    obtain ⟨found, _, hfound, hthen⟩ := bind_eq_ok.mp hrun
    obtain ⟨hfind, rfl⟩ := Build.asks_eq_ok.mp hfound
    cases found with
    | some e =>
      obtain ⟨rfl, -⟩ := pure_eq_ok.mp hthen
      obtain ⟨i, hi⟩ := List.mem_iff_getElem?.mp (List.mem_of_find?_eq_some hfind.symm)
      obtain ⟨d₀, -, hd⟩ := hw i e.1 e.2 hi
      rw [hd] at hid
      cases hid
    | none =>
      obtain ⟨d₀, -, rfl, -⟩ := readNew_eq_ok.mp hthen
      cases hid
  next hkey =>
    obtain ⟨d₀, _, hread, hend⟩ := bind_eq_ok.mp hrun
    obtain ⟨rfl, -⟩ := pure_eq_ok.mp hend
    exact ⟨Bool.eq_false_iff.mpr hkey, d₀, (Build.lift_eq_ok.mp hread).1, hbase⟩

/-- A new descriptor is one less to be seen, unless it was read in passing. -/
theorem unseen_lt (ht : t ∈ env.baseTokens) (h : s.Settles (env.describe t) b)
    (hnew : seen.any b.identity.same = false) (hid : b.identity ≠ .passing) :
    env.unseen s (b.identity :: seen) < env.unseen s seen := by
  refine ncard_bases_lt (fun u hu hminded => hu ?_) ht ?_ fun hu => hu ⟨b, h, ?_⟩
  · obtain ⟨x, hx, hseen⟩ := hminded
    exact ⟨x, hx, Bool.or_eq_true _ _ ▸ .inr hseen⟩
  · rintro ⟨x, hx, hseen⟩
    rw [hx.unique h] at hseen
    cases hnew.symm.trans hseen
  · have hself : b.identity.same b.identity = true := by
      cases hb : b.identity with
      | passing => exact absurd hb hid
      | crafted i | kept i => exact beq_self_eq_true _
    exact Bool.or_eq_true _ _ ▸ .inl hself

/-- What was read in passing is never seen. -/
theorem unseen_passing (hid : b.identity = .passing) :
    env.unseen s (b.identity :: seen) = env.unseen s seen := by
  have hminded (t : Token) : Minded env s (b.identity :: seen) t ↔ Minded env s seen t := by
    refine exists_congr fun x => and_congr_right fun _ => ?_
    have hsame : x.identity.same b.identity = false := by
      rw [hid]
      cases x.identity <;> rfl
    rw [List.any_cons, hsame, Bool.false_or]
  unfold unseen
  simp only [hminded]

/-- **With every step a walk has less far to go.** -/
theorem room_lt (hends : env.BasesEnd) (hw : s.WellRead env) (ht : t ∈ env.baseTokens)
    (h : s.Settles (env.describe t) b) (hnew : seen.any b.identity.same = false)
    (hbase : b.base = some t') : env.room s (b.identity :: seen) t' < env.room s seen t := by
  unfold room
  by_cases hid : b.identity = .passing
  · rw [unseen_passing hid]
    exact Nat.add_lt_add_left (passing_lt hends (passes_of_describe hw h hid hbase)) _
  · have hless : env.unseen s (b.identity :: seen) + 1 ≤ env.unseen s seen :=
      unseen_lt ht h hnew hid
    have hmul := Nat.mul_le_mul_right (env.baseTokens.length + 1) hless
    have hpassing : env.passing t' ≤ env.baseTokens.length := ncard_bases_le _
    rw [Nat.succ_mul] at hmul
    omega

/-- **The count is large enough** at the start. -/
theorem room_lt_baseFuel (s : Session) (seen : List Identity) (t : Token) :
    env.room s seen t < env.baseFuel := by
  have hunseen : env.unseen s seen ≤ env.baseTokens.length := ncard_bases_le _
  have hpassing : env.passing t ≤ env.baseTokens.length := ncard_bases_le _
  have hlength : env.baseTokens.length ≤ _ := length_baseTokens_le
  calc env.room s seen t
      ≤ env.baseTokens.length * (env.baseTokens.length + 1) + env.baseTokens.length :=
        Nat.add_le_add (Nat.mul_le_mul_right _ hunseen) hpassing
    _ < (env.baseTokens.length + 1) * (env.baseTokens.length + 1) := by
        rw [Nat.succ_mul]
        omega
    _ ≤ env.baseFuel := Nat.mul_le_mul (by omega) (by omega)

/-! ### All of the way is walked -/

theorem ascends_of_basesFrom (hends : env.BasesEnd) (hw : s.WellRead env) {fuel : Nat}
    (hd : s.Describes env d) (hrun : env.basesFrom fuel seen d w = .ok bases w')
    (hs : w'.session.Below s) (hfuel : ∀ t, d.base = some t → env.room s seen t < fuel) :
    Ascends env s seen d bases := by
  induction fuel generalizing seen d bases w with
  | zero =>
    obtain ⟨rfl, -⟩ := pure_eq_ok.mp hrun
    refine .root (Option.eq_none_iff_forall_ne_some.mpr fun t ht => ?_)
    exact absurd (hfuel t ht) (Nat.not_lt_zero _)
  | succ fuel ih =>
    cases hbase : d.base with
    | none =>
      unfold basesFrom at hrun
      rw [hbase] at hrun
      obtain ⟨rfl, -⟩ := pure_eq_ok.mp hrun
      exact .root hbase
    | some t =>
      rw [basesFrom_succ hbase] at hrun
      obtain ⟨b, w₁, hb, hrest⟩ := bind_eq_ok.mp hrun
      have hdescribe {w₂ : Walk} (hw : w₁.Learns env w₂) (hs : w₂.session.Below s) :
          s.Settles (env.describe t) b :=
        (reads_describe t).settles_of_below hb (hw.below.trans hs)
      split at hrest
      next hseen =>
        obtain ⟨rfl, rfl⟩ := pure_eq_ok.mp hrest
        exact .seen ⟨t, hbase, hdescribe (.refl _) hs⟩ hseen
      next hseen =>
      have hnew := Bool.eq_false_iff.mpr hseen
      split at hrest
      next hshape =>
        obtain ⟨rfl, rfl⟩ := pure_eq_ok.mp hrest
        exact .last ⟨t, hbase, hdescribe (.refl _) hs⟩ hnew hshape
      next hshape =>
        obtain ⟨more, w₂, hmore, hend⟩ := bind_eq_ok.mp hrest
        obtain ⟨rfl, rfl⟩ := pure_eq_ok.mp hend
        have hsettles := hdescribe ((reads_basesFrom _ _ _).learns.ok hmore) hs
        refine .more ⟨t, hbase, hsettles⟩ hnew (not_not.mp hshape)
          (ih ⟨t, hsettles⟩ hmore fun t' ht' => ?_)
        have hless := room_lt hends hw (base_mem_baseTokens hw hd hbase) hsettles hnew ht'
        exact Nat.lt_of_lt_of_le hless (Nat.le_of_lt_succ (hfuel t hbase))

/-- **The bases of a type are all of the way.** -/
theorem ascends_of_baseChain (hends : env.BasesEnd) (hw : s.WellRead env)
    (hd : s.Describes env d) (hrun : env.baseChain d w = .ok bases w')
    (hs : w'.session.Below s) : Ascends env s [d.identity] d bases :=
  ascends_of_basesFrom hends hw hd hrun hs fun t _ => room_lt_baseFuel s _ t

/-! ### Types that cannot be read -/

/-- A type that cannot be read changes nothing. -/
theorem eq_of_describe_error {e : Fault} (h : env.describe t w = .error e w') : w' = w := by
  by_cases ht : ∃ i, t = .crafted i
  · obtain ⟨i, rfl⟩ := ht
    rw [describe_crafted] at h
    cases h
  rw [describe_eq env fun i hi => ht ⟨i, hi⟩] at h
  split at h
  next =>
    rcases bind_eq_error.mp h with hasks | ⟨found, w₁, hfound, hthen⟩
    · cases hasks
    · obtain ⟨-, rfl⟩ := Build.asks_eq_ok.mp hfound
      cases found with
      | some e => cases hthen
      | none =>
        unfold readNew at hthen
        cases hread : env.program.read env.kinds t.asType with
        | ok d₀ =>
          rw [hread] at hthen
          cases hthen
        | error e =>
          rw [hread] at hthen
          cases hthen
          rfl
  next =>
    rcases bind_eq_error.mp h with hlift | ⟨d₀, w₁, -, hend⟩
    · have hstill := Build.after_lift (env.program.read env.kinds t.asType) w
      rwa [after_of_error hlift] at hstill
    · cases hend

/-- **A walk that fails** has come to a type whose base cannot be read. -/
theorem exists_of_basesFrom_error {fuel : Nat} {e : Fault}
    (hrun : env.basesFrom fuel seen d w = .error e w') :
    ∃ path b t, w'.session.FollowsBases env d path ∧ (∀ x ∈ path, x.shape = .object) ∧
      (∀ x ∈ path, seen.any x.identity.same = false) ∧
      path.Pairwise (fun x y => y.same x = false) ∧
      (d :: path).getLast? = some b ∧ b.base = some t ∧ env.describe t w' = .error e w' := by
  induction fuel generalizing seen d w with
  | zero => cases hrun
  | succ fuel ih =>
    cases hbase : d.base with
    | none =>
      unfold basesFrom at hrun
      rw [hbase] at hrun
      cases hrun
    | some t =>
      rw [basesFrom_succ hbase] at hrun
      rcases bind_eq_error.mp hrun with herror | ⟨b, w₁, hb, hrest⟩
      · obtain rfl := eq_of_describe_error herror
        exact ⟨[], d, t, .nil, by simp, by simp, .nil, rfl, hbase, herror⟩
      split at hrest
      next => cases hrest
      next hseen =>
      split at hrest
      next => cases hrest
      next hshape =>
      rcases bind_eq_error.mp hrest with hmore | ⟨more, w₂, hmore, hend⟩
      · obtain ⟨path, x, u, hpath, hobjects, hunseen, hpairwise, hlast, hx, herror⟩ := ih hmore
        have hobject := not_not.mp hshape
        have hsettles : w'.session.Settles (env.describe t) b :=
          (reads_describe t).settles_of_below hb
            ((reads_basesFrom _ _ _).learns.error hmore).below
        simp only [List.any_cons, Bool.or_eq_false_iff] at hunseen
        refine ⟨b :: path, x, u,
          Session.FollowsBases.cons_iff.mpr ⟨⟨t, hbase, hsettles⟩, fun _ => hobject, hpath⟩,
          List.forall_mem_cons.mpr ⟨hobject, hobjects⟩,
          List.forall_mem_cons.mpr ⟨Bool.eq_false_iff.mpr hseen, fun y hy => (hunseen y hy).2⟩,
          List.pairwise_cons.mpr ⟨fun y hy => (hunseen y hy).1, hpairwise⟩, ?_, hx, herror⟩
        rw [List.getLast?_cons_cons]
        exact hlast
      · cases hend

theorem exists_of_baseChain_error {e : Fault} (hrun : env.baseChain d w = .error e w') :
    ∃ path b t, w'.session.ClimbsBases env d path ∧ (∀ x ∈ path, x.shape = .object) ∧
      (d :: path).getLast? = some b ∧ b.base = some t ∧ env.describe t w' = .error e w' := by
  obtain ⟨path, b, t, hpath, hobjects, hunseen, hpairwise, hlast, hb, herror⟩ :=
    exists_of_basesFrom_error hrun
  refine ⟨path, b, t, ⟨hpath, List.pairwise_cons.mpr ⟨fun x hx => ?_, hpairwise⟩⟩, hobjects, hlast,
    hb, herror⟩
  simpa [Descriptor.same] using hunseen x hx

end Environment

end Schemata
