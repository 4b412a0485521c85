import Schemata.Proofs.Synthesis.Derivation
import Mathlib.Logic.Relation

/-!
# The graph of types

The types that a session knows are the nodes of a graph: a type points at the types that its
parts stand for.  A wrapper has the type inside it for its part.  A type that is published by
name, composed in place or an alias has its base and the types of its properties; a leaf, and a
type whose bases end at a leaf, has none.

## Published by name

`Published` are the types that get an entry of their own: an object or an enumeration whose
bases do not end at a leaf, and that has no base at all, or else has own properties and is not
annotated as an array.  `Arrayed` are those with a base and properties that are annotated so.
What is left of the types with a base are aliases.

## One type, several descriptors

A type can be described more than once, under tokens that are not the same: with metadata and
without, say.  The descriptors differ in their identities only, and their keys are the same.
`Environment.KeysDistinct` is the assumption that nothing else has keys that are the same, and
`Descriptor.Kin` is the relation between descriptors of one type.  Descriptors of one type agree
in everything that is asked about them; what takes an argument is the kind of leaf that their
bases end at, since a walk through bases minds the identity that it starts from (`Ends`).
-/

namespace Schemata

open Environment (mapInner)

/-- Two descriptors differ in nothing but which descriptor they are. -/
def Descriptor.Alike (d d' : Descriptor) : Prop :=
  d' = { d with identity := d'.identity }

/-- Two descriptors are descriptors of one type. -/
structure Descriptor.Kin (d d' : Descriptor) : Prop where
  alike : d.Alike d'
  key : d.identity = d'.identity ∨ ∃ t, d.source = some t ∧ t.same t = true

/-- A descriptor that the program gives: made by hand, or read off a type. -/
def Environment.Declares (env : Environment) (d : Descriptor) : Prop :=
  d ∈ env.program.crafted ∨ ∃ t, env.program.read env.kinds t = .ok d

/-- **Distinct types have distinct keys.**  Objects and enumerations whose sources are the same
are one type. -/
def Environment.KeysDistinct (env : Environment) : Prop :=
  ∀ {d d' : Descriptor} {t t' : Token}, env.Declares d → env.Declares d' →
    d.shape.isInline = false → d'.shape.isInline = false →
    d.source = some t → d'.source = some t' → t.same t' = true → d.Alike d'

section

variable (env : Environment) (s : Session)

/-- Published under a name of its own. -/
structure Published (d : Descriptor) : Prop where
  shape : d.shape.isInline = false
  kind : s.Settles (env.primitiveKind d) none
  base : d.base = none ∨
    (d.properties ≠ [] ∧ ∃ c, Constraints.merge d.annotations = .ok c ∧ c.array = false)

/-- Published in place, as an array of compositions. -/
structure Arrayed (d : Descriptor) : Prop where
  shape : d.shape.isInline = false
  kind : s.Settles (env.primitiveKind d) none
  base : d.base ≠ none
  properties : d.properties ≠ []
  array : ∃ c, Constraints.merge d.annotations = .ok c ∧ c.array = true

/-- What stands for a part of a type. -/
inductive PartOf (d : Descriptor) : Token → Prop
  | inner (hshape : d.shape = .nullable ∨ d.shape = .array) : PartOf d d.inner
  | value (hshape : d.shape = .map) : PartOf d (mapInner d)
  | base {t : Token} (hshape : d.shape.isInline = false)
      (hkind : s.Settles (env.primitiveKind d) none) (hbase : d.base = some t) : PartOf d t
  | property {q : Property} (hkind : s.Settles (env.primitiveKind d) none)
      (hobject : d.shape = .object ∨ Arrayed env s d) (hq : q ∈ d.properties) : PartOf d q.type

/-- A type points at the type of one of its parts. -/
def Points (d d' : Descriptor) : Prop :=
  ∃ t, PartOf env s d t ∧ s.Settles (env.describe t) d'

/-- A type leads to itself and to all that the types it leads to point at. -/
def Reaches (d d' : Descriptor) : Prop :=
  Relation.ReflTransGen (Points env s) d d'

/-- A session knows a type, and whether its bases end at a leaf. -/
structure Session.Knows (d : Descriptor) : Prop where
  described : ∃ t, s.Settles (env.describe t) d
  asked : d.shape.isInline = false → ∃ kind, s.Settles (env.primitiveKind d) kind

/-- The bases of a type end at a leaf, that many types away. -/
inductive Ends : Nat → Descriptor → Option Kind → Prop
  | here {d b : Descriptor} {t : Token} (hbase : d.base = some t)
      (hdescribe : s.Settles (env.describe t) b) (hshape : b.shape = .primitive) :
      Ends 0 d b.kind
  | beyond {d b : Descriptor} {t : Token} {n : Nat} {kind : Option Kind}
      (hbase : d.base = some t) (hdescribe : s.Settles (env.describe t) b)
      (hshape : b.shape = .object) (hends : Ends n b kind) : Ends (n + 1) d kind

end

variable {env : Environment} {s : Session} {d d' d'' : Descriptor}

/-! ## Descriptors of one type -/

namespace Descriptor

theorem Alike.refl (d : Descriptor) : d.Alike d := rfl

theorem Alike.symm (h : d.Alike d') : d'.Alike d := by
  rw [Alike] at h ⊢
  rw [h]

theorem Alike.trans (h : d.Alike d') (h' : d'.Alike d'') : d.Alike d'' := by
  rw [Alike] at h h' ⊢
  rw [h', h]

namespace Kin

theorem refl (d : Descriptor) : d.Kin d :=
  ⟨.refl d, .inl rfl⟩

theorem source_eq (h : d.Kin d') : d'.source = d.source := by
  rw [h.alike]

theorem symm (h : d.Kin d') : d'.Kin d := by
  refine ⟨h.alike.symm, ?_⟩
  rcases h.key with hid | ⟨t, ht, hsame⟩
  · exact .inl hid.symm
  · exact .inr ⟨t, h.source_eq.trans ht, hsame⟩

theorem trans (h : d.Kin d') (h' : d'.Kin d'') : d.Kin d'' := by
  refine ⟨h.alike.trans h'.alike, ?_⟩
  rcases h.key with hid | hsame
  · rcases h'.key with hid' | ⟨t, ht, hsame⟩
    · exact .inl (hid.trans hid')
    · exact .inr ⟨t, h.source_eq ▸ ht, hsame⟩
  · exact .inr hsame

end Kin

end Descriptor

/-- A key that is the same as that of one descriptor of its type is the same as that of every
other. -/
theorem same_of_kin (hsame : d.key.same d'.key = true) (h : d.Kin d') (h' : d'.Kin d'') :
    d.key.same d''.key = true := by
  have hsource' : d'.source = d.source := h.source_eq
  have hsource'' : d''.source = d.source := h'.source_eq.trans hsource'
  unfold Key.same Descriptor.key at hsame ⊢
  cases hsource : d.source with
  | none =>
    simp only [hsource, hsource', hsource''] at hsame ⊢
    rcases h'.key with hid | ⟨t, ht, _⟩
    · rwa [← hid]
    · cases (hsource'.trans hsource).symm.trans ht
  | some u =>
    simp only [hsource, hsource', hsource'', Bool.or_eq_true] at hsame ⊢
    rcases h'.key with hid | ⟨t, ht, htoken⟩
    · rwa [← hid]
    · cases (hsource'.trans hsource).symm.trans ht
      exact .inl htoken

/-! ## What a session knows of a type -/

/-- A described type was made by hand, or read and kept, or read in passing. -/
theorem describe_cases {t : Token} (h : s.Settles (env.describe t) d) :
    (∃ i, ((env.program.crafted[i]?).getD default).Alike d ∧ d.identity = .crafted i) ∨
      (∃ t', (t', d) ∈ s.readings) ∨
      ∃ t' d₀, env.program.read env.kinds t' = .ok d₀ ∧ d₀.Alike d ∧ d.identity = .passing := by
  have hd := h ⟨s, []⟩ (.refl s)
  by_cases ht : ∃ i, t = .crafted i
  · obtain ⟨i, rfl⟩ := ht
    rw [Environment.describe_crafted] at hd
    obtain ⟨rfl, -⟩ := pure_eq_ok.mp hd
    exact .inl ⟨i, rfl, rfl⟩
  rw [Environment.describe_eq env fun i hi => ht ⟨i, hi⟩] at hd
  split at hd
  next =>
    obtain ⟨found, _, hfound, hthen⟩ := bind_eq_ok.mp hd
    obtain ⟨hfind, rfl⟩ := Build.asks_eq_ok.mp hfound
    cases found with
    | some e =>
      obtain ⟨rfl, -⟩ := pure_eq_ok.mp hthen
      exact .inr (.inl ⟨e.1, List.mem_of_find?_eq_some hfind.symm⟩)
    | none =>
      obtain ⟨d₀, _, _, hw⟩ := Environment.readNew_eq_ok.mp hthen
      have hlength := congrArg (fun w : Walk => w.session.readings.length) hw
      simp at hlength
  next =>
    obtain ⟨d₀, _, hread, hend⟩ := bind_eq_ok.mp hd
    obtain ⟨rfl, -⟩ := pure_eq_ok.mp hend
    exact .inr (.inr ⟨_, d₀, (Build.lift_eq_ok.mp hread).1, rfl, rfl⟩)

/-- **What a token is described as was read off it**, or off one that is the same and was kept. -/
theorem exists_read_of_describe (hw : s.WellRead env) {a : Token}
    {d : Descriptor} (hcrafted : ∀ i, a ≠ .crafted i) (htype : a.asType = a)
    (h : s.Settles (env.describe a) d) : ∃ b d₀, (b = a ∨ b.same a = true ∧ (b, d) ∈ s.readings) ∧
      env.program.read env.kinds b = .ok d₀ ∧ d₀.Alike d := by
  have hd := h ⟨s, []⟩ (.refl s)
  rw [Environment.describe_eq env hcrafted, htype] at hd
  split at hd
  next =>
    obtain ⟨found, _, hfound, hthen⟩ := bind_eq_ok.mp hd
    obtain ⟨hfind, rfl⟩ := Build.asks_eq_ok.mp hfound
    cases found with
    | some e =>
      obtain ⟨rfl, -⟩ := pure_eq_ok.mp hthen
      have hmem := List.mem_of_find?_eq_some hfind.symm
      obtain ⟨i, hi⟩ := List.mem_iff_getElem?.mp hmem
      obtain ⟨d₀, hread, heq⟩ := hw i e.1 e.2 hi
      refine ⟨e.1, d₀, .inr ⟨by simpa using List.find?_some hfind.symm, hmem⟩, hread, ?_⟩
      rw [heq]
      rfl
    | none =>
      obtain ⟨d₀, hread, rfl, -⟩ := Environment.readNew_eq_ok.mp hthen
      exact ⟨a, d₀, .inl rfl, hread, rfl⟩
  next =>
    obtain ⟨d₀, _, hread, hend⟩ := bind_eq_ok.mp hd
    obtain ⟨rfl, -⟩ := pure_eq_ok.mp hend
    exact ⟨a, d₀, .inl rfl, (Build.lift_eq_ok.mp hread).1, rfl⟩

/-- A known type is one that the program gives, but for which descriptor it is. -/
theorem exists_declares (hw : s.WellRead env) {t : Token} (h : s.Settles (env.describe t) d)
    (hshape : d.shape.isInline = false) : ∃ d₀, env.Declares d₀ ∧ d₀.Alike d := by
  rcases describe_cases h with ⟨i, halike, -⟩ | ⟨t', hmem⟩ | ⟨t', d₀, hread, halike, -⟩
  · cases hi : env.program.crafted[i]? with
    | none =>
      rw [hi] at halike
      rw [halike] at hshape
      cases hshape
    | some d₀ =>
      rw [hi] at halike
      exact ⟨d₀, .inl (List.mem_of_getElem? hi), halike⟩
  · obtain ⟨i, hi⟩ := List.mem_iff_getElem?.mp hmem
    obtain ⟨d₀, hread, rfl⟩ := hw i t' d hi
    exact ⟨d₀, .inr ⟨t', hread⟩, rfl⟩
  · exact ⟨d₀, .inr ⟨t', hread⟩, halike⟩

/-- Known descriptors with one identity are equal. -/
theorem eq_of_identity (hw : s.WellRead env) {t t' : Token} (h : s.Settles (env.describe t) d)
    (h' : s.Settles (env.describe t') d') (hid : d.identity.same d'.identity = true) :
    d = d' := by
  have hkept : ∀ {t : Token} {d : Descriptor}, (t, d) ∈ s.readings →
      ∃ i, s.readings[i]? = some (t, d) ∧ d.identity = .kept i := by
    intro t d hmem
    obtain ⟨i, hi⟩ := List.mem_iff_getElem?.mp hmem
    obtain ⟨d₀, -, rfl⟩ := hw i t d hi
    exact ⟨i, hi, rfl⟩
  have heq : d.identity ≠ .passing ∧ d.identity = d'.identity := by
    unfold Identity.same at hid
    split at hid
    · cases hid
    next hne => exact ⟨hne, eq_of_beq hid⟩
  rcases describe_cases h with ⟨i, halike, hi⟩ | ⟨t₁, hmem⟩ | ⟨_, _, _, _, hi⟩
  · rcases describe_cases h' with ⟨j, halike', hj⟩ | ⟨t₂, hmem'⟩ | ⟨_, _, _, _, hj⟩
    · cases (hi.symm.trans heq.2).trans hj
      rw [halike, halike', heq.2]
    · obtain ⟨j, -, hj⟩ := hkept hmem'
      cases (hi.symm.trans heq.2).trans hj
    · cases (hi.symm.trans heq.2).trans hj
  · obtain ⟨i, hget, hi⟩ := hkept hmem
    rcases describe_cases h' with ⟨j, _, hj⟩ | ⟨t₂, hmem'⟩ | ⟨_, _, _, _, hj⟩
    · cases (hi.symm.trans heq.2).trans hj
    · obtain ⟨j, hget', hj⟩ := hkept hmem'
      cases (hi.symm.trans heq.2).trans hj
      exact (Prod.mk.inj (Option.some.inj (hget.symm.trans hget'))).2
    · cases (hi.symm.trans heq.2).trans hj
  · exact absurd hi heq.1

/-- **Described types with one key are one type**, where distinct types have distinct keys. -/
theorem kin_of_described (hw : s.WellRead env) (hkeys : env.KeysDistinct)
    (h : ∃ t, s.Settles (env.describe t) d) (h' : ∃ t, s.Settles (env.describe t) d')
    (hshape : d.shape.isInline = false) (hshape' : d'.shape.isInline = false)
    (hsame : d.key.same d'.key = true) : d.Kin d' := by
  obtain ⟨t, ht⟩ := h
  obtain ⟨t', ht'⟩ := h'
  have hholder (hid : d.identity.same d'.identity = true) : d.Kin d' := by
    rw [eq_of_identity hw ht ht' hid]
    exact .refl d'
  unfold Key.same at hsame
  split at hsame
  next u u' hu hu' =>
    rcases Bool.or_eq_true _ _ ▸ hsame with htoken | hid
    · obtain ⟨d₀, hd₀, halike⟩ := exists_declares hw ht hshape
      obtain ⟨d₀', hd₀', halike'⟩ := exists_declares hw ht' hshape'
      have hsource : d₀.source = some u := by rw [halike] at hu; exact hu
      have hsource' : d₀'.source = some u' := by rw [halike'] at hu'; exact hu'
      have hshape₀ : d₀.shape.isInline = false := by rw [halike] at hshape; exact hshape
      have hshape₀' : d₀'.shape.isInline = false := by rw [halike'] at hshape'; exact hshape'
      have h₀ := hkeys hd₀ hd₀' hshape₀ hshape₀' hsource hsource' htoken
      have huu : u = u' := by
        rw [h₀] at hsource'
        exact Option.some.inj (hsource.symm.trans hsource')
      refine ⟨halike.symm.trans (h₀.trans halike'), .inr ⟨u, hu, ?_⟩⟩
      rw [huu] at htoken ⊢
      exact htoken
    · exact hholder hid
  next => exact hholder hsame
  next => cases hsame

theorem kin_of_same (hw : s.WellRead env) (hkeys : env.KeysDistinct) (h : s.Knows env d)
    (h' : s.Knows env d') (hshape : d.shape.isInline = false)
    (hshape' : d'.shape.isInline = false) (hsame : d.key.same d'.key = true) : d.Kin d' :=
  kin_of_described hw hkeys h.described h'.described hshape hshape' hsame

/-! ## Where bases end -/

theorem Ends.unique {n n' : Nat} {kind kind' : Option Kind} (h : Ends env s n d kind)
    (h' : Ends env s n' d' kind') (hbase : d.base = d'.base) : n = n' ∧ kind = kind' := by
  induction h generalizing n' d' with
  | here hb hdescribe hshape =>
    cases h' with
    | here hb' hdescribe' _ =>
      cases hb.symm.trans (hbase.trans hb')
      cases hdescribe.unique hdescribe'
      exact ⟨rfl, rfl⟩
    | beyond hb' hdescribe' hshape' _ =>
      cases hb.symm.trans (hbase.trans hb')
      cases hdescribe.unique hdescribe'
      cases hshape.symm.trans hshape'
  | beyond hb hdescribe hshape _ ih =>
    cases h' with
    | here hb' hdescribe' hshape' =>
      cases hb.symm.trans (hbase.trans hb')
      cases hdescribe.unique hdescribe'
      cases hshape.symm.trans hshape'
    | beyond hb' hdescribe' _ hends' =>
      cases hb.symm.trans (hbase.trans hb')
      cases hdescribe.unique hdescribe'
      obtain ⟨rfl, rfl⟩ := ih hends' rfl
      exact ⟨rfl, rfl⟩

theorem Ends.congr {n : Nat} {kind : Option Kind} (h : Ends env s n d kind)
    (hbase : d.base = d'.base) : Ends env s n d' kind := by
  cases h with
  | here hb hdescribe hshape => exact .here (hbase ▸ hb) hdescribe hshape
  | beyond hb hdescribe hshape hends => exact .beyond (hbase ▸ hb) hdescribe hshape hends

/-- One step of a walk through bases. -/
theorem basesFrom_succ {fuel : Nat} {seen : List Identity} {t : Token}
    (hbase : d.base = some t) :
    env.basesFrom (fuel + 1) seen d = do
      let b ← env.describe t
      if seen.any b.identity.same then return []
      else if b.shape ≠ .object then return [b]
      else return b :: (← env.basesFrom fuel (b.identity :: seen) b) := by
  rw [Environment.basesFrom, hbase]

/-- A walk through bases that comes to a leaf has found the end. -/
theorem ends_of_basesFrom {fuel : Nat} {seen : List Identity} {bases : List Descriptor}
    {b : Descriptor} {w w' : Walk} (h : env.basesFrom fuel seen d w = .ok bases w')
    (hs : w'.session.Below s) (hlast : bases.getLast? = some b) (hshape : b.shape = .primitive) :
    ∃ n, n < fuel ∧ Ends env s n d b.kind := by
  induction fuel generalizing seen d bases w with
  | zero =>
    obtain ⟨rfl, -⟩ := pure_eq_ok.mp h
    cases hlast
  | succ fuel ih =>
    cases hbase : d.base with
    | none =>
      unfold Environment.basesFrom at h
      rw [hbase] at h
      obtain ⟨rfl, -⟩ := pure_eq_ok.mp h
      cases hlast
    | some t =>
      rw [basesFrom_succ hbase] at h
      obtain ⟨x, w₁, hx, hrest⟩ := bind_eq_ok.mp h
      have hdescribe {w₂ : Walk} (hw : w₁.Learns env w₂) (hs : w₂.session.Below s) :
          s.Settles (env.describe t) x :=
        (Environment.reads_describe t).settles_of_below hx (hw.below.trans hs)
      split at hrest
      · obtain ⟨rfl, -⟩ := pure_eq_ok.mp hrest
        cases hlast
      split at hrest
      · obtain ⟨rfl, rfl⟩ := pure_eq_ok.mp hrest
        cases hlast
        exact ⟨0, Nat.succ_pos _, .here hbase (hdescribe (.refl _) hs) hshape⟩
      next hobject =>
        obtain ⟨more, w₂, hmore, hend⟩ := bind_eq_ok.mp hrest
        have hlearns := (Environment.reads_basesFrom fuel (x.identity :: seen) x).learns.ok hmore
        obtain ⟨rfl, rfl⟩ := pure_eq_ok.mp hend
        replace hobject : x.shape = .object := not_not.mp hobject
        cases more with
        | nil =>
          cases hlast
          cases hobject.symm.trans hshape
        | cons y more =>
          rw [List.getLast?_cons_cons] at hlast
          obtain ⟨n, hn, hends⟩ := ih hmore hlast
          exact ⟨n + 1, Nat.succ_lt_succ hn, .beyond hbase (hdescribe hlearns hs) hobject hends⟩

/-- A type whose identity has been seen is among those that were seen. -/
theorem exists_of_seen (hw : s.WellRead env) {t : Token} {seen : List Identity}
    (hdescribe : s.Settles (env.describe t) d) (hany : seen.any d.identity.same = true)
    {P : Descriptor → Prop}
    (hseen : ∀ i ∈ seen, ∃ x, x.identity = i ∧ (∃ t, s.Settles (env.describe t) x) ∧ P x) :
    P d := by
  obtain ⟨i, hi, hsame⟩ := List.any_eq_true.mp hany
  obtain ⟨x, rfl, ⟨t', ht'⟩, hx⟩ := hseen i hi
  rwa [eq_of_identity hw hdescribe ht' hsame]

/-- A walk through bases comes to the leaf at their end.  It is not cut short by a base that it
has seen, since bases that come back to one of them do not end. -/
theorem basesFrom_of_ends (hw : s.WellRead env) {fuel n : Nat} {kind : Option Kind}
    {seen : List Identity} (h : Ends env s n d kind) (hfuel : n < fuel)
    (hseen : ∀ i ∈ seen, ∃ x, x.identity = i ∧ (∃ t, s.Settles (env.describe t) x) ∧
      x.shape ≠ .primitive ∧ ∃ m kind', Ends env s m x kind' ∧ n ≤ m) :
    ∃ bases b, env.basesFrom fuel seen d ⟨s, []⟩ = .ok bases ⟨s, []⟩ ∧
      bases.getLast? = some b ∧ b.shape = .primitive ∧ b.kind = kind := by
  induction fuel generalizing n d seen with
  | zero => cases hfuel
  | succ fuel ih =>
    cases h with
    | @here _ b t hbase hdescribe hshape =>
      rw [basesFrom_succ hbase]
      refine ⟨[b], b, ?_, rfl, hshape, rfl⟩
      rw [bind_of_ok (hdescribe ⟨s, []⟩ (.refl s)), if_neg, if_pos]
      · rfl
      · rw [hshape]
        exact nofun
      · intro hany
        exact (exists_of_seen hw hdescribe hany hseen).1 hshape
    | @beyond _ b t n _ hbase hdescribe hshape hends =>
      rw [basesFrom_succ hbase]
      have hseen' : ∀ i ∈ b.identity :: seen, ∃ x, x.identity = i ∧
          (∃ t, s.Settles (env.describe t) x) ∧ x.shape ≠ .primitive ∧
          ∃ m kind', Ends env s m x kind' ∧ n ≤ m := by
        intro i hi
        rcases List.mem_cons.mp hi with rfl | hi
        · refine ⟨b, rfl, ⟨t, hdescribe⟩, ?_, n, kind, hends, Nat.le_refl n⟩
          rw [hshape]
          exact nofun
        · obtain ⟨x, hid, hx, hprim, m, kind', hm, hle⟩ := hseen i hi
          exact ⟨x, hid, hx, hprim, m, kind', hm, Nat.le_of_succ_le hle⟩
      obtain ⟨bases, b', hbases, hlast, hb', hkind⟩ :=
        ih hends (Nat.lt_of_succ_lt_succ hfuel) hseen'
      refine ⟨b :: bases, b', ?_, ?_, hb', hkind⟩
      · rw [bind_of_ok (hdescribe ⟨s, []⟩ (.refl s)), if_neg, if_neg, bind_of_ok hbases]
        · rfl
        · exact not_not.mpr hshape
        · intro hany
          obtain ⟨-, m, kind', hm, hle⟩ := exists_of_seen hw hdescribe hany hseen
          have := (hends.unique hm rfl).1
          omega
      · rw [List.getLast?_cons, hlast]
        rfl

/-- Descriptors of one type have bases that end at one kind of leaf. -/
theorem settles_primitiveKind_of_alike (hw : s.WellRead env) (h : d.Alike d')
    (hknows' : s.Knows env d') (hshape : d.shape.isInline = false) {kind : Kind}
    {kind' : Option Kind} (hkind : s.Settles (env.primitiveKind d) (some kind))
    (hkind' : s.Settles (env.primitiveKind d') kind') : kind' = some kind := by
  have hbase : d.base = d'.base := by rw [h]
  have hrun := hkind ⟨s, []⟩ (.refl s)
  unfold Environment.primitiveKind at hrun
  split at hrun
  · cases (pure_eq_ok.mp hrun).1
  next hsome =>
    obtain ⟨bases, w, hbases, hlast⟩ := bind_eq_ok.mp hrun
    cases hb : bases.getLast? with
    | none =>
      rw [hb] at hlast
      cases (pure_eq_ok.mp hlast).1
    | some b =>
      rw [hb] at hlast
      obtain ⟨hif, rfl⟩ := pure_eq_ok.mp hlast
      split at hif
      next hprimitive =>
        obtain ⟨n, hn, hends⟩ := ends_of_basesFrom hbases (.refl s) hb hprimitive
        have hends' := hends.congr hbase
        have hshape' : d'.shape ≠ .primitive := by
          intro hp
          rw [h] at hp
          rw [hp] at hshape
          cases hshape
        have hseen : ∀ i ∈ [d'.identity], ∃ x, x.identity = i ∧
            (∃ t, s.Settles (env.describe t) x) ∧ x.shape ≠ .primitive ∧
            ∃ m kind', Ends env s m x kind' ∧ n ≤ m := by
          intro i hi
          rw [List.mem_singleton.mp hi]
          exact ⟨d', rfl, hknows'.described, hshape', n, _, hends', Nat.le_refl n⟩
        obtain ⟨bases', b', hbases', hlast', hp', hk'⟩ := basesFrom_of_ends hw hends' hn hseen
        have hrun' : env.primitiveKind d' ⟨s, []⟩ = .ok b.kind ⟨s, []⟩ := by
          unfold Environment.primitiveKind
          rw [if_neg (hbase ▸ hsome)]
          unfold Environment.baseChain
          rw [bind_of_ok hbases', hlast']
          simp only [hp', if_true, hk']
          rfl
        have hrun'' := hkind' ⟨s, []⟩ (.refl s)
        rw [hrun'] at hrun''
        injection hrun'' with heq
        rw [← heq, ← hif]
      next => cases hif

/-! ## Descriptors of one type agree -/

namespace Descriptor.Alike

variable (hw : s.WellRead env) (h : d.Alike d') (hknows : s.Knows env d)
  (hknows' : s.Knows env d')

include h in
theorem shape : d'.shape = d.shape := by
  rw [h]

include h in
theorem name : d'.name = d.name := by
  rw [h]

include h in
theorem base : d'.base = d.base := by
  rw [h]

include h in
theorem properties : d'.properties = d.properties := by
  rw [h]

include h in
theorem annotations : d'.annotations = d.annotations := by
  rw [h]

include hw h hknows hknows'

theorem primitiveKind (hshape : d.shape.isInline = false) {kind : Option Kind}
    (hkind : s.Settles (env.primitiveKind d) kind) :
    s.Settles (env.primitiveKind d') kind := by
  have hshape' : d'.shape.isInline = false := by rw [h.shape, hshape]
  obtain ⟨kind', hkind'⟩ := hknows'.asked hshape'
  suffices heq : kind' = kind by rwa [heq] at hkind'
  cases kind with
  | some k => exact settles_primitiveKind_of_alike hw h hknows' hshape hkind hkind'
  | none =>
    cases kind' with
    | none => rfl
    | some k => exact (settles_primitiveKind_of_alike hw h.symm hknows hshape' hkind' hkind).symm

theorem published (hd : Published env s d) : Published env s d' := by
  refine ⟨by rw [h.shape, hd.shape], h.primitiveKind hw hknows hknows' hd.shape hd.kind, ?_⟩
  rw [h.base, h.properties, h.annotations]
  exact hd.base

theorem arrayed (hd : Arrayed env s d) : Arrayed env s d' := by
  refine ⟨by rw [h.shape, hd.shape], h.primitiveKind hw hknows hknows' hd.shape hd.kind, ?_, ?_, ?_⟩
  · rw [h.base]
    exact hd.base
  · rw [h.properties]
    exact hd.properties
  · rw [h.annotations]
    exact hd.array

theorem partOf {t : Token} (hd : PartOf env s d t) : PartOf env s d' t := by
  cases hd with
  | inner hshape =>
    have hinner : d'.inner = d.inner := by rw [h]
    rw [← hinner]
    exact .inner (by rw [h.shape]; exact hshape)
  | value hshape =>
    have hinner : mapInner d' = mapInner d := by rw [h]; rfl
    rw [← hinner]
    exact .value (by rw [h.shape]; exact hshape)
  | base hshape hkind hbase =>
    exact .base (by rw [h.shape]; exact hshape) (h.primitiveKind hw hknows hknows' hshape hkind)
      (by rw [h]; exact hbase)
  | @property q hkind hobject hq =>
    have hshape : d.shape.isInline = false := by
      rcases hobject with hobject | harrayed
      · rw [hobject]
        rfl
      · exact harrayed.shape
    refine .property (h.primitiveKind hw hknows hknows' hshape hkind) ?_ (by rw [h]; exact hq)
    rcases hobject with hobject | harrayed
    · exact .inl (by rw [h.shape]; exact hobject)
    · exact .inr (h.arrayed hw hknows hknows' harrayed)

end Descriptor.Alike

/-! ## Kinds of types -/

theorem Arrayed.not_published (h : Arrayed env s d) : ¬ Published env s d := by
  intro hd
  rcases hd.base with hbase | ⟨_, c, hmerge, harray⟩
  · exact h.base hbase
  · obtain ⟨c', hmerge', harray'⟩ := h.array
    cases hmerge.symm.trans hmerge'
    cases harray.symm.trans harray'

theorem settles_primitiveKind_of_root (hbase : d.base = none) :
    s.Settles (env.primitiveKind d) none := by
  intro w _
  unfold Environment.primitiveKind
  rw [hbase]
  rfl

theorem published_of_root (hshape : d.shape.isInline = false) (hbase : d.base = none) :
    Published env s d :=
  ⟨hshape, settles_primitiveKind_of_root hbase, .inl hbase⟩

theorem published_of_derived {base : Token} {c : Constraints} (h : Derived env s d base c)
    (harray : c.array = false) : Published env s d :=
  ⟨h.shape, h.kind, .inr ⟨h.properties, c, h.merge, harray⟩⟩

theorem arrayed_of_derived {base : Token} {c : Constraints} (h : Derived env s d base c)
    (harray : c.array = true) : Arrayed env s d :=
  ⟨h.shape, h.kind, by rw [h.base]; exact nofun, h.properties, c, h.merge, harray⟩

theorem settles_isInline_false (h : s.Settles (env.isInline d) false) :
    d.shape.isInline = false ∧ s.Settles (env.primitiveKind d) none := by
  rcases Environment.isInline_eq_ok.mp (h ⟨s, []⟩ (.refl s)) with ⟨_, ⟨⟩, _⟩ | ⟨hshape, k, hk, hb⟩
  refine ⟨hshape, ?_⟩
  cases k with
  | none => exact (Environment.reads_primitiveKind d).settles hk
  | some k => cases hb

theorem settles_isInline {kind : Option Kind} (hshape : d.shape.isInline = false)
    (h : s.Settles (env.primitiveKind d) kind) : s.Settles (env.isInline d) kind.isSome := by
  intro w hw
  exact Environment.isInline_eq_ok.mpr (.inr ⟨hshape, kind, h w hw, rfl⟩)

/-- A type that is known and has been asked whether it is published in place is known in full. -/
theorem knows_of_isInline {b : Bool} (hd : ∃ t, s.Settles (env.describe t) d)
    (h : s.Settles (env.isInline d) b) : s.Knows env d := by
  refine ⟨hd, fun hshape => ?_⟩
  cases b with
  | true =>
    obtain ⟨kind, hkind⟩ := Environment.exists_settles_primitiveKind h hshape
    exact ⟨_, hkind⟩
  | false => exact ⟨_, (settles_isInline_false h).2⟩

/-- A type that is published in place is not published by name. -/
theorem not_published_of_inline (h : s.Settles (env.isInline d) true) :
    ¬ Published env s d := by
  intro hpub
  obtain ⟨kind, hkind⟩ := Environment.exists_settles_primitiveKind h hpub.shape
  cases hpub.kind.unique hkind

/-- What is asked before a type is composed in place. -/
theorem settles_publishesArray {b : Bool} (h : s.Settles (env.publishesArray d) b)
    (hshape : d.shape.isInline = false) : b = true ↔ Arrayed env s d := by
  have hrun := h ⟨s, []⟩ (.refl s)
  unfold Environment.publishesArray at hrun
  split at hrun
  next hnone =>
    obtain ⟨rfl, -⟩ := pure_eq_ok.mp hrun
    refine ⟨nofun, fun ha => ?_⟩
    rcases Bool.or_eq_true _ _ ▸ hnone with hbase | hprops
    · exact absurd (Option.isNone_iff_eq_none.mp hbase) ha.base
    · exact absurd (List.isEmpty_iff.mp hprops) ha.properties
  next hsome =>
    obtain ⟨kind, w, hkind, hrest⟩ := bind_eq_ok.mp hrun
    have hlearns := (Environment.reads_primitiveKind d).learns.ok hkind
    simp only [Bool.or_eq_true, not_or, Option.isNone_iff_eq_none, List.isEmpty_iff] at hsome
    split at hrest
    next hleaf =>
      obtain ⟨rfl, rfl⟩ := pure_eq_ok.mp hrest
      refine ⟨nofun, fun ha => ?_⟩
      have hsettles := (Environment.reads_primitiveKind d).settles hkind
      rw [hsettles.unique ha.kind] at hleaf
      cases hleaf
    next hleaf =>
      obtain ⟨c, w', hc, hend⟩ := bind_eq_ok.mp hrest
      obtain ⟨hmerge, rfl⟩ := Build.lift_eq_ok.mp hc
      obtain ⟨rfl, rfl⟩ := pure_eq_ok.mp hend
      have hsettles := (Environment.reads_primitiveKind d).settles hkind
      rw [Option.not_isSome_iff_eq_none.mp hleaf] at hsettles
      constructor
      · exact fun harray => ⟨hshape, hsettles, hsome.1, hsome.2, c, hmerge, harray⟩
      · rintro ⟨_, _, _, _, c', hmerge', harray⟩
        cases hmerge.symm.trans hmerge'
        exact harray

/-- A type that is published by name is not visited, if a visited type is composed in place. -/
theorem Published.not_visited (h : Published env s d) {visited : Bool}
    (harray : visited = true → s.Settles (env.publishesArray d) true) : visited = false := by
  refine Bool.eq_false_iff.mpr fun hvisited => ?_
  exact ((settles_publishesArray (harray hvisited) h.shape).mp rfl).not_published h

/-- A type that is composed in place is not visited, if a visited type is not composed so. -/
theorem Arrayed.not_visited (h : Arrayed env s d) {visited : Bool}
    (harray : visited = true → s.Settles (env.publishesArray d) false) : visited = false := by
  refine Bool.eq_false_iff.mpr fun hvisited => ?_
  cases (settles_publishesArray (harray hvisited) h.shape).mpr h

/-- A type that is published by name and no enumeration is an object. -/
theorem Published.eq_object (h : Published env s d) (hshape : d.shape ≠ .enum) :
    d.shape = .object := by
  have hinline := h.shape
  cases hd : d.shape with
  | object => rfl
  | enum => exact absurd hd hshape
  | primitive | nullable | array | map | unknown =>
    rw [hd] at hinline
    cases hinline

/-! ## Parts -/

theorem partOf_inline {t : Token} (hshape : d.shape.isInline = true) (h : PartOf env s d t) :
    ((d.shape = .nullable ∨ d.shape = .array) ∧ t = d.inner) ∨
      (d.shape = .map ∧ t = mapInner d) := by
  cases h with
  | inner h => exact .inl ⟨h, rfl⟩
  | value h => exact .inr ⟨h, rfl⟩
  | base h => cases hshape.symm.trans h
  | property _ hobject =>
    rcases hobject with hobject | harrayed
    · rw [hobject] at hshape
      cases hshape
    · cases hshape.symm.trans harrayed.shape

theorem partOf_named {t : Token} (hshape : d.shape.isInline = false) (h : PartOf env s d t) :
    s.Settles (env.primitiveKind d) none ∧ (d.base = some t ∨
      (d.shape = .object ∨ Arrayed env s d) ∧ ∃ q ∈ d.properties, t = q.type) := by
  cases h with
  | inner h =>
    rcases h with h | h <;> rw [h] at hshape <;> cases hshape
  | value h =>
    rw [h] at hshape
    cases hshape
  | base _ hkind hbase => exact ⟨hkind, .inl hbase⟩
  | property hkind hobject hq => exact ⟨hkind, .inr ⟨hobject, _, hq, rfl⟩⟩

/-- Leaves have no parts. -/
theorem not_partOf_of_leaf {t : Token} (hshape : d.shape = .primitive ∨ d.shape = .unknown) :
    ¬ PartOf env s d t := by
  intro ht
  have hinline : d.shape.isInline = true := by
    rcases hshape with hshape | hshape <;> rw [hshape] <;> rfl
  rcases partOf_inline hinline ht with ⟨h | h, _⟩ | ⟨h, _⟩ <;> rw [h] at hshape <;>
    rcases hshape with hshape | hshape <;> cases hshape

theorem Plain.not_partOf {n : Node} {t : Token} (h : Plain env s d n) :
    ¬ PartOf env s d t := by
  intro ht
  cases h with
  | primitive hshape _ => exact not_partOf_of_leaf (.inl hshape) ht
  | unknown hshape _ => exact not_partOf_of_leaf (.inr hshape) ht
  | named hshape hkind _ => cases hkind.unique (partOf_named hshape ht).1

theorem Wraps.partOf {n node : Node} {t : Token} (h : Wraps env s d t n node) :
    PartOf env s d t := by
  cases h with
  | nullable hshape => exact .inner (.inl hshape)
  | array hshape _ => exact .inner (.inr hshape)
  | map hshape _ => exact .value hshape
  | renamed hshape hbase hkind _ _ => exact .base hshape hkind hbase

theorem Wraps.eq_of_partOf {n node : Node} {t t' : Token} (h : Wraps env s d t n node)
    (ht : PartOf env s d t') : t' = t := by
  cases h with
  | nullable hshape | array hshape _ =>
    rcases partOf_inline (by rw [hshape]; rfl) ht with ⟨_, rfl⟩ | ⟨h, _⟩
    · rfl
    · cases hshape.symm.trans h
  | map hshape _ =>
    rcases partOf_inline (by rw [hshape]; rfl) ht with ⟨h | h, _⟩ | ⟨_, rfl⟩
    · cases hshape.symm.trans h
    · cases hshape.symm.trans h
    · rfl
  | renamed hshape hbase _ _ hprops =>
    rcases (partOf_named hshape ht).2 with hbase' | ⟨_, q, hq, _⟩
    · exact Option.some.inj (hbase'.symm.trans hbase)
    · rw [hprops] at hq
      cases hq

/-- What only wraps another type has no entry, and is not composed in place. -/
theorem Wraps.not_published {n node : Node} {t : Token} (h : Wraps env s d t n node) :
    ¬ Published env s d ∧ ¬ Arrayed env s d := by
  cases h with
  | nullable hshape | array hshape _ | map hshape _ =>
    constructor <;> intro hd <;> have hshape' := hd.shape <;> rw [hshape] at hshape' <;>
      cases hshape'
  | renamed _ hbase _ _ hprops =>
    constructor
    · intro hd
      rcases hd.base with hbase' | ⟨hprops', _⟩
      · cases hbase.symm.trans hbase'
      · exact hprops' hprops
    · exact fun hd => hd.properties hprops

theorem Plain.not_published {n : Node} (h : Plain env s d n) : ¬ Published env s d := by
  intro hd
  cases h with
  | primitive hshape _ | unknown hshape _ =>
    have hshape' := hd.shape
    rw [hshape] at hshape'
    cases hshape'
  | named _ hkind _ => cases hkind.unique hd.kind

/-! ## Reaching -/

/-- A set of types that leads nowhere else. -/
def Hereditary (env : Environment) (s : Session) (E : Descriptor → Prop) : Prop :=
  ∀ {d d' : Descriptor}, E d → Points env s d d' → E d'

/-- What a type leads to leads nowhere else. -/
theorem hereditary_reaches (d : Descriptor) : Hereditary env s (Reaches env s d) :=
  fun h h' => h.tail h'

theorem Hereditary.of_reaches {E : Descriptor → Prop} (hE : Hereditary env s E) (hd : E d)
    (h : Reaches env s d d') : E d' := by
  induction h with
  | refl => exact hd
  | tail _ hpoints ih => exact hE ih hpoints

end Schemata
