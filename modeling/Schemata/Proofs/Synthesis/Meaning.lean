import Schemata.Proofs.Synthesis.Handmade
import Schemata.Proofs.Synthesis.Publication

/-!
# What a declaration is published as by itself

A session reads a type once, and types that are equal share the reading of the first.  Types can be
equal and still not read alike: a list of choices is equal to the same choices in another order.
What a session tells about a type may therefore depend on what it has read before.

`Environment.meaning` is what a token stands for by itself, and `Environment.lexicon` answers all
questions about types on the strength of that.  `Environment.publish` is what a declaration is
published as with these answers: there is no session in it.

A session tells the same (`publish_of_told`), where the types that it reads are types of a set that
leads nowhere else (`Session.Confined`), and equal types of the set read alike
(`Environment.ReadsAlike`): they may be spelled differently, and so may the types inside them, as
long as they are equal.  What stands inside a type is then the same but for a number of such
spellings (`Akin`), and nothing that is published depends on them.
-/

namespace Schemata

open Environment (mapInner)

/-! ## Meanings -/

/-- A leaf of some kind with constraints, or an array of such leaves where they say so. -/
def Constraints.leafOf (c : Constraints) (kind : Kind) : Node :=
  match c.apply kind.schema with
  | .leaf k type => if c.array then Environment.arrayOf k type else .leaf k type
  | n => n

namespace Environment

variable (env : Environment)

/-- **What a token stands for by itself**: a descriptor made by hand, or what is read off it. -/
def meaning : Token → Option Descriptor
  | .crafted i => some (env.handmade i)
  | t => (env.program.read env.kinds t.asType).toOption

/-- The bases of a type by what they stand for, nearest first, up to the first that is not an object
and as far as they are looked for. -/
def ancestry : Nat → Descriptor → List Descriptor
  | 0, _ => []
  | n + 1, d =>
    match d.base.bind env.meaning with
    | none => []
    | some b => if b.shape = .object then b :: ancestry n b else [b]

/-- The kind of leaf that some bases end at. -/
def leafKind (bases : List Descriptor) : Option Kind :=
  bases.getLast?.bind fun b => if b.shape = .primitive then b.kind else none

/-- The annotations of a type and of all its bases, furthest first. -/
def inherited (bases : List Descriptor) (d : Descriptor) : List Record :=
  bases.reverse.flatMap Descriptor.annotations ++ d.annotations

/-- **What types say by themselves.** -/
def lexicon : Lexicon where
  describe := env.meaning
  kind d := some (leafKind (env.ancestry env.baseFuel d))
  leaf d kind :=
    (Constraints.merge (inherited (env.ancestry env.baseFuel d) d)).toOption.map fun c =>
      c.leafOf kind
  capturing := env.captureDefaults

/-- **What a declaration is published as**, by what it says itself. -/
def publish (d : Descriptor) : Option Node :=
  env.lexicon.publish env.levels d

end Environment

/-- The types that a descriptor names. -/
inductive Descriptor.Names (d : Descriptor) : Token → Prop
  | inner (hshape : d.shape.isWrapper = true) : d.Names d.inner
  | value (hshape : d.shape = .map) : d.Names (mapInner d)
  | base {t : Token} (h : d.base = some t) : d.Names t
  | property {q : Property} (h : q ∈ d.properties) : d.Names q.type

/-- All types that a descriptor names are types of a set. -/
def Descriptor.Within (T : Token → Prop) (d : Descriptor) : Prop :=
  ∀ t, d.Names t → T t

/-- The same type, maybe spelled differently. -/
def Token.Equal (t t' : Token) : Prop :=
  t = t' ∨ t.asType.same t'.asType = true

/-- **Descriptors that agree in all that is published**, but for the types inside them, which are in
a relation.  A type that is never published by name may go by another one. -/
structure Descriptor.Resembles (r : Token → Token → Prop) (d d' : Descriptor) : Prop where
  rest : d' = { d with
    identity := d'.identity, source := d'.source, name := d'.name, inner := d'.inner }
  name : d.shape.isInline = false → d'.name = d.name
  inner : d.shape.isWrapper = true → r d.inner d'.inner
  value : d.shape = .map → r (mapInner d) (mapInner d')

namespace Environment

/-- A set of types that leads nowhere else. -/
def Closed (env : Environment) (T : Token → Prop) : Prop :=
  ∀ t d, T t → env.meaning t = some d → d.Within T

/-- **What some types concern**: themselves, and the types that are named by what these stand
for. -/
inductive Concerns (env : Environment) (R : Token → Prop) : Token → Prop
  | asked {t : Token} (h : R t) : Concerns env R t
  | named {t u : Token} {d : Descriptor} (ht : Concerns env R t) (hd : env.meaning t = some d)
      (hu : d.Names u) : Concerns env R u

/-- **Equal types of a set read alike.** -/
def ReadsAlike (env : Environment) (T : Token → Prop) : Prop :=
  ∀ t t' d, T t → T t' → t.asType.same t'.asType = true → env.meaning t = some d →
    ∃ d', env.meaning t' = some d' ∧ d.Resembles Token.Equal d'

theorem ancestry_succ {env : Environment} {d b : Descriptor} (n : Nat)
    (h : d.base.bind env.meaning = some b) : env.ancestry (n + 1) d =
      if b.shape = .object then b :: env.ancestry n b else [b] := by
  rw [ancestry, h]

theorem namedLeaf_eq (env : Environment) (d : Descriptor) (kind : Kind) :
    env.namedLeaf d kind = (do
      let bases ← env.baseChain d
      let c ← Build.lift (Constraints.merge (inherited bases d))
      return c.leafOf kind) := by
  unfold namedLeaf
  refine bind_congr fun bases => bind_congr fun c => ?_
  unfold Constraints.leafOf
  cases c.apply kind.schema <;> rfl

theorem ancestry_of_root {env : Environment} {d : Descriptor} (n : Nat) (h : d.base = none) :
    env.ancestry n d = [] := by
  cases n with
  | zero => rfl
  | succ n => rw [ancestry, h, Option.bind_none]

theorem leafKind_eq_none {bases : List Descriptor}
    (h : ∀ b, bases.getLast? = some b → b.shape ≠ .primitive) : leafKind bases = none := by
  unfold leafKind
  cases hlast : bases.getLast? with
  | none => rfl
  | some b => exact if_neg (h b hlast)

theorem closed_concerns (env : Environment) (R : Token → Prop) : env.Closed (env.Concerns R) :=
  fun _ _ ht hd _ hu => .named ht hd hu

end Environment

/-- Equal types, and types that are equal to these in turn, all of them of a set. -/
def Akin (T : Token → Prop) : Token → Token → Prop :=
  Relation.ReflTransGen fun t t' => T t ∧ T t' ∧ t.Equal t'

/-- **A session that has read types of a set only.** -/
structure Session.Confined (env : Environment) (T : Token → Prop) (s : Session) : Prop where
  wellRead : s.WellRead env
  readings : ∀ e ∈ s.readings, ∃ t, T t ∧ e.1 = t.asType

variable {env : Environment} {s : Session} {T : Token → Prop} {d d' d'' b : Descriptor}
  {t t' : Token} {n : Nat} {w w' : Walk}

theorem PartOf.names (h : PartOf env s d t) : d.Names t := by
  cases h with
  | inner hshape => exact .inner (by rcases hshape with h | h <;> rw [h] <;> rfl)
  | value hshape => exact .value hshape
  | base _ _ h => exact .base h
  | property _ _ h => exact .property h

/-! ## Descriptors that resemble one another -/

namespace Descriptor

theorem Alike.names (h : d.Alike d') (ht : d'.Names t) : d.Names t := by
  rw [h] at ht
  cases ht with
  | inner hshape => exact .inner hshape
  | value hshape => exact .value hshape
  | base h => exact .base h
  | property h => exact .property h

namespace Resembles

variable {r r' : Token → Token → Prop} (h : d.Resembles r d')

theorem of_alike (hr : ∀ t, r t t) (h : d.Alike d') : d.Resembles r d' := by
  rw [h]
  exact ⟨rfl, fun _ => rfl, fun _ => hr _, fun _ => hr _⟩

include h

theorem shape : d'.shape = d.shape := by
  rw [h.rest]

theorem mono (hr : ∀ {t t'}, d.Names t → d'.Names t' → r t t' → r' t t') :
    d.Resembles r' d' where
  rest := h.rest
  name := h.name
  inner hshape := hr (.inner hshape) (.inner (h.shape ▸ hshape)) (h.inner hshape)
  value hshape := hr (.value hshape) (.value (h.shape.trans hshape)) (h.value hshape)

theorem kind : d'.kind = d.kind := by
  rw [h.rest]

theorem base : d'.base = d.base := by
  rw [h.rest]

theorem members : d'.members = d.members := by
  rw [h.rest]

theorem properties : d'.properties = d.properties := by
  rw [h.rest]

theorem annotations : d'.annotations = d.annotations := by
  rw [h.rest]

theorem uniqueItems : d'.uniqueItems = d.uniqueItems := by
  rw [h.rest]

theorem made : d'.made = d.made := by
  rw [h.rest]
  rfl

theorem trans (hr : ∀ {a b c}, r a b → r b c → r a c) (h' : d'.Resembles r d'') :
    d.Resembles r d'' where
  rest := by
    rw [h'.rest, h.rest]
  name hshape := by
    rw [h'.name (h.shape ▸ hshape), h.name hshape]
  inner hshape := hr (h.inner hshape) (h'.inner (h.shape ▸ hshape))
  value hshape := hr (h.value hshape) (h'.value (h.shape.trans hshape))

end Resembles

end Descriptor

/-! ## What a session reads -/

/-- Nothing but itself is the same as a descriptor made by hand. -/
theorem Token.eq_of_same_crafted {i : Nat} (h : (Token.crafted i).same t = true) :
    t = .crafted i := by
  cases t with
  | crafted j => rw [eq_of_beq (show (i == j) = true from h)]
  | _ => cases h

theorem Environment.meaning_eq (ht : ∀ i, t ≠ .crafted i) :
    env.meaning t = (env.program.read env.kinds t.asType).toOption := by
  cases t with
  | crafted i => exact absurd rfl (ht i)
  | _ => rfl

/-- A type that can be read is described. -/
theorem exists_describe (h : env.meaning t = some d) (w : Walk) :
    ∃ b w', env.describe t w = .ok b w' := by
  by_cases hcrafted : ∃ i, t = .crafted i
  · obtain ⟨i, rfl⟩ := hcrafted
    exact ⟨_, w, rfl⟩
  have hne (i : Nat) : t ≠ .crafted i := fun hi => hcrafted ⟨i, hi⟩
  rw [Environment.meaning_eq hne] at h
  cases hread : env.program.read env.kinds t.asType with
  | error e =>
    rw [hread] at h
    cases h
  | ok d₀ =>
    rw [Environment.describe_eq env hne]
    split
    next =>
      rw [bind_of_ok (Build.asks_eq_ok.mpr ⟨rfl, rfl⟩)]
      cases w.session.readings.find? fun e => e.1.same t.asType with
      | some e => exact ⟨e.2, w, rfl⟩
      | none => exact ⟨_, _, Environment.readNew_eq_ok.mpr ⟨d₀, hread, rfl, rfl⟩⟩
    next =>
      rw [hread]
      exact ⟨_, w, rfl⟩

namespace Session.Confined

/-- A confined session stays so when a type of the set is described. -/
theorem describe (hs : w.session.Confined env T) (ht : T t) :
    (after (env.describe t) w).session.Confined env T := by
  have hreads : Build.Reads env (env.describe t) := Environment.reads_describe t
  have hlearns := hreads.learns w
  refine ⟨hlearns.session.wellRead hs.wellRead, ?_⟩
  by_cases hcrafted : ∃ i, t = .crafted i
  · obtain ⟨i, rfl⟩ := hcrafted
    exact hs.readings
  rw [Environment.describe_eq env fun i hi => hcrafted ⟨i, hi⟩]
  split
  next =>
    unfold after
    rw [bind_of_ok (Build.asks_eq_ok.mpr ⟨rfl, rfl⟩)]
    cases w.session.readings.find? fun e => e.1.same t.asType with
    | some e => exact hs.readings
    | none =>
      dsimp only
      unfold Environment.readNew
      cases env.program.read env.kinds t.asType with
      | error e => exact hs.readings
      | ok d₀ =>
        intro e he
        rcases List.mem_append.mp he with he | he
        · exact hs.readings e he
        · rw [List.mem_singleton.mp he]
          exact ⟨t, ht, rfl⟩
  next =>
    cases env.program.read env.kinds t.asType <;> exact hs.readings

/-- **What a type of the set is described as is what an equal type of the set stands for.** -/
theorem exists_meaning (hs : s.Confined env T) (ht : T t) (h : s.Settles (env.describe t) b) :
    ∃ u b₀, T u ∧ u.Equal t ∧ env.meaning u = some b₀ ∧ b₀.Alike b := by
  by_cases hcrafted : ∃ i, t = .crafted i
  · obtain ⟨i, rfl⟩ := hcrafted
    obtain ⟨rfl, -⟩ := pure_eq_ok.mp (h ⟨s, []⟩ (.refl s))
    exact ⟨_, _, ht, .inl rfl, rfl, rfl⟩
  have hne (i : Nat) : t ≠ .crafted i := fun hi => hcrafted ⟨i, hi⟩
  rw [← Environment.describe_asType] at h
  obtain ⟨a, d₀, ha, hread, halike⟩ := exists_read_of_describe hs.wellRead
    (fun i => Token.asType_ne_crafted (hne i)) t.asType_asType h
  rcases ha with rfl | ⟨hsame, hmem⟩
  · refine ⟨t, d₀, ht, .inl rfl, ?_, halike⟩
    rw [Environment.meaning_eq hne, hread]
    rfl
  · obtain ⟨u, hu, rfl⟩ := hs.readings _ hmem
    have hu' (i : Nat) : u ≠ .crafted i := by
      rintro rfl
      exact Token.asType_ne_crafted (hne i) (Token.eq_of_same_crafted hsame)
    refine ⟨u, d₀, hu, .inr hsame, ?_, halike⟩
    rw [Environment.meaning_eq hu', hread]
    rfl

end Session.Confined

/-! ## Graphs made by hand -/

namespace Environment.Linked

variable {R : Token → Prop} (hlinked : env.Linked)
include hlinked

/-- Descriptors made by hand concern nothing else. -/
theorem exists_of_concerns (hR : ∀ t, R t → ∃ i, i < env.size ∧ t = .crafted i)
    (h : env.Concerns R t) : ∃ i, i < env.size ∧ t = .crafted i := by
  induction h with
  | asked h => exact hR _ h
  | named _ hd hu ih =>
    obtain ⟨i, hi, rfl⟩ := ih
    cases hd
    refine hlinked.exists_of_mem hi ?_
    cases hu with
    | inner hshape => exact Descriptor.inner_mem_tokens hshape
    | base h => exact Descriptor.base_mem_tokens h
    | property h => exact Descriptor.type_mem_tokens h
    | value hshape =>
      have hmem := Descriptor.inner_mem_tokens (d := env.handmade i) (by rw [hshape]; rfl)
      obtain ⟨j, -, hj⟩ := hlinked.exists_of_mem hi hmem
      rw [mapInner, hj]
      rw [hj] at hmem
      exact hmem

/-- **Descriptors made by hand read alike**: no two of them are equal. -/
theorem readsAlike (hR : ∀ t, R t → ∃ i, i < env.size ∧ t = .crafted i) :
    env.ReadsAlike (env.Concerns R) := by
  intro t t' d ht ht' hsame hd
  obtain ⟨i, -, rfl⟩ := hlinked.exists_of_concerns hR ht
  obtain ⟨j, -, rfl⟩ := hlinked.exists_of_concerns hR ht'
  cases Token.eq_of_same_crafted hsame
  exact ⟨d, hd, .of_alike (fun _ => .inl rfl) (.refl d)⟩

end Environment.Linked

/-! ## What equal types stand for -/

section

variable (hclosed : env.Closed T) (halike : env.ReadsAlike T)

theorem Akin.refl (t : Token) : Akin T t t :=
  Relation.ReflTransGen.refl

theorem Akin.of_equal (ht : T t) (ht' : T t') (h : t.Equal t') : Akin T t t' :=
  .single ⟨ht, ht', h⟩

include hclosed halike

/-- **Types that are akin stand for descriptors that resemble one another.** -/
theorem Akin.exists_meaning (h : Akin T t t') (hd : env.meaning t = some d) :
    ∃ d', env.meaning t' = some d' ∧ d.Resembles (Akin T) d' := by
  induction h with
  | refl => exact ⟨d, hd, .of_alike .refl (.refl d)⟩
  | tail _ hstep ih =>
    obtain ⟨x, hx, hresembles⟩ := ih
    obtain ⟨hu, ht', heq⟩ := hstep
    rcases heq with rfl | hsame
    · exact ⟨x, hx, hresembles⟩
    obtain ⟨d', hd', hlike⟩ := halike _ _ _ hu ht' hsame hx
    have hwithin : x.Within T := hclosed _ _ hu hx
    have hwithin' : d'.Within T := hclosed _ _ ht' hd'
    exact ⟨d', hd', hresembles.trans Relation.ReflTransGen.trans (hlike.mono
      fun hv hv' => .of_equal (hwithin _ hv) (hwithin' _ hv'))⟩

/-- **What a type is described as resembles what a type akin to it stands for.** -/
theorem Akin.exists_of_describe (hs : s.Confined env T) (ht : T t) (h : Akin T t t')
    (hb : s.Settles (env.describe t) b) :
    ∃ b', env.meaning t' = some b' ∧ b.Resembles (Akin T) b' ∧ b.Within T := by
  obtain ⟨u, b₀, hu, heq, hmeaning, hb₀⟩ := hs.exists_meaning ht hb
  obtain ⟨b', hb', hresembles⟩ := Akin.exists_meaning hclosed halike
    ((Akin.of_equal hu ht heq).trans h) hmeaning
  refine ⟨b', hb', ?_, fun v hname => hclosed _ _ hu hmeaning v (hb₀.names hname)⟩
  exact (Descriptor.Resembles.of_alike .refl hb₀.symm).trans Relation.ReflTransGen.trans hresembles

/-! ## Where bases end -/

/-- **A walk through bases that comes to a leaf goes through the ancestry** of a descriptor with
the same base. -/
theorem forall₂_ancestry (hs : s.Confined env T) {fuel : Nat} {seen : List Identity}
    {bases : List Descriptor} (hbase : d'.base = d.base) (hd : ∀ t, d.base = some t → T t)
    (h : env.basesFrom fuel seen d w = .ok bases w') (hbelow : w'.session.Below s)
    (hlast : bases.getLast? = some b) (hshape : b.shape = .primitive) :
    List.Forall₂ (Descriptor.Resembles (Akin T)) bases (env.ancestry fuel d') := by
  induction fuel generalizing seen d d' bases w with
  | zero =>
    obtain ⟨rfl, -⟩ := pure_eq_ok.mp h
    cases hlast
  | succ fuel ih =>
    cases hb : d.base with
    | none =>
      unfold Environment.basesFrom at h
      rw [hb] at h
      obtain ⟨rfl, -⟩ := pure_eq_ok.mp h
      cases hlast
    | some t =>
      rw [basesFrom_succ hb] at h
      obtain ⟨x, w₁, hx, hrest⟩ := bind_eq_ok.mp h
      have hreads : Build.Reads env (env.describe t) := Environment.reads_describe t
      -- the base of the other descriptor is what the base stands for by itself
      have hfound (hw₁ : w₁.session.Below s) :
          ∃ x', env.ancestry (fuel + 1) d' =
            (if x'.shape = Shape.object then x' :: env.ancestry fuel x' else [x']) ∧
              x.Resembles (Akin T) x' ∧ x.Within T := by
        obtain ⟨x', hx', hresembles, hwithin⟩ := Akin.exists_of_describe hclosed halike hs (hd t hb)
          (.refl t) (hreads.settles_of_below hx hw₁)
        refine ⟨x', Environment.ancestry_succ fuel ?_, hresembles, hwithin⟩
        rw [hbase, hb]
        exact hx'
      split at hrest
      · obtain ⟨rfl, -⟩ := pure_eq_ok.mp hrest
        cases hlast
      split at hrest
      next hobject =>
        obtain ⟨rfl, rfl⟩ := pure_eq_ok.mp hrest
        obtain ⟨x', hx', hresembles, -⟩ := hfound hbelow
        rw [hx', if_neg (hresembles.shape ▸ hobject)]
        exact .cons hresembles .nil
      next hobject =>
        obtain ⟨more, w₂, hmore, hend⟩ := bind_eq_ok.mp hrest
        have hlearns := (Environment.reads_basesFrom fuel (x.identity :: seen) x).learns.ok hmore
        obtain ⟨rfl, rfl⟩ := pure_eq_ok.mp hend
        replace hobject : x.shape = .object := not_not.mp hobject
        obtain ⟨x', hx', hresembles, hwithin⟩ := hfound (hlearns.below.trans hbelow)
        rw [hx', if_pos (hresembles.shape.trans hobject)]
        cases more with
        | nil =>
          cases hlast
          cases hobject.symm.trans hshape
        | cons y more =>
          rw [List.getLast?_cons_cons] at hlast
          exact .cons hresembles
            (ih hresembles.base (fun u hu => hwithin u (.base hu)) hmore hlast)

omit hclosed halike in
/-- The same kind of leaf, if the last of some bases is one. -/
theorem leafKind_of_forall₂ {r : Token → Token → Prop} {bases bases' : List Descriptor}
    (h : List.Forall₂ (Descriptor.Resembles r) bases bases') (hlast : bases.getLast? = some b)
    (hshape : b.shape = .primitive) : Environment.leafKind bases' = b.kind := by
  induction h with
  | nil => cases hlast
  | @cons x x' xs xs' hx hxs ih =>
    cases hxs with
    | nil =>
      cases hlast
      exact (if_pos (hx.shape.trans hshape)).trans hx.kind
    | @cons y y' ys ys' hy hys =>
      rw [List.getLast?_cons_cons] at hlast
      rw [Environment.leafKind, List.getLast?_cons_cons]
      exact ih hlast

omit hclosed halike in
/-- The same annotations, those of all bases included. -/
theorem inherited_of_forall₂ {r : Token → Token → Prop} {bases bases' : List Descriptor}
    (h : List.Forall₂ (Descriptor.Resembles r) bases bases')
    (hd : d'.annotations = d.annotations) :
    Environment.inherited bases d = Environment.inherited bases' d' := by
  have hmap : bases.map Descriptor.annotations = bases'.map Descriptor.annotations := by
    induction h with
    | nil => rfl
    | cons hx _ ih => rw [List.map_cons, List.map_cons, ih, hx.annotations]
  unfold Environment.inherited
  rw [hd, List.flatMap_def, List.flatMap_def, List.map_reverse, List.map_reverse, hmap]

omit hclosed halike in
theorem exists_leaf_of_primitiveKind {kind : Kind} {bases : List Descriptor}
    (h : s.Settles (env.primitiveKind d) (some kind)) (hbases : s.Settles (env.baseChain d) bases) :
    ∃ x, bases.getLast? = some x ∧ x.shape = .primitive := by
  have hrun := h ⟨s, []⟩ (.refl s)
  unfold Environment.primitiveKind at hrun
  split at hrun
  · cases (pure_eq_ok.mp hrun).1
  rw [bind_of_ok (hbases ⟨s, []⟩ (.refl s))] at hrun
  cases hlast : bases.getLast? with
  | none =>
    rw [hlast] at hrun
    cases (pure_eq_ok.mp hrun).1
  | some x =>
    rw [hlast] at hrun
    refine ⟨x, rfl, of_not_not fun hshape => ?_⟩
    have hkind := (pure_eq_ok.mp hrun).1
    rw [if_neg hshape] at hkind
    cases hkind

/-- **An ancestry that comes to a leaf** is one that a session finds when it has read enough. -/
theorem exists_ends (hs : s.Confined env T) {fuel : Nat} (hbase : d'.base = d.base)
    (hd : ∀ t, d.base = some t → T t) (hlast : (env.ancestry fuel d').getLast? = some b)
    (hshape : b.shape = .primitive) :
    ∃ S n kind, s.Below S ∧ S.WellRead env ∧ n < fuel ∧ Ends env S n d kind := by
  induction fuel generalizing s d d' with
  | zero => cases hlast
  | succ fuel ih =>
    cases hmeaning : d'.base.bind env.meaning with
    | none =>
      rw [Environment.ancestry, hmeaning] at hlast
      cases hlast
    | some x' =>
      obtain ⟨t, ht, hx'⟩ := Option.bind_eq_some_iff.mp hmeaning
      rw [Environment.ancestry_succ fuel hmeaning] at hlast
      have hb : d.base = some t := hbase ▸ ht
      obtain ⟨x, w, hx⟩ := exists_describe hx' ⟨s, []⟩
      have hreads : Build.Reads env (env.describe t) := Environment.reads_describe t
      have hbelow : s.Below w.session := (hreads.learns.ok hx).below
      have hw : w.session.Confined env T := by
        have hafter := Session.Confined.describe (w := ⟨s, []⟩) hs (hd t hb)
        rwa [after_of_ok hx] at hafter
      obtain ⟨y, hy, hresembles, hwithin⟩ := Akin.exists_of_describe hclosed halike hw (hd t hb)
        (.refl t) (hreads.settles hx)
      cases hx'.symm.trans hy
      split at hlast
      next hobject =>
        have hlast' : (env.ancestry fuel x').getLast? = some b := by
          cases hmore : (env.ancestry fuel x').getLast? with
          | none =>
            rw [List.getLast?_cons, hmore] at hlast
            cases hlast
            cases hobject.symm.trans hshape
          | some y =>
            rw [List.getLast?_cons, hmore] at hlast
            exact hlast
        obtain ⟨S, n, kind, hS, hwell, hn, hends⟩ :=
          ih hw hresembles.base (fun u hu => hwithin u (.base hu)) hlast'
        exact ⟨S, n + 1, kind, hbelow.trans hS, hwell, Nat.succ_lt_succ hn,
          .beyond hb ((hreads.settles hx).mono hS) (hresembles.shape ▸ hobject) hends⟩
      next =>
        cases hlast
        exact ⟨w.session, 0, x.kind, hbelow, hw.wellRead, Nat.succ_pos _,
          .here hb (hreads.settles hx) (hresembles.shape ▸ hshape)⟩

variable (hs : s.Confined env T) (hwithin : d.Within T) (hresembles : d.Resembles (Akin T) d')
include hs hwithin hresembles

/-- The bases of a type that ends at a leaf are those that it has by itself. -/
theorem forall₂_of_baseChain {bases : List Descriptor} (h : s.Settles (env.baseChain d) bases)
    (hlast : bases.getLast? = some b) (hshape : b.shape = .primitive) :
    List.Forall₂ (Descriptor.Resembles (Akin T)) bases (env.ancestry env.baseFuel d') :=
  forall₂_ancestry hclosed halike hs hresembles.base (fun u hu => hwithin u (.base hu))
    (h ⟨s, []⟩ (.refl s)) (.refl s) hlast hshape

/-- A type whose ancestry comes to a leaf has bases that do. -/
theorem exists_leaf_of_ancestry (hd : s.Describes env d) (hshape : d.shape ≠ .primitive)
    {bases : List Descriptor} (h : s.Settles (env.baseChain d) bases)
    (hlast : (env.ancestry env.baseFuel d').getLast? = some b) (hleaf : b.shape = .primitive) :
    ∃ x, bases.getLast? = some x ∧ x.shape = .primitive := by
  obtain ⟨S, n, kind, hS, hwell, hn, hends⟩ := exists_ends hclosed halike hs hresembles.base
    (fun u hu => hwithin u (.base hu)) hlast hleaf
  have hseen : ∀ i ∈ [d.identity], ∃ x, x.identity = i ∧ (∃ t, S.Settles (env.describe t) x) ∧
      x.shape ≠ .primitive ∧ ∃ m kind', Ends env S m x kind' ∧ n ≤ m := by
    intro i hi
    rw [List.mem_singleton.mp hi]
    exact ⟨d, rfl, hd.mono hS, hshape, n, kind, hends, Nat.le_refl n⟩
  obtain ⟨bases', x, hbases', hx, hprimitive, -⟩ := basesFrom_of_ends hwell hends hn hseen
  cases (h ⟨S, []⟩ hS).symm.trans hbases'
  exact ⟨x, hx, hprimitive⟩

/-- **The bases of a type end at the kind of leaf that they end at by themselves.** -/
theorem lexicon_kind (hd : s.Describes env d) (hshape : d.shape ≠ .primitive)
    {kind : Option Kind} (h : s.Settles (env.primitiveKind d) kind) :
    env.lexicon.kind d' = some kind := by
  refine congrArg some ?_
  have hrun := h ⟨s, []⟩ (.refl s)
  unfold Environment.primitiveKind at hrun
  split at hrun
  next hnone =>
    obtain ⟨rfl, -⟩ := pure_eq_ok.mp hrun
    have hroot : d'.base = none := hresembles.base.trans (Option.isNone_iff_eq_none.mp hnone)
    rw [Environment.ancestry_of_root _ hroot]
    rfl
  next hsome =>
    obtain ⟨bases, w, hbases, hkind⟩ := bind_eq_ok.mp hrun
    have hw : w = ⟨s, []⟩ ∧ kind = Environment.leafKind bases := by
      unfold Environment.leafKind
      cases hlast : bases.getLast? with
      | none | some b =>
        rw [hlast] at hkind
        exact (pure_eq_ok.mp hkind).symm.imp_left Eq.symm
    obtain ⟨rfl, rfl⟩ := hw
    have hchain : s.Settles (env.baseChain d) bases :=
      (Environment.reads_baseChain d).settles hbases
    by_cases hleaf : ∃ x, bases.getLast? = some x ∧ x.shape = .primitive
    · obtain ⟨x, hlast, hprimitive⟩ := hleaf
      rw [leafKind_of_forall₂ (forall₂_of_baseChain hclosed halike hs hwithin hresembles hchain
        hlast hprimitive) hlast hprimitive, Environment.leafKind, hlast]
      exact (if_pos hprimitive).symm
    · have hnot (b : Descriptor) (hlast : (env.ancestry env.baseFuel d').getLast? = some b) :
          b.shape ≠ .primitive := fun hprimitive => hleaf
        (exists_leaf_of_ancestry hclosed halike hs hwithin hresembles hd hshape hchain hlast
          hprimitive)
      rw [Environment.leafKind_eq_none hnot,
        Environment.leafKind_eq_none fun b hlast hprimitive => hleaf ⟨b, hlast, hprimitive⟩]

/-- **A type whose bases end at a leaf** is the leaf that it is by itself. -/
theorem lexicon_leaf {kind : Kind} {m : Node}
    (hkind : s.Settles (env.primitiveKind d) (some kind))
    (h : s.Settles (env.namedLeaf d kind) m) : env.lexicon.leaf d' kind = some m := by
  have hrun := h ⟨s, []⟩ (.refl s)
  rw [Environment.namedLeaf_eq] at hrun
  obtain ⟨bases, w, hbases, hrest⟩ := bind_eq_ok.mp hrun
  obtain ⟨c, w₁, hc, hend⟩ := bind_eq_ok.mp hrest
  obtain ⟨hmerge, rfl⟩ := Build.lift_eq_ok.mp hc
  obtain ⟨rfl, rfl⟩ := pure_eq_ok.mp hend
  have hchain : s.Settles (env.baseChain d) bases := (Environment.reads_baseChain d).settles hbases
  obtain ⟨x, hlast, hprimitive⟩ := exists_leaf_of_primitiveKind hkind hchain
  have hforall := forall₂_of_baseChain hclosed halike hs hwithin hresembles hchain hlast hprimitive
  show (Constraints.merge _).toOption.map _ = _
  rw [← inherited_of_forall₂ hforall hresembles.annotations, hmerge]
  rfl

end

end Schemata
