import Schemata.Proofs.Synthesis.Meaning

/-!
# What a session tells of a declaration

A session is asked what a declaration is published as, and so are the declarations themselves.  The
session may know a type by another that is equal to it, and by the bases and the properties of that
one.  It tells the same all the same (`publish_of_told`), where equal types read alike and no type
that is led to is composed in place.

The two lexicons are asked in step.  A type that the session knows and what the type is by itself
resemble one another all the way down (`Descriptor.Resembles`), so that each question has one
answer, and is followed by questions about types that resemble one another again.
-/

namespace Schemata

open Environment (ObjectParts mapInner)

/-- **What a session tells to stand for the types of a set is what stands for them by
themselves**, given what either puts in the place of types. -/
def Session.Tells (env : Environment) (T : Token → Prop) (s : Session) (R : Descriptor → Prop)
    (place place' : Descriptor → Option Node) : Prop :=
  ∀ {d d' m}, R d → d.Within T → d.Resembles (Akin T) d' →
    (env.toldBy s.readings).standFor place d = some m → env.lexicon.standFor place' d' = some m

variable {env : Environment} {s : Session} {T : Token → Prop} {R : Descriptor → Prop}
  {d d' : Descriptor} {m : Node} {place place' : Descriptor → Option Node}
  {below below' : List Key → Descriptor → Option Node} {opened opened' : List Key}

namespace Environment

theorem settles_of_told_describe {t : Token} (h : (env.toldBy s.readings).describe t = some d) :
    s.Settles (env.describe t) d :=
  (reads_describe t).told_eq_some.mp h

theorem settles_of_told_kind {kind : Option Kind}
    (h : (env.toldBy s.readings).kind d = some kind) : s.Settles (env.primitiveKind d) kind :=
  (reads_primitiveKind d).told_eq_some.mp h

end Environment

section

variable (hclosed : env.Closed T) (halike : env.ReadsAlike T) (hs : s.Confined env T)
include hclosed halike hs

/-- **Whether a type is published by name is what it is by itself.** -/
theorem publishes?_of_told {p : Bool} (hd : s.Describes env d) (hwithin : d.Within T)
    (hresembles : d.Resembles (Akin T) d')
    (h : (env.toldBy s.readings).publishes? d = some p) : env.lexicon.publishes? d' = some p := by
  by_cases hshape : d.shape.isInline = true
  · rw [Lexicon.publishes?_of_inline hshape] at h
    rw [Lexicon.publishes?_of_inline (hresembles.shape ▸ hshape), h]
  rw [Bool.not_eq_true] at hshape
  cases hkind : (env.toldBy s.readings).kind d with
  | none =>
    rw [Lexicon.publishes?, if_neg (by rw [hshape]; exact Bool.false_ne_true), hkind] at h
    cases h
  | some kind =>
    have hleaf : d.shape ≠ .primitive := by
      rintro hprimitive
      rw [hprimitive] at hshape
      cases hshape
    have hkind' := lexicon_kind hclosed halike hs hwithin hresembles hd hleaf
      (Environment.settles_of_told_kind hkind)
    rw [Lexicon.publishes?_of_kind hshape hkind] at h
    rw [Lexicon.publishes?_of_kind (hresembles.shape ▸ hshape) hkind', hresembles.base,
      hresembles.properties, hresembles.annotations, h]

/-- What stands for types is what does so by itself, if what is put in their place is. -/
theorem tells_of_place (hdescribes : ∀ {x}, R x → s.Describes env x)
    (hplace : ∀ {d d' m}, R d → d.Within T → d.Resembles (Akin T) d' →
      (env.toldBy s.readings).publishes? d = some false → place d = some m → place' d' = some m) :
    s.Tells env T R place place' := by
  intro d d' m hd hwithin hresembles h
  obtain ⟨p, hp, hrest⟩ := Option.bind_eq_some_iff.mp h
  have hp' := publishes?_of_told hclosed halike hs (hdescribes hd) hwithin hresembles hp
  refine Option.bind_eq_some_iff.mpr ⟨p, hp', ?_⟩
  cases p with
  | true =>
    -- only a type that is never published by name may go by another one
    have hshape : d.shape.isInline = false := by
      refine Bool.eq_false_iff.mpr fun hinline => ?_
      cases (Lexicon.publishes?_of_inline hinline).symm.trans hp
    cases hrest
    rw [← hresembles.name hshape]
    rfl
  | false => exact hplace hd hwithin hresembles hp hrest

variable (hR : Hereditary env s R)
include hR

/-- What stands for a part of a type is what stands for it by itself. -/
theorem standIn_of_told {t t' : Token} (hplace : s.Tells env T R place place') (hd : R d)
    (hpart : PartOf env s d t) (ht : T t) (hakin : Akin T t t')
    (h : (env.toldBy s.readings).standIn place t = some m) :
    env.lexicon.standIn place' t' = some m := by
  obtain ⟨b, hb, hstand⟩ := Option.bind_eq_some_iff.mp h
  have hsettles := Environment.settles_of_told_describe hb
  obtain ⟨b', hb', hresembles, hwithin⟩ :=
    Akin.exists_of_describe hclosed halike hs ht hakin hsettles
  exact Option.bind_eq_some_iff.mpr
    ⟨b', hb', hplace (hR hd ⟨t, hpart, hsettles⟩) hwithin hresembles hstand⟩

/-- A map to what stands for its values. -/
theorem mapInPlace_of_told (hplace : s.Tells env T R place place') (hd : R d)
    (hshape : d.shape = .map) (hwithin : d.Within T) (hresembles : d.Resembles (Akin T) d')
    (h : (env.toldBy s.readings).mapInPlace place d = some m) :
    env.lexicon.mapInPlace place' d' = some m := by
  obtain ⟨b, hb, hvalue⟩ := Option.bind_eq_some_iff.mp h
  have hsettles := Environment.settles_of_told_describe hb
  obtain ⟨b', hb', hlike, hin⟩ := Akin.exists_of_describe hclosed halike hs
    (hwithin _ (.value hshape)) (hresembles.value hshape) hsettles
  refine Option.bind_eq_some_iff.mpr ⟨b', hb', ?_⟩
  rw [hlike.shape, hlike.kind]
  split at hvalue
  next hany =>
    rw [if_pos hany]
    exact hvalue
  next hany =>
    rw [if_neg hany]
    obtain ⟨x, hx, hend⟩ := Option.bind_eq_some_iff.mp hvalue
    exact Option.bind_eq_some_iff.mpr
      ⟨x, hplace (hR hd ⟨_, .value hshape, hsettles⟩) hin hlike hx, hend⟩

/-- What an object shows for a property. -/
theorem member_of_told {q : Property} {e : Member} (hplace : s.Tells env T R place place')
    (hd : R d) (hpart : PartOf env s d q.type) (hwithin : d.Within T)
    (hresembles : d.Resembles (Akin T) d') (hq : q ∈ d.properties)
    (h : (env.toldBy s.readings).member place d q = some e) :
    env.lexicon.member place' d' q = some e := by
  obtain ⟨c, hc, hrest⟩ := Option.bind_eq_some_iff.mp h
  obtain ⟨held, hheld, hend⟩ := Option.bind_eq_some_iff.mp hrest
  have hstand := standIn_of_told hclosed halike hs hR hplace hd hpart
    (hwithin _ (.property hq)) (.refl _) hheld
  refine Option.bind_eq_some_iff.mpr ⟨c, hc, Option.bind_eq_some_iff.mpr ⟨held, hstand, ?_⟩⟩
  rw [hresembles.made]
  exact hend

/-- What an object shows for some of its properties. -/
theorem members_of_told {qs : List Property} {ms : List Member}
    (hplace : s.Tells env T R place place') (hd : R d)
    (hparts : ∀ q ∈ d.properties, PartOf env s d q.type) (hwithin : d.Within T)
    (hresembles : d.Resembles (Akin T) d') (hqs : qs ⊆ d.properties)
    (h : (env.toldBy s.readings).members place d qs = some ms) :
    env.lexicon.members place' d' qs = some ms := by
  induction qs generalizing ms with
  | nil => exact h
  | cons q qs ih =>
    obtain ⟨hq, hqs⟩ := List.cons_subset.mp hqs
    rw [Lexicon.members, List.mapM_cons] at h
    obtain ⟨e, he, hrest⟩ := Option.bind_eq_some_iff.mp h
    obtain ⟨ms', hms', hend⟩ := Option.bind_eq_some_iff.mp hrest
    cases hend
    exact Lexicon.members_cons (member_of_told hclosed halike hs hR hplace hd
      (hparts q hq) hwithin hresembles hq he) (ih hqs hms')

variable (hdescribes : ∀ {x}, R x → s.Describes env x) (harrays : ∀ {x}, R x → ¬ Arrayed env s x)
include hdescribes harrays

/-- What is put in the place of a type with a base, which is not composed in place. -/
theorem derivedInPlace_of_told (hbelow : s.Tells env T R (below opened) (below' opened'))
    (hd : R d) (hshape : d.shape.isInline = false) (hwithin : d.Within T)
    (hresembles : d.Resembles (Akin T) d')
    (hnot : (env.toldBy s.readings).publishes? d = some false)
    (h : (env.toldBy s.readings).derivedInPlace below opened d = some m) :
    env.lexicon.derivedInPlace below' opened' d' = some m := by
  obtain ⟨kind, hkind, hrest⟩ := Option.bind_eq_some_iff.mp h
  have hleaf : d.shape ≠ .primitive := by
    rintro hprimitive
    rw [hprimitive] at hshape
    cases hshape
  have hsettles := Environment.settles_of_told_kind hkind
  have hkind' := lexicon_kind hclosed halike hs hwithin hresembles (hdescribes hd) hleaf hsettles
  rw [Lexicon.derivedInPlace]
  refine Option.bind_eq_some_iff.mpr ⟨kind, hkind', ?_⟩
  cases kind with
  | some kind =>
    exact lexicon_leaf hclosed halike hs hwithin hresembles hsettles
      ((Environment.reads_namedLeaf d kind).told_eq_some.mp hrest)
  | none =>
    obtain ⟨c, hc, hrest⟩ := Option.bind_eq_some_iff.mp hrest
    obtain ⟨t, ht, hrest⟩ := Option.bind_eq_some_iff.mp hrest
    refine Option.bind_eq_some_iff.mpr ⟨c, by rw [hresembles.annotations]; exact hc, ?_⟩
    refine Option.bind_eq_some_iff.mpr ⟨t, hresembles.base.trans ht, ?_⟩
    rw [hresembles.properties]
    split at hrest
    next hempty =>
      rw [if_pos hempty]
      obtain ⟨x, hx, hend⟩ := Option.bind_eq_some_iff.mp hrest
      exact Option.bind_eq_some_iff.mpr ⟨x, standIn_of_told hclosed halike hs hR hbelow
        hd (.base hshape hsettles ht) (hwithin t (.base ht)) (.refl t) hx, hend⟩
    next hsome =>
      -- such a type is composed in place
      have hmerge := eq_ok_of_toOption hc
      have hbase : d.base ≠ none := by
        rw [ht]
        exact Option.some_ne_none t
      have hproperties : d.properties ≠ [] := by
        rwa [List.isEmpty_iff] at hsome
      rw [Lexicon.publishes?_of_merge hshape hkind hbase hproperties hmerge] at hnot
      exact absurd ⟨hshape, hsettles, hbase, hproperties, c, hmerge, by simpa using hnot⟩
        (harrays hd)

/-- What is put in the place of a type, given what either puts in the place of types below. -/
theorem inPlaceOver_of_told (hbelow : s.Tells env T R (below opened) (below' opened'))
    (hd : R d) (hwithin : d.Within T) (hresembles : d.Resembles (Akin T) d')
    (hnot : (env.toldBy s.readings).publishes? d = some false)
    (h : (env.toldBy s.readings).inPlaceOver below opened d = some m) :
    env.lexicon.inPlaceOver below' opened' d' = some m := by
  have hinner (hshape : d.shape = .nullable ∨ d.shape = .array) {x : Node}
      (hx : (env.toldBy s.readings).standIn (below opened) d.inner = some x) :
      env.lexicon.standIn (below' opened') d'.inner = some x := by
    have hwrapper : d.shape.isWrapper = true := by
      rcases hshape with h | h <;> rw [h] <;> rfl
    exact standIn_of_told hclosed halike hs hR hbelow hd (.inner hshape)
      (hwithin _ (.inner hwrapper)) (hresembles.inner hwrapper) hx
  rw [Lexicon.inPlaceOver] at h ⊢
  rw [hresembles.shape]
  cases hshape : d.shape with
  | nullable =>
    rw [hshape] at h
    obtain ⟨x, hx, hend⟩ := Option.bind_eq_some_iff.mp h
    exact Option.bind_eq_some_iff.mpr ⟨x, hinner (.inl hshape) hx, hend⟩
  | primitive =>
    rw [hshape] at h
    dsimp only
    rw [hresembles.annotations, hresembles.kind]
    exact h
  | unknown =>
    rw [hshape] at h
    dsimp only
    rw [hresembles.annotations]
    exact h
  | array =>
    rw [hshape] at h
    obtain ⟨x, hx, hend⟩ := Option.bind_eq_some_iff.mp h
    refine Option.bind_eq_some_iff.mpr ⟨x, hinner (.inr hshape) hx, ?_⟩
    rw [hresembles.annotations, hresembles.uniqueItems]
    exact hend
  | map =>
    rw [hshape] at h
    obtain ⟨x, hx, hend⟩ := Option.bind_eq_some_iff.mp h
    refine Option.bind_eq_some_iff.mpr
      ⟨x, mapInPlace_of_told hclosed halike hs hR hbelow hd hshape hwithin hresembles hx, ?_⟩
    rw [hresembles.annotations]
    exact hend
  | enum | object =>
    rw [hshape] at h
    exact derivedInPlace_of_told hclosed halike hs hR hdescribes harrays hbelow hd
      (by rw [hshape]; rfl) hwithin hresembles hnot h

/-- **A session tells of types of the set what is so by itself**, however many of them are below
one another. -/
theorem tells_inPlace (n : Nat) (opened opened' : List Key) :
    s.Tells env T R ((env.toldBy s.readings).inPlace n opened)
      (env.lexicon.inPlace n opened') := by
  induction n generalizing opened opened' with
  | zero =>
    refine tells_of_place hclosed halike hs hdescribes fun _ _ _ _ h => ?_
    cases h
  | succ n ih =>
    exact tells_of_place hclosed halike hs hdescribes fun hd hwithin hresembles hnot h =>
      inPlaceOver_of_told hclosed halike hs hR hdescribes harrays (ih _ _) hd hwithin hresembles
        hnot h

/-- **A session tells of a type that is published by name what its declaration is published
as.** -/
theorem publish_of_told (n : Nat) (hd : R d) (hpub : Published env s d) (hwithin : d.Within T)
    (hresembles : d.Resembles (Akin T) d')
    (h : (env.toldBy s.readings).publish n d = some m) : env.lexicon.publish n d' = some m := by
  rw [Lexicon.publish] at h ⊢
  rw [hresembles.shape, hresembles.annotations, hresembles.members]
  split at h
  next henum =>
    rw [if_pos henum]
    exact h
  next hshape =>
    rw [if_neg hshape]
    have hplace : s.Tells env T R ((env.toldBy s.readings).inPlace n [])
        (env.lexicon.inPlace n []) := tells_inPlace hclosed halike hs hR hdescribes harrays n [] []
    obtain ⟨c, hc, hrest⟩ := Option.bind_eq_some_iff.mp h
    obtain ⟨base, hbase, hrest⟩ := Option.bind_eq_some_iff.mp hrest
    obtain ⟨ms, hms, hend⟩ := Option.bind_eq_some_iff.mp hrest
    refine Option.bind_eq_some_iff.mpr ⟨c, hc, Option.bind_eq_some_iff.mpr ⟨base, ?_,
      Option.bind_eq_some_iff.mpr ⟨ms, ?_, hend⟩⟩⟩
    · rw [hresembles.base]
      cases hb : d.base with
      | none =>
        rw [hb] at hbase
        exact hbase
      | some t =>
        rw [hb, Option.mapM_some] at hbase
        obtain ⟨x, hx, hend⟩ := Option.map_eq_some_iff.mp hbase
        rw [Option.mapM_some]
        exact Option.map_eq_some_iff.mpr ⟨x, standIn_of_told hclosed halike hs hR hplace hd
          (.base hpub.shape hpub.kind hb) (hwithin t (.base hb)) (.refl t) hx, hend⟩
    · rw [hresembles.properties]
      exact members_of_told hclosed halike hs hR hplace hd
        (fun q hq => .property hpub.kind (.inl (hpub.eq_object hshape)) hq) hwithin hresembles
        (List.Subset.refl _) hms

end

end Schemata
