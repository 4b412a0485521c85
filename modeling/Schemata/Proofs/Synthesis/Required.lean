import Schemata.Proofs.Annotation.Merging
import Schemata.Proofs.Schema.Mentions
import Schemata.Proofs.Synthesis.Tenure

/-!
# Names that are required

The annotations of a type require names, and these are only texts: nothing says that the type has
properties that go by them.  When an object has been given its properties,
`Environment.checkRequired` looks for the names among those of the object itself and of the objects
among the bases of the type, and refuses the type if some are not found.

What it looks for has come together in three ways.  A stored object starts with the annotations of
its type laid on it; the object of an array starts with the names that these require, which the
array leaves to it; and either is told of every property that is required, by a flag or by an
annotation of its own.  The first two come to the same list (`Opens.required`).  The third cannot
bring in a name that is not found, since it is the name of a property that has just been added; nor
does it bring in a name twice (`ObjectParts.Filled`).  So what is refused can be told from the
declaration alone (`populate_eq`).

For what is stored this means that no name is required in vain, and `required_of_course` is the
induction: an entry is stored at a single rule, and there all has been looked for and found.
-/

namespace Schemata

open Environment (ObjectParts)

/-! ## Lists of names -/

namespace Constraints

variable {target names : List Wording} {c : Constraints} {records : List Record}

/-- Names are unlike one another as texts. -/
theorem pairwise_names_iff : (names.map Carried.plain).Nodup ↔
    names.Pairwise fun u v => (v == u) = false := by
  have hne (u v : Wording) : u.plain ≠ v.plain ↔ (v == u) = false :=
    ne_comm.trans beq_eq_false_iff_ne.symm
  rw [List.Nodup, List.pairwise_map]
  exact ⟨fun h => h.imp (hne _ _).mp, fun h => h.imp (hne _ _).mpr⟩

/-- No name is put behind others twice. -/
theorem nodup_appendNames (h : (target.map Carried.plain).Nodup) (names : List Wording) :
    ((appendNames target names).map Carried.plain).Nodup := by
  rw [appendNames_eq_collect, pairwise_names_iff]
  exact pairwise_collect (pairwise_names_iff.mp h) names

theorem appendNames_nil (h : (names.map Carried.plain).Nodup) : appendNames [] names = names := by
  rw [appendNames_eq_collect]
  exact collect_eq_append (pairwise_names_iff.mp h)

/-- **Annotations require no name twice.** -/
theorem nodup_required (h : merge records = .ok c) : (c.required.map Carried.plain).Nodup := by
  have hfirst : (({} : Constraints).required.map Carried.plain).Nodup := List.nodup_nil
  refine mergeOnto_induction (P := fun c => (c.required.map Carried.plain).Nodup)
    (Q := fun _ => True) (fun lower upper c hlower _ hfold => ?_) (fun _ _ _ _ => trivial) hfirst h
  obtain ⟨choices, -, hc⟩ := exists_of_bind_eq_ok hfold
  cases hc
  exact nodup_appendNames hlower upper.required

end Constraints

@[simp] theorem mem_keys_setKey {α : Type} {key name : String} {a : α} {m : List (String × α)} :
    name ∈ (setKey key a m).map Prod.fst ↔ name ∈ m.map Prod.fst ∨ name = key := by
  have hany (m : List (String × α)) : name ∈ m.map Prod.fst ↔ m.any (·.1 == name) = true := by
    rw [List.mem_map, List.any_eq_true]
    simp only [beq_iff_eq]
  rw [hany, hany, any_setKey, Bool.or_eq_true, beq_iff_eq, eq_comm (a := key)]

/-- The names that properties are shown under. -/
def ownNames (qs : List Property) : List String :=
  (qs.filter fun q => !q.catchAll).map Property.name

/-! ## Objects that are given properties -/

namespace Environment.ObjectParts

variable {o o₁ o₂ : ObjectParts} {q : Property} {qs qs' : List Property} {c : Constraints}
  {n : Node}

/-- **What properties do to the names of an object** that is given them.  It has their names besides
its own, requires some of them besides what it has required, and requires no name twice if it has
not done so before. -/
structure Filled (o : ObjectParts) (qs : List Property) (o' : ObjectParts) : Prop where
  names : ∀ name, name ∈ o'.properties.map Prod.fst ↔
    name ∈ o.properties.map Prod.fst ∨ name ∈ ownNames qs
  required : ∃ new : List Wording, o'.keywords.required = o.keywords.required ++ new ∧
    ∀ w ∈ new, w.plain ∈ ownNames qs
  nodup : (o.keywords.required.map Carried.plain).Nodup →
    (o'.keywords.required.map Carried.plain).Nodup

namespace Filled

theorem done : o.Filled [] o where
  names _ := (or_iff_left List.not_mem_nil).symm
  required := ⟨[], (List.append_nil _).symm, nofun⟩
  nodup := id

/-- One property after another. -/
theorem trans (h : o.Filled qs o₁) (h' : o₁.Filled qs' o₂) : o.Filled (qs ++ qs') o₂ := by
  have happend : ownNames (qs ++ qs') = ownNames qs ++ ownNames qs' := by
    rw [ownNames, List.filter_append, List.map_append]
    rfl
  refine ⟨fun name => ?_, ?_, h'.nodup ∘ h.nodup⟩
  · rw [h'.names, h.names, happend, List.mem_append, or_assoc]
  · obtain ⟨new, hnew, hnames⟩ := h.required
    obtain ⟨new', hnew', hnames'⟩ := h'.required
    refine ⟨new ++ new', by rw [hnew', hnew, List.append_assoc], ?_⟩
    rw [happend]
    exact List.forall_mem_append.mpr ⟨fun w hw => List.mem_append_left _ (hnames w hw),
      fun w hw => List.mem_append_right _ (hnames' w hw)⟩

/-- A property that takes all undeclared ones has no name to be required. -/
theorem accepting (o : ObjectParts) (hcatchAll : q.catchAll = true) :
    o.Filled [q] (o.accepting c n) := by
  have hown : ownNames [q] = [] := by
    rw [ownNames, List.filter_cons_of_neg (by simp [hcatchAll])]
    rfl
  have hkeywords : (o.accepting c n).keywords = o.keywords := by
    unfold ObjectParts.accepting
    split <;> rfl
  refine ⟨fun name => ?_, ⟨[], ?_, nofun⟩, fun h => ?_⟩
  · rw [properties_accepting, hown, or_iff_left List.not_mem_nil]
  · rw [hkeywords, List.append_nil]
  · rwa [hkeywords]

/-- A property that is shown may be required, by its own name. -/
theorem adding (o : ObjectParts) (hcatchAll : q.catchAll = false) :
    o.Filled [q] (o.adding q c n) := by
  have hown : ownNames [q] = [q.name] := by
    rw [ownNames, List.filter_cons_of_pos (by simp [hcatchAll])]
    rfl
  have hrequired : (o.adding q c n).keywords.required =
      if q.required || c.requiredProperty then
        Constraints.appendNames o.keywords.required [(q.name : Wording)]
      else o.keywords.required := by
    unfold ObjectParts.adding
    dsimp only
    split <;> rfl
  refine ⟨fun name => ?_, ?_, fun h => ?_⟩
  · rw [properties_adding, mem_keys_setKey, hown, List.mem_singleton]
  · rw [hrequired, hown]
    split
    · rw [Constraints.appendNames_eq_collect]
      obtain ⟨new, hnew, hsub⟩ := exists_collect_eq_append (r := (· == ·)) o.keywords.required
        [(q.name : Wording)]
      refine ⟨new, hnew, fun w hw => ?_⟩
      rw [List.mem_singleton.mp (hsub hw)]
      exact List.mem_singleton_self _
    · exact ⟨[], (List.append_nil _).symm, nofun⟩
  · rw [hrequired]
    split
    · exact Constraints.nodup_appendNames h _
    · exact h

end Filled

/-! ## Where objects start -/

/-- **What the own object of a type is filled from**, given the constraints of the type: an empty
object that these are laid on, if the type is stored, and one that takes nothing from them but the
names that they require, if the type is composed in place. -/
inductive Opens (c : Constraints) : ObjectParts → Prop
  | stored : Opens c (.ofNode (c.apply .emptyObject))
  | composed : Opens c ((ObjectParts.ofNode .emptyObject).requiring c.required)

namespace Opens

theorem properties (h : Opens c o) : o.properties = [] := by
  cases h <;> rfl

/-- Either way, what annotations require is required. -/
theorem required (h : Opens c o) (hnodup : (c.required.map Carried.plain).Nodup) :
    o.keywords.required = c.required := by
  have hnames := Constraints.appendNames_nil hnodup
  cases h <;> exact hnames

end Opens

end Environment.ObjectParts

/-! ## Names that are known -/

namespace Descriptor

/-- **The names that may be required of a type**: those that its own properties are shown under, and
those that the properties of the objects among its bases are shown under. -/
def knownNames (d : Descriptor) (bases : List Descriptor) : List String :=
  d.propertyNames ++ (bases.filter fun b => b.shape = .object).flatMap propertyNames

/-- Names that may not be required of a type, in order. -/
def unknownNames (d : Descriptor) (bases : List Descriptor) (names : List Wording) :
    List Wording :=
  names.filter fun w => !(d.knownNames bases).contains w.plain

end Descriptor

namespace Environment

open Build

variable {env : Environment} {builder : Descriptor → Build Built} {d : Descriptor}
  {bases : List Descriptor} {c : Constraints} {o o' : ObjectParts} {w w' : Walk}

theorem filled_of_addProperties {qs : List Property}
    (h : env.addProperties builder d o qs w = .ok o' w') : o.Filled qs o' := by
  induction qs generalizing o w with
  | nil =>
    obtain ⟨rfl, -⟩ := pure_eq_ok.mp h
    exact .done
  | cons q qs ih =>
    obtain ⟨o₁, w₁, hadd, hmore⟩ := bind_eq_ok.mp h
    have hone : o.Filled [q] o₁ := by
      obtain ⟨c, w₂, -, hadd⟩ := bind_eq_ok.mp hadd
      split at hadd
      next hcatchAll =>
        obtain ⟨m, w₃, -, hend⟩ := bind_eq_ok.mp hadd
        obtain ⟨rfl, -⟩ := pure_eq_ok.mp hend
        exact .accepting o hcatchAll
      next hcatchAll =>
        obtain ⟨node, w₃, -, hend⟩ := bind_eq_ok.mp hadd
        obtain ⟨rfl, -⟩ := pure_eq_ok.mp hend
        exact .adding o (Bool.not_eq_true _ ▸ hcatchAll)
    exact hone.trans (ih hmore)

/-- The names of an object that has been given the properties of its type are those of the type. -/
theorem contains_of_filled (hopens : ObjectParts.Opens c o) (h : o.Filled d.properties o')
    (bases : List Descriptor) (name : String) : (o'.properties.map (·.1) ++
      (bases.filter fun b => b.shape = .object).flatMap Descriptor.propertyNames).contains name =
        (d.knownNames bases).contains name := by
  have hown : name ∈ o'.properties.map (·.1) ↔ name ∈ d.propertyNames := by
    rw [h.names, hopens.properties]
    exact or_iff_right List.not_mem_nil
  rw [Bool.eq_iff_iff, List.contains_iff_mem, List.contains_iff_mem, Descriptor.knownNames,
    List.mem_append, List.mem_append, hown]

/-- **Only what annotations require can be unknown.**  What else the object requires goes by the
names of its own properties. -/
theorem unknownNames_of_filled (hmerge : Constraints.merge d.annotations = .ok c)
    (hopens : ObjectParts.Opens c o) (h : o.Filled d.properties o') (bases : List Descriptor) :
    d.unknownNames bases o'.keywords.required = d.unknownNames bases c.required := by
  obtain ⟨new, hnew, hnames⟩ := h.required
  have hfound : d.unknownNames bases new = [] := by
    refine List.filter_eq_nil_iff.mpr fun w hw => ?_
    rw [Bool.not_eq_true', Bool.not_eq_false, List.contains_iff_mem]
    exact List.mem_append_left _ (hnames w hw)
  rw [hnew, hopens.required (Constraints.nodup_required hmerge), Descriptor.unknownNames,
    List.filter_append]
  exact (congrArg _ hfound).trans (List.append_nil _)

/-- What is refused once the bases have been gone through. -/
theorem checkRequired_of_filled (hopens : ObjectParts.Opens c o) (h : o.Filled d.properties o')
    (hbases : env.baseChain d w = .ok bases w') :
    env.checkRequired d o' w = match d.unknownNames bases o'.keywords.required with
      | [] => .ok () w'
      | unknown => .error (.unknownRequired d.name unknown) w' := by
  unfold checkRequired Descriptor.unknownNames
  rw [bind_of_ok hbases]
  simp only [contains_of_filled hopens h]
  cases o'.keywords.required.filter fun w => !(d.knownNames bases).contains w.plain <;> rfl

/-- **What it takes to fill an object**, and what is refused.  The properties are added, then the
bases are gone through, and either may fail on its own account; if neither does, then the type is
refused if and only if its annotations require names that are unknown, and all of these are told. -/
theorem populate_eq (builder : Descriptor → Build Built)
    (hmerge : Constraints.merge d.annotations = .ok c) (hopens : ObjectParts.Opens c o) (w : Walk) :
    env.populate builder d o w = match env.addProperties builder d o d.properties w with
      | .error e w₁ => .error e w₁
      | .ok o' w₁ => match env.baseChain d w₁ with
        | .error e w₂ => .error e w₂
        | .ok bases w₂ => match d.unknownNames bases c.required with
          | [] => .ok o' w₂
          | unknown => .error (.unknownRequired d.name unknown) w₂ := by
  unfold populate
  cases hadd : env.addProperties builder d o d.properties w with
  | error e w₁ => exact bind_eq_error.mpr (.inl hadd)
  | ok o' w₁ =>
    rw [bind_of_ok hadd]
    dsimp only
    cases hbases : env.baseChain d w₁ with
    | error e w₂ => exact bind_eq_error.mpr (.inl (bind_eq_error.mpr (.inl hbases)))
    | ok bases w₂ =>
      have hfilled := filled_of_addProperties hadd
      have hcheck := checkRequired_of_filled hopens hfilled hbases
      rw [unknownNames_of_filled hmerge hopens hfilled] at hcheck
      dsimp only
      cases hunknown : d.unknownNames bases c.required with
      | nil =>
        rw [hunknown] at hcheck
        exact bind_of_ok hcheck
      | cons name names =>
        rw [hunknown] at hcheck
        exact bind_eq_error.mpr (.inl hcheck)

/-- What has been looked for and found. -/
theorem known_of_checkRequired {s : Session} (hopens : ObjectParts.Opens c o)
    (h : o.Filled d.properties o') (hrequired : s.Settles (env.checkRequired d o') ()) :
    ∃ bases, s.Settles (env.baseChain d) bases ∧
      ∀ w ∈ o'.keywords.required, w.plain ∈ d.knownNames bases := by
  have hcheck := hrequired ⟨s, []⟩ (.refl s)
  obtain ⟨bases, w₁, hbases, -⟩ := bind_eq_ok.mp hcheck
  rw [checkRequired_of_filled hopens h hbases] at hcheck
  split at hcheck
  next hunknown =>
    cases hcheck
    refine ⟨bases, (reads_baseChain d).settles_of_below hbases (.refl s), fun w hw => ?_⟩
    have hfound := List.filter_eq_nil_iff.mp hunknown w hw
    rwa [Bool.not_eq_true', Bool.not_eq_false, List.contains_iff_mem] at hfound
  next => cases hcheck

end Environment

/-! ## Names that stored objects require -/

/-- **The own object of what is stored for a type**: all of it, or the last part of what it is
composed of. -/
def Node.ownObject? : Node → Option Keywords
  | .object k _ _ _ => some k
  | .composition ns _ _ =>
    match ns.getLast? with
    | some (.object k _ _ _) => some k
    | _ => none
  | _ => none

section

variable (env : Environment) (s : Session)

/-- **Names that are required of a type under its name**: none is required twice, and all are known
of the type, which is described and has the name for its own. -/
structure Scene.RequiresKnown (σ : Scene) (name : String) (required : List Wording) : Prop where
  nodup : (required.map Carried.plain).Nodup
  known : ∃ d bases, s.Describes env d ∧ Published env s d ∧ d.name = name ∧ σ.Owns d ∧
    s.Settles (env.baseChain d) bases ∧ ∀ w ∈ required, w.plain ∈ d.knownNames bases

/-- All own objects that are stored require names that are known. -/
def Scene.Required (σ : Scene) : Prop :=
  ∀ e ∈ σ.registry.entries, ∀ k, e.2.ownObject? = some k → σ.RequiresKnown env s e.1 k.required

end

variable {env : Environment} {s : Session} {d : Descriptor} {o : ObjectParts} {n : Node}
  {σ σ₁ : Scene}

/-- What the own object of a type requires, whether or not it is combined with a base. -/
theorem required_of_over {base : Option Node} {k : Keywords}
    (h : (o.over base).ownObject? = some k) : k.required = o.keywords.required := by
  cases base <;> cases h <;> rfl

namespace Scene

theorem RequiresKnown.mono {name : String} {required : List Wording}
    (h : σ.RequiresKnown env s name required) (hclaims : σ.claims <+: σ₁.claims) :
    σ₁.RequiresKnown env s name required := by
  obtain ⟨d, bases, hd, hpub, hname, howns, hknown⟩ := h.known
  exact ⟨h.nodup, d, bases, hd, hpub, hname, howns.mono hclaims, hknown⟩

namespace Required

/-- Where nothing is stored, nothing new is required. -/
theorem of_registry (h : σ.Required env s) (hregistry : σ₁.registry = σ.registry)
    (hclaims : σ.claims <+: σ₁.claims) : σ₁.Required env s := by
  intro e he k hk
  rw [hregistry] at he
  exact (h e he k hk).mono hclaims

/-- A type is visited, and its name is claimed. -/
theorem of_claim (h : σ.Required env s) (hclaims : (σ.visiting d).Claims d σ₁) :
    σ₁.Required env s :=
  h.of_registry hclaims.claimed.registry hclaims.prefix

/-- A node is stored that requires names that are known. -/
theorem putting (h : σ.Required env s) {name : String}
    (hn : ∀ k, n.ownObject? = some k → σ.RequiresKnown env s name k.required) :
    (σ.putting name n).Required env s := by
  cases hget : σ.registry.get? name with
  | some stored =>
    unfold Scene.putting
    rw [Registry.put_of_get? hget]
    exact h
  | none =>
    intro e he k hk
    have hclaims : σ.claims <+: (σ.putting name n).claims := List.prefix_refl _
    rw [Scene.putting, Registry.put_of_free hget, (Registry.grown_store hget).entries] at he
    rcases List.mem_append.mp he with he | he
    · exact (h e he k hk).mono hclaims
    · rw [List.mem_singleton.mp he] at hk ⊢
      exact (hn k hk).mono hclaims

end Required

end Scene

/-- What a judgement does to an object that is filled. -/
def Judgement.Fills : Judgement → Prop
  | .fills _ o qs o' => o.Filled qs o'
  | _ => True

theorem filled_of_course {g : List (Key × Option Value)} {m : Nat} {J : Judgement} {w w' : Walk}
    (h : Course env s g m J w w') : J.Fills := by
  induction h with
  | learns _ _ ih => exact ih
  | done => exact .done
  | rest hcatchAll _ _ _ _ _ ih => exact (ObjectParts.Filled.accepting _ hcatchAll).trans ih
  | property hcatchAll _ _ _ _ _ _ _ ih => exact (ObjectParts.Filled.adding _ hcatchAll).trans ih
  | inPlace | known | awaited | fresh | plain | wrapped | anyMap | cutArray | root | composed
  | derived | cut | existing | enum | object => trivial

/-- **No synthesis stores an object that requires an unknown name.** -/
theorem required_of_course (hw : s.WellRead env) {g : List (Key × Option Value)} {m : Nat}
    {J : Judgement} {w w' : Walk} (h : Course env s g m J w w')
    (hJ : J.Within env s (s.Describes env)) (hσ : w.scene.Required env s) :
    w'.scene.Required env s := by
  induction h with
  | learns hlearns _ ih =>
    rw [← hlearns.scene] at hσ
    exact ih hJ hσ
  | inPlace _ _ _ ih | fresh _ _ _ _ _ ih => exact ih hJ hσ
  | known _ _ hclaim =>
    have hclaims := claims_of_claim hclaim
    exact hσ.of_registry hclaims.claimed.registry hclaims.prefix
  | awaited | plain | anyMap | cutArray | cut | done => exact hσ
  | wrapped _ _ _ hinner _ ih => exact ih (.refers hinner) hσ
  | root hshape hbase _ ih => exact ih ⟨hJ, published_of_root hshape hbase⟩ hσ
  | composed _ _ _ _ hdescribe _ _ _ _ hlearns _ ihrefers ihfills =>
    have hbase := ihrefers (.refers hdescribe) hσ
    have hafter := ihfills .fills (hbase.of_registry rfl (List.prefix_refl _))
    rw [← hlearns.scene] at hafter
    exact hafter.of_registry rfl (List.prefix_refl _)
  | derived hderived harray hdescribe _ _ ihrefers ihstores =>
    exact ihstores ⟨hJ, published_of_derived hderived harray⟩ (ihrefers (.refers hdescribe) hσ)
  | existing _ hclaim _ => exact hσ.of_claim (claims_of_claim hclaim)
  | enum _ hclaim _ _ _ hput =>
    obtain ⟨-, hscene⟩ := scene_of_putting hput
    rw [hscene]
    refine (hσ.of_claim (claims_of_claim hclaim)).putting fun k hk => ?_
    cases hk
  | @object m d base c o _ _ _ w₂ _ _ _ hclaim _ _ hmerge hfills hlearns hrequired hput ih =>
    have hclaims := claims_of_claim hclaim
    obtain ⟨-, hscene⟩ := scene_of_putting hput
    rw [hscene, hlearns.scene]
    refine (ih .fills (hσ.of_claim hclaims)).putting fun k hk => ?_
    have hopens : ObjectParts.Opens c (.ofNode (c.apply .emptyObject)) := .stored
    have hfilled := filled_of_course hfills
    obtain ⟨bases, hbases, hknown⟩ := Environment.known_of_checkRequired hopens hfilled hrequired
    have howns : w₂.scene.Owns d := (hclaims.owns (same_of_describes hw hJ.1 hJ.2.shape)).mono
      (claims_of_derives (derives_of_course hfills))
    have hnodup := Constraints.nodup_required hmerge
    rw [required_of_over hk]
    refine ⟨hfilled.nodup ?_, d, bases, hJ.1, hJ.2, rfl, howns, hbases, hknown⟩
    rwa [hopens.required hnodup]
  | rest _ _ hdescribe _ _ ihrefers ihfills =>
    exact ihfills .fills (ihrefers (.refers hdescribe) hσ)
  | property _ _ hdescribe _ hdress _ _ ihrefers ihfills =>
    have hlearns := (Environment.learns_dress _ _ _ _).ok hdress
    have hafter := ihrefers (.refers hdescribe) hσ
    rw [← hlearns.scene] at hafter
    exact ihfills .fills hafter

end Schemata
