import Schemata.Proofs.Synthesis.Ownership
import Schemata.Proofs.Schema.Mentions

/-!
# Where references lead

While types are being built, references are handed out to types that are visited but not stored
yet.  What such a reference leads to is claimed, though: a type that is published by name claims
its name as soon as it is visited, and only a type that is composed in place is visited without.
So every reference leads to a claimed name (`closed_of_derives`), and since a derivation that has
ended has stored everything it claimed, it leads to a stored one once nothing is under
construction any more.

Which type a visited key belongs to is known only as far as distinct types have distinct keys.
-/

namespace Schemata

open Environment (ObjectParts mapInner)

variable {env : Environment} {s : Session} {d : Descriptor} {σ σ₁ σ₂ : Scene}

/-! ## References -/

/-- All references in a node lead to one of some names. -/
def Node.MentionsOnly (n : Node) (names : List String) : Prop :=
  ∀ name, n.Mentions name → name ∈ names

theorem Node.MentionsOnly.mono {n : Node} {names names' : List String}
    (h : n.MentionsOnly names) (hsub : names ⊆ names') : n.MentionsOnly names' :=
  fun name hname => hsub (h name hname)

theorem Node.mentionsOnly_refTo {name : String} {names : List String} (h : name ∈ names) :
    (refTo name).MentionsOnly names := by
  intro name' hname
  rw [mentions_refTo.mp hname]
  exact h

section Objects

variable {o : ObjectParts} {c : Constraints} {n : Node} {names : List String}

theorem mentionsOnly_accepting (ho : o.toNode.MentionsOnly names) (hn : n.MentionsOnly names) :
    (o.accepting c n).toNode.MentionsOnly names :=
  fun name hname => (mentions_of_accepting hname).elim (ho name) (hn name)

theorem mentionsOnly_adding {q : Property} (ho : o.toNode.MentionsOnly names)
    (hn : n.MentionsOnly names) : (o.adding q c n).toNode.MentionsOnly names :=
  fun name hname => (mentions_of_adding hname).elim (ho name) (hn name)

theorem mentionsOnly_over {base : Option Node} (ho : o.toNode.MentionsOnly names)
    (hbase : ∀ b, base = some b → b.MentionsOnly names) : (o.over base).MentionsOnly names := by
  intro name hname
  rcases mentions_of_over hname with hname | ⟨b, hb, hname⟩
  · exact ho name hname
  · exact hbase b hb name hname

end Objects

/-- All references in stored nodes lead to claimed names. -/
def Scene.Closed (σ : Scene) : Prop :=
  ∀ e ∈ σ.registry.entries, e.2.MentionsOnly σ.claimed

/-- All references in what a judgement starts from lead to one of some names. -/
def Judgement.Given (names : List String) : Judgement → Prop
  | .stores _ base _ => ∀ b, base = some b → b.MentionsOnly names
  | .fills _ o _ _ => o.toNode.MentionsOnly names
  | _ => True

/-- All references in what a judgement makes lead to one of some names. -/
def Judgement.Made (names : List String) : Judgement → Prop
  | .refers _ n => n.MentionsOnly names
  | .builds d r => r.node.MentionsOnly names ∧ (r.stored = true → d.name ∈ names)
  | .stores d _ r => r.node.MentionsOnly names ∧ (r.stored = true → d.name ∈ names)
  | .fills _ _ _ o => o.toNode.MentionsOnly names

theorem Plain.not_mentions {n : Node} {name : String} (h : Plain env s d n) :
    ¬ n.Mentions name := by
  cases h with
  | primitive _ _ | unknown _ _ =>
    exact fun h => Node.not_mentions_leaf (Node.mentions_of_apply h)
  | named _ _ hleaf =>
    intro hmentions
    have hrun := hleaf ⟨s, []⟩ (.refl s)
    obtain ⟨bases, _, _, hrun⟩ := bind_eq_ok.mp hrun
    obtain ⟨c, _, _, hrun⟩ := bind_eq_ok.mp hrun
    rw [Kind.schema, Constraints.apply] at hrun
    obtain ⟨rfl, -⟩ := pure_eq_ok.mp hrun
    split at hmentions
    · exact Node.not_mentions_leaf (Node.mentions_array.mp hmentions)
    · exact Node.not_mentions_leaf hmentions

theorem Wraps.mentions {n node : Node} {t : Token} {name : String}
    (h : Wraps env s d t n node) (hname : node.Mentions name) : n.Mentions name := by
  cases h with
  | nullable _ => exact Node.mentions_of_makeNullable hname
  | array _ _ => exact Node.mentions_array.mp (Node.mentions_of_apply hname)
  | map _ _ =>
    rcases Node.mentions_object.mp (Node.mentions_of_apply hname) with ⟨_, ⟨⟩, _⟩ | ⟨a, ha, h⟩
    cases ha
    exact h
  | renamed _ _ _ _ _ =>
    replace hname := Node.mentions_of_apply hname
    split at hname
    · exact Node.mentions_array.mp hname
    · exact hname

/-- All references in stored nodes lead to one of some names. -/
def Scene.Shows (σ : Scene) (names : List String) : Prop :=
  ∀ e ∈ σ.registry.entries, e.2.MentionsOnly names

theorem Scene.Shows.putting {names : List String} (h : σ.Shows names) (name : String) {n : Node}
    (hn : n.MentionsOnly names) :
    (σ.putting name n).Shows names ∧ (σ.registry.put name n).1.MentionsOnly names := by
  unfold Scene.putting Scene.Shows
  cases hget : σ.registry.get? name with
  | some stored =>
    rw [Registry.put_of_get? hget]
    exact ⟨h, h _ (Registry.mem_entries_of_get? hget)⟩
  | none =>
    rw [Registry.put_of_free hget]
    refine ⟨fun e he => ?_, hn⟩
    rw [(Registry.grown_store hget).entries] at he
    rcases List.mem_append.mp he with he | he
    · exact h e he
    · rw [List.mem_singleton.mp he]
      exact hn

theorem Scene.Shows.of_claims {names : List String} (h : σ.Shows names)
    (hclaims : (σ.visiting d).Claims d σ₁) : σ₁.Shows names := by
  intro e he
  rw [hclaims.claimed.registry] at he
  exact h e he

theorem Scene.Closed.putting (h : σ.Closed) (name : String) {n : Node}
    (hn : n.MentionsOnly σ.claimed) : (σ.putting name n).Closed ∧
      (σ.registry.put name n).1.MentionsOnly (σ.putting name n).claimed :=
  Scene.Shows.putting h name hn

/-- A claim leaves all references leading to claimed names. -/
theorem Scene.Closed.of_claims (h : σ.Closed) (hclaims : (σ.visiting d).Claims d σ₁) :
    σ₁.Closed :=
  fun e he => (Scene.Shows.of_claims h hclaims e he).mono
    (List.map_subset Prod.fst hclaims.claimed.kept)

/-- **Every reference leads to a claimed name**, in what is stored and in what is made, if it
did in what was stored before and in what is given. -/
theorem closed_of_derives (hw : s.WellRead env) (hkeys : env.KeysDistinct) {J : Judgement}
    (h : Derives env s J σ σ₁) (hJ : J.Within env s (s.Describes env))
    (howned : σ.Owned env s (s.Describes env)) (hclosed : σ.Closed)
    (hgiven : J.Given σ.claimed) : σ₁.Closed ∧ J.Made σ₁.claimed := by
  induction h with
  | inPlace _ _ ih =>
    obtain ⟨hstored, hnode, _⟩ := ih hJ howned hclosed trivial
    exact ⟨hstored, hnode⟩
  | known _ hstored hclaims =>
    rw [hclaims.eq_of_claimed (howned.names hstored)]
    exact ⟨hclosed, Node.mentionsOnly_refTo (howned.names hstored)⟩
  | awaited hinline hvisited harray =>
    have hclaimed := (howned.published_of_awaited hw hkeys id hJ hinline hvisited harray).2
    exact ⟨hclosed, Node.mentionsOnly_refTo hclaimed⟩
  | @fresh d r σ σ' _ _ _ _ ih =>
    obtain ⟨hstored, hnode, hname⟩ := ih hJ howned hclosed trivial
    refine ⟨hstored, ?_⟩
    show (if r.stored = true then Node.refTo d.name else r.node).MentionsOnly σ'.claimed
    split
    next hs => exact Node.mentionsOnly_refTo (hname hs)
    next => exact hnode
  | plain hplain => exact ⟨hclosed, fun _ hname => absurd hname hplain.not_mentions, nofun⟩
  | wrapped hwraps hinner _ ih =>
    obtain ⟨hstored, hnode⟩ := ih ⟨_, hinner⟩ howned hclosed trivial
    exact ⟨hstored, fun _ hname => hnode _ (hwraps.mentions hname), nofun⟩
  | anyMap _ _ _ _ =>
    refine ⟨hclosed, fun _ hname => ?_, nofun⟩
    exact absurd (Node.mentions_of_apply hname) Node.not_mentions_bare
  | cutArray _ _ _ =>
    exact ⟨hclosed, fun _ hname => absurd hname Node.not_mentions_emptyObject, nofun⟩
  | root hshape hbase _ ih =>
    exact ih ⟨hJ, published_of_root hshape hbase⟩ howned hclosed nofun
  | @composed d b base c n o σ σ₁ σ₂ hderived harray hdescribe hrefers hfills ihrefers ihfills =>
    have harr := arrayed_of_derived hderived harray
    obtain ⟨hclosed₁, hn⟩ := ihrefers (.refers hdescribe) howned hclosed trivial
    have howned₁ :=
      (howned.of_derives hereditary_describes (.refers hdescribe) hrefers).visiting hJ harr
    obtain ⟨hclosed₂, ho⟩ := ihfills .fills howned₁ hclosed₁
      fun _ h => absurd h Node.not_mentions_bare
    refine ⟨hclosed₂, fun name hname => ?_, nofun⟩
    obtain ⟨x, hx, hmentions⟩ := Node.mentions_composition.mp
      (Node.mentions_array.mp (Node.mentions_of_apply hname))
    rcases List.mem_cons.mp hx with rfl | hx
    · exact (howned₁.adds hereditary_describes .fills hfills).claimed_subset (hn name hmentions)
    · rw [List.mem_singleton.mp hx] at hmentions
      exact ho name hmentions
  | @derived d b base c n r σ σ₁ σ₂ hderived harray hdescribe hrefers _ ihrefers ihstores =>
    obtain ⟨hclosed₁, hn⟩ := ihrefers (.refers hdescribe) howned hclosed trivial
    refine ihstores ⟨hJ, published_of_derived hderived harray⟩
      (howned.of_derives hereditary_describes (.refers hdescribe) hrefers) hclosed₁
      fun b' hb' => ?_
    cases hb'
    exact hn
  | cut _ =>
    exact ⟨hclosed, fun _ hname => absurd hname Node.not_mentions_emptyObject, nofun⟩
  | existing _ hclaims hstored =>
    have hclosed₁ := hclosed.of_claims hclaims
    refine ⟨hclosed₁, ?_, fun _ => hclaims.claimed.claimed⟩
    exact hclosed₁ _ (Registry.mem_entries_of_get? hstored)
  | enum _ hclaims _ _ _ hn =>
    subst hn
    obtain ⟨hclosed₁, hnode⟩ := (hclosed.of_claims hclaims).putting _ fun name hname =>
      absurd (Node.mentions_of_apply hname) Node.not_mentions_leaf
    exact ⟨hclosed₁, hnode, fun _ => hclaims.claimed.claimed⟩
  | @object d base c o σ σ₁ σ₂ _ hclaims _ _ _ hfills ih =>
    have howned₁ := howned.of_claims hclaims hJ.1 hJ.2
    obtain ⟨hclosed₂, ho⟩ := ih .fills howned₁ (hclosed.of_claims hclaims)
      fun _ h => absurd h not_mentions_start
    have hsub := (howned₁.adds hereditary_describes .fills hfills).claimed_subset
    have hkept : σ.claimed ⊆ σ₁.claimed := List.map_subset Prod.fst hclaims.claimed.kept
    have hover : (o.over base).MentionsOnly σ₂.claimed :=
      mentionsOnly_over ho fun b hb => (hgiven b hb).mono (List.Subset.trans hkept hsub)
    obtain ⟨hclosed₃, hnode⟩ := hclosed₂.putting d.name hover
    exact ⟨hclosed₃, hnode, fun _ => hsub hclaims.claimed.claimed⟩
  | done => exact ⟨hclosed, hgiven⟩
  | @rest d inner o o' q qs c n σ σ₁ σ₂ _ _ hdescribe hrefers _ ihrefers ihfills =>
    have hadds := howned.adds hereditary_describes (.refers hdescribe) hrefers
    obtain ⟨hclosed₁, hn⟩ := ihrefers (.refers hdescribe) howned hclosed trivial
    exact ihfills .fills (howned.of_adds hadds) hclosed₁
      (mentionsOnly_accepting (hgiven.mono hadds.claimed_subset) hn)
  | @property d inner o o' q qs c n node w w' σ σ₁ σ₂ _ _ hdescribe hrefers hdress _ ihrefers
      ihfills =>
    have hadds := howned.adds hereditary_describes (.refers hdescribe) hrefers
    obtain ⟨hclosed₁, hn⟩ := ihrefers (.refers hdescribe) howned hclosed trivial
    exact ihfills .fills (howned.of_adds hadds) hclosed₁
      (mentionsOnly_adding (hgiven.mono hadds.claimed_subset)
        fun name hname => hn name (mentions_of_dress hdress hname))

/-! ## References given to a host

A host refers to a type while nothing is being visited.  What it is given, if that is a
reference, leads to a stored name whatever the keys are: there is nothing to wait for. -/

/-- A type published in place is not stored under its name. -/
theorem not_stored_of_inline {r : Built} (hinline : s.Settles (env.isInline d) true)
    (h : Derives env s (.builds d r) σ σ₁) : r.stored = false := by
  have hpub := not_published_of_inline hinline
  cases h with
  | plain | wrapped | anyMap | cutArray | composed => rfl
  | root hshape hbase _ => exact absurd (published_of_root hshape hbase) hpub
  | derived hderived harray _ _ _ => exact absurd (published_of_derived hderived harray) hpub

/-- A type is stored under its name, or an empty object stands in for it. -/
theorem stored_of_stores {base : Option Node} {r : Built}
    (h : Derives env s (.stores d base r) σ σ₁) :
    r.stored = true ∧ d.name ∈ σ₁.names ∨ r = ⟨.emptyObject, false⟩ := by
  cases h with
  | cut _ => exact .inr rfl
  | existing _ _ hstored => exact .inl ⟨rfl, Registry.mem_names_of_get? hstored⟩
  | enum | object => exact .inl ⟨rfl, Scene.mem_names_putting.mpr (.inr rfl)⟩

/-- A reference leads to one of some names, if it is a reference. -/
def Node.LeadsInto (n : Node) (names : List String) : Prop :=
  ∀ name t desc, n = .ref name t desc → name ∈ names

/-- What a judgement makes is stored, or leads to a stored name if it is a reference. -/
def Judgement.Stored (names : List String) : Judgement → Prop
  | .refers _ n => n.LeadsInto names
  | .builds d r => if r.stored then d.name ∈ names else r.node.LeadsInto names
  | _ => True

/-- **A host is given references to stored names only.** -/
theorem stored_of_derives {J : Judgement} (h : Derives env s J σ σ₁) (hv : σ.visited = []) :
    J.Stored σ₁.names := by
  have hvisits {d : Descriptor} {σ : Scene} (hv : σ.visited = []) : σ.visits d = false := by
    rw [Scene.visits, hv]
    rfl
  induction h with
  | @inPlace d r σ σ' hinline hbuilds ih =>
    have hnode : if r.stored then d.name ∈ σ'.names else r.node.LeadsInto σ'.names := ih hv
    rwa [not_stored_of_inline hinline hbuilds, if_neg Bool.false_ne_true] at hnode
  | known _ hstored hclaims =>
    rintro _ _ _ ⟨⟩
    rw [Scene.names, hclaims.claimed.registry]
    exact hstored
  | awaited _ hvisited _ => cases (hvisits hv).symm.trans hvisited
  | @fresh d r σ σ' _ _ _ _ ih =>
    have hnode : if r.stored then d.name ∈ σ'.names else r.node.LeadsInto σ'.names := ih hv
    show (if r.stored then Node.refTo d.name else r.node).LeadsInto σ'.names
    split at hnode
    next hs =>
      rw [if_pos hs]
      rintro _ _ _ ⟨⟩
      exact hnode
    next hs =>
      rw [if_neg hs]
      exact hnode
  | plain hplain =>
    intro name t desc heq
    have hname : Node.Mentions name (.ref name t desc) := .here
    rw [← heq] at hname
    exact absurd hname hplain.not_mentions
  | @wrapped d inner t n node σ σ' hwraps _ _ ih =>
    have hn : n.LeadsInto σ'.names := ih hv
    intro name t desc heq
    cases hwraps with
    | nullable _ => exact absurd heq Node.makeNullable_ne_ref
    | array _ _ | map _ _ => cases heq
    | renamed _ _ _ _ _ =>
      obtain ⟨t', desc', heq⟩ := Node.exists_ref_of_apply heq
      split at heq
      · cases heq
      · exact hn name t' desc' heq
  | anyMap | cutArray | composed => rintro _ _ _ ⟨⟩
  | root _ _ hstores _ =>
    rcases stored_of_stores hstores with ⟨hs, hname⟩ | rfl
    · exact (if_pos hs).mpr hname
    · rintro _ _ _ ⟨⟩
  | derived _ _ _ _ hstores _ _ =>
    rcases stored_of_stores hstores with ⟨hs, hname⟩ | rfl
    · exact (if_pos hs).mpr hname
    · rintro _ _ _ ⟨⟩
  | cut | existing | enum | object | done | rest | property => trivial

end Schemata
