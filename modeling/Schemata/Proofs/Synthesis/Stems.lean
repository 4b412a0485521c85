import Schemata.Proofs.Schema.Showing
import Schemata.Proofs.Synthesis.Instances

/-!
# Which property of a type is shown

Every property that a schema shows is a property of some type: what holds the type of the property
has been made, annotations have been laid on it, and perhaps it has been given a default.  `Stem`
says this of one property.

What the default is, and for whom the schema was stored, is a matter of instances and claims, and of
types being told apart by their keys.  Where annotations and types count and nothing else, one need
not ask for that much: `stems_of_derives` holds in every environment.
-/

namespace Schemata

open Environment (ObjectParts)

section

variable (env : Environment) (s : Session)

/-- **A property of a schema stems from a property of a type.** -/
structure Stem (d : Descriptor) (q : Property) (p : String × Node) : Prop where
  described : s.Describes env d
  property : q ∈ d.properties
  own : q.catchAll = false
  name : q.name = p.1
  dressed : ∃ c x m v σ σ₁, Constraints.merge q.annotations = .ok c ∧
    s.Settles (env.describe q.type) x ∧ Derives env s (.refers x m) σ σ₁ ∧
      p.2 = (c.laidOn m).withDefault v

/-- All properties that a node shows stem from properties of types. -/
def Node.Stems (n : Node) : Prop :=
  ∀ p, n.Shows p → ∃ d q, Stem env s d q p

/-- All properties that are shown by what is stored in a scene stem from properties of types. -/
def Scene.Stems (σ : Scene) : Prop :=
  ∀ e ∈ σ.registry.entries, e.2.Stems env s

/-- All properties that a judgement shows stem from properties of types. -/
def Judgement.Stems : Judgement → Prop
  | .refers _ n => n.Stems env s
  | .builds _ r => r.node.Stems env s
  | .stores _ _ r => r.node.Stems env s
  | .fills _ _ _ o => o.toNode.Stems env s

/-- A judgement is about a described type, and starts from a base, or from an object and some of the
properties of the type. -/
def Judgement.Rooted : Judgement → Prop
  | .refers d _ => s.Describes env d
  | .builds d _ => s.Describes env d
  | .stores d base _ => s.Describes env d ∧ ∀ b, base = some b → b.Stems env s
  | .fills d o qs _ => s.Describes env d ∧ qs ⊆ d.properties ∧ o.toNode.Stems env s

end

variable {env : Environment} {s : Session} {n : Node} {σ σ₁ : Scene} {J : Judgement}

theorem Node.Stems.of_not (h : ∀ p, ¬ n.Shows p) : n.Stems env s :=
  fun p hp => absurd hp (h p)

theorem Node.Stems.refTo (name : String) : (Node.refTo name).Stems env s :=
  of_not fun _ => Shows.not_of_nil rfl rfl

/-- A node is stored whose properties stem from properties of types. -/
theorem Scene.Stems.putting (h : σ.Stems env s) {name : String} (hn : n.Stems env s) :
    (σ.putting name n).Stems env s ∧ (σ.registry.put name n).1.Stems env s := by
  cases hget : σ.registry.get? name with
  | some stored =>
    unfold Scene.putting
    rw [Registry.put_of_get? hget]
    exact ⟨h, h _ (Registry.mem_entries_of_get? hget)⟩
  | none =>
    rw [Scene.putting, Registry.put_of_free hget]
    refine ⟨fun e he => ?_, hn⟩
    rw [(Registry.grown_store hget).entries] at he
    rcases List.mem_append.mp he with he | he
    · exact h e he
    · rwa [List.mem_singleton.mp he]

/-- The registry does not change when a name is claimed. -/
theorem stems_of_claims {d : Descriptor} (hclaims : σ.Claims d σ₁) (h : σ.Stems env s) :
    σ₁.Stems env s := by
  rcases hclaims with ⟨_, -, -, rfl⟩ | ⟨-, rfl⟩ <;> exact h

/-- How a property is dressed: constraints are laid on what holds its type, and it may be given a
default. -/
theorem exists_default_of_dress {d : Descriptor} {q : Property} {c : Constraints}
    {held node : Node} {w w' : Walk} (h : env.dress d q c held w = .ok node w') :
    ∃ v, node = (c.laidOn held).withDefault v := by
  have hdress := Environment.dress_eq_ok.mp h
  split at hdress
  · obtain ⟨_, v, _, _, hnode⟩ := hdress
    exact ⟨v, hnode⟩
  · exact ⟨none, hdress.1⟩

/-- **Every property that a synthesis shows stems from a property of a type.** -/
theorem stems_of_derives (h : Derives env s J σ σ₁) (hJ : J.Rooted env s) (hσ : σ.Stems env s) :
    σ₁.Stems env s ∧ J.Stems env s := by
  induction h with
  | inPlace _ _ ih => exact ih hJ hσ
  | known _ _ hclaims => exact ⟨stems_of_claims hclaims hσ, .refTo _⟩
  | awaited => exact ⟨hσ, .refTo _⟩
  | @fresh d r _ _ _ _ _ _ ih =>
    obtain ⟨hentries, hnode⟩ := ih hJ hσ
    refine ⟨hentries, ?_⟩
    show (if r.stored then Node.refTo d.name else r.node).Stems env s
    split
    · exact .refTo _
    · exact hnode
  | plain hplain => exact ⟨hσ, .of_not fun _ => hplain.not_shows⟩
  | wrapped hwraps hinner _ ih =>
    obtain ⟨hentries, hnode⟩ := ih ⟨_, hinner⟩ hσ
    exact ⟨hentries, fun p hp => hnode p (hwraps.shows hp)⟩
  | @anyMap _ _ c _ =>
    refine ⟨hσ, .of_not fun p hp => ?_⟩
    have hshown : (c.apply (.object {} [] none (some true))).Shows p := hp
    exact Node.Shows.not_of_nil rfl rfl hshown.of_apply
  | cutArray | cut => exact ⟨hσ, .of_not fun _ => Node.Shows.not_of_nil rfl rfl⟩
  | root _ _ _ ih => exact ih ⟨hJ, nofun⟩ hσ
  | @composed d b base c m o _ _ _ _ _ hdescribe _ _ ihrefers ihfills =>
    obtain ⟨hentries₁, hm⟩ := ihrefers ⟨_, hdescribe⟩ hσ
    have hstart : ((ObjectParts.ofNode .emptyObject).requiring c.required).toNode.Stems env s :=
      .of_not fun _ => Node.Shows.not_of_nil rfl rfl
    obtain ⟨hentries₂, ho⟩ := ihfills ⟨hJ, List.Subset.refl _, hstart⟩ hentries₁
    refine ⟨hentries₂, fun p hp => ?_⟩
    have hshown : (Constraints.apply { c with required := [] }
        (.array {} (.composition [m, o.toNode] none none))).Shows p := hp
    exact hshown.of_composed.elim (hm p) (ho p)
  | derived _ _ hdescribe _ _ ihrefers ihstores =>
    obtain ⟨hentries, hm⟩ := ihrefers ⟨_, hdescribe⟩ hσ
    exact ihstores ⟨hJ, fun b hb => Option.some.inj hb ▸ hm⟩ hentries
  | existing _ hclaims hstored =>
    have hentries := stems_of_claims hclaims hσ
    exact ⟨hentries, hentries _ (Registry.mem_entries_of_get? hstored)⟩
  | enum _ hclaims _ _ _ hn =>
    rw [hn]
    exact (stems_of_claims hclaims hσ).putting (.of_not fun _ => Node.Shows.not_of_nil rfl rfl)
  | object _ hclaims _ _ _ _ ih =>
    obtain ⟨hentries, ho⟩ := ih
      ⟨hJ.1, List.Subset.refl _, .of_not fun _ => Node.Shows.not_start⟩ (stems_of_claims hclaims hσ)
    refine hentries.putting fun p hp => ?_
    rcases hp.of_over with hp | ⟨b, hb, hp⟩
    · exact ho p hp
    · exact hJ.2 b hb p hp
  | done => exact ⟨hσ, hJ.2.2⟩
  | rest _ _ hdescribe _ _ ihrefers ihfills =>
    obtain ⟨hd, hqs, ho⟩ := hJ
    obtain ⟨hentries, hm⟩ := ihrefers ⟨_, hdescribe⟩ hσ
    exact ihfills ⟨hd, (List.cons_subset.mp hqs).2,
      fun p hp => hp.of_accepting.elim (ho p) (hm p)⟩ hentries
  | @property d inner o o' q qs c m node w w' σ σ₁ σ₂ hown hmerge hdescribe hrefers hdress _
      ihrefers ihfills =>
    obtain ⟨hd, hqs, ho⟩ := hJ
    obtain ⟨hq, hqs⟩ := List.cons_subset.mp hqs
    obtain ⟨hentries, hm⟩ := ihrefers ⟨_, hdescribe⟩ hσ
    obtain ⟨v, hnode⟩ := exists_default_of_dress hdress
    refine ihfills ⟨hd, hqs, fun p hp => ?_⟩ hentries
    rcases hp.of_adding with hp | rfl | hp
    · exact ho p hp
    · exact ⟨d, q, hd, hq, hown, rfl, c, inner, m, v, σ, σ₁, hmerge, hdescribe, hrefers, hnode⟩
    · exact hm p (hp.of_dress hdress)

end Schemata
