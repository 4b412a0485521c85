import Schemata.Proofs.Fault.Causes
import Schemata.Proofs.Synthesis.Graph

/-!
# Graphs made by hand

A descriptor made by hand is its own description: asking for it learns nothing and never fails.
Where everything that descriptors name is such a descriptor, the graph of types is there before
anything is read (`Environment.Linked`), and so are all answers about it.  Where the bases of a
descriptor end is the same in every session (`Linked.baseChain_eq`, `Linked.primitiveKind_eq`),
and so is how it is published (`Linked.isInline_eq`, `Linked.publishesArray_eq`).
-/

namespace Schemata

/-- The tokens that stand for parts of a type: what is inside a wrapper, its base, and the types
of its properties. -/
def Descriptor.tokens (d : Descriptor) : List Token :=
  (if d.shape.isWrapper then [d.inner] else []) ++ d.base.toList ++ d.properties.map Property.type

namespace Descriptor

variable {d : Descriptor} {t : Token}

theorem inner_mem_tokens (h : d.shape.isWrapper = true) : d.inner ∈ d.tokens := by
  rw [tokens, if_pos h]
  exact List.mem_append_left _ (List.mem_append_left _ (List.mem_singleton_self _))

theorem base_mem_tokens (h : d.base = some t) : t ∈ d.tokens := by
  rw [tokens, h]
  exact List.mem_append_left _ (List.mem_append_right _ (List.mem_singleton_self _))

theorem type_mem_tokens {q : Property} (h : q ∈ d.properties) : q.type ∈ d.tokens :=
  List.mem_append_right _ (List.mem_map_of_mem h)

end Descriptor

namespace Environment

variable (env : Environment)

/-- How many descriptors are made by hand. -/
def size : Nat :=
  env.program.crafted.length

/-- A descriptor made by hand, as it is described. -/
def handmade (i : Nat) : Descriptor :=
  { (env.program.crafted[i]?).getD default with identity := .crafted i }

/-- **All that descriptors made by hand name are descriptors made by hand.** -/
def Linked : Prop :=
  ∀ d ∈ env.program.crafted, ∀ t ∈ d.tokens, ∃ j, j < env.size ∧ t = .crafted j

variable {env} {i : Nat}

theorem describe_handmade (i : Nat) : env.describe (.crafted i) = pure (env.handmade i) :=
  env.describe_crafted i

theorem exists_crafted (hi : i < env.size) :
    ∃ d ∈ env.program.crafted, env.program.crafted[i]? = some d ∧
      env.handmade i = { d with identity := .crafted i } := by
  refine ⟨env.program.crafted[i], List.getElem_mem hi, List.getElem?_eq_getElem hi, ?_⟩
  rw [handmade, List.getElem?_eq_getElem hi]
  rfl

namespace Linked

variable (hlinked : env.Linked)
include hlinked

theorem exists_of_mem (hi : i < env.size) {t : Token} (ht : t ∈ (env.handmade i).tokens) :
    ∃ j, j < env.size ∧ t = .crafted j := by
  obtain ⟨d, hd, -, heq⟩ := exists_crafted hi
  rw [heq] at ht
  exact hlinked d hd t ht

/-- The walk through the bases of a descriptor asks nothing of the session. -/
theorem basesFrom_eq (fuel : Nat) (seen : List Identity) (hi : i < env.size) :
    ∃ bases, env.basesFrom fuel seen (env.handmade i) = pure bases := by
  induction fuel generalizing seen i with
  | zero => exact ⟨[], rfl⟩
  | succ fuel ih =>
    unfold basesFrom
    cases hbase : (env.handmade i).base with
    | none => exact ⟨[], rfl⟩
    | some t =>
      obtain ⟨j, hj, rfl⟩ := hlinked.exists_of_mem hi (Descriptor.base_mem_tokens hbase)
      simp only [describe_handmade, pure_bind]
      split
      · exact ⟨[], rfl⟩
      split
      · exact ⟨[env.handmade j], rfl⟩
      · obtain ⟨bases, hbases⟩ := ih ((env.handmade j).identity :: seen) hj
        rw [hbases]
        exact ⟨env.handmade j :: bases, rfl⟩

theorem baseChain_eq (hi : i < env.size) :
    ∃ bases, env.baseChain (env.handmade i) = pure bases :=
  hlinked.basesFrom_eq _ _ hi

theorem primitiveKind_eq (hi : i < env.size) :
    ∃ kind, env.primitiveKind (env.handmade i) = pure kind := by
  unfold primitiveKind
  split
  · exact ⟨none, rfl⟩
  · obtain ⟨bases, hbases⟩ := hlinked.baseChain_eq hi
    rw [hbases, pure_bind]
    cases bases.getLast? with
    | some b => exact ⟨_, rfl⟩
    | none => exact ⟨none, rfl⟩

theorem isInline_eq (hi : i < env.size) :
    ∃ b, env.isInline (env.handmade i) = pure b := by
  unfold isInline
  split
  · exact ⟨true, rfl⟩
  · obtain ⟨kind, hkind⟩ := hlinked.primitiveKind_eq hi
    rw [hkind]
    exact ⟨kind.isSome, rfl⟩

/-- Whether a descriptor is published as an array is the same in every session, and so is why
that cannot be told. -/
theorem publishesArray_eq (hi : i < env.size) :
    ∃ r, FailsOnly Fault.OfAnnotation r ∧ env.publishesArray (env.handmade i) = Build.lift r := by
  obtain ⟨kind, hkind⟩ := hlinked.primitiveKind_eq hi
  unfold publishesArray
  rw [hkind, pure_bind]
  split
  · exact ⟨.ok false, .ok _, rfl⟩
  split
  · exact ⟨.ok false, .ok _, rfl⟩
  · have hmerge := Constraints.failsOnly_merge (env.handmade i).annotations
    cases h : Constraints.merge (env.handmade i).annotations with
    | ok c => exact ⟨.ok c.array, .ok _, rfl⟩
    | error e => exact ⟨.error e, .error (hmerge e h), rfl⟩

/-- What stands for a part of a descriptor is one of its tokens. -/
theorem mem_tokens_of_partOf {s : Session} {t : Token} (hi : i < env.size)
    (h : PartOf env s (env.handmade i) t) : t ∈ (env.handmade i).tokens := by
  cases h with
  | inner hshape =>
    refine Descriptor.inner_mem_tokens ?_
    rcases hshape with hshape | hshape <;> rw [hshape] <;> rfl
  | value hshape =>
    have hinner : (env.handmade i).inner ∈ (env.handmade i).tokens :=
      Descriptor.inner_mem_tokens (by rw [hshape]; rfl)
    obtain ⟨j, -, heq⟩ := hlinked.exists_of_mem hi hinner
    rw [mapInner, heq]
    rwa [heq] at hinner
  | base _ _ hbase => exact Descriptor.base_mem_tokens hbase
  | property _ _ hq => exact Descriptor.type_mem_tokens hq

/-- **Descriptors made by hand lead to descriptors made by hand.** -/
theorem hereditary {s : Session} :
    Hereditary env s fun d => ∃ i, i < env.size ∧ d = env.handmade i := by
  rintro _ x ⟨i, hi, rfl⟩ ⟨t, ht, hx⟩
  obtain ⟨j, hj, rfl⟩ := hlinked.exists_of_mem hi (hlinked.mem_tokens_of_partOf hi ht)
  have hrun := hx ⟨s, []⟩ (.refl s)
  rw [describe_handmade] at hrun
  obtain ⟨rfl, -⟩ := pure_eq_ok.mp hrun
  exact ⟨j, hj, rfl⟩

end Linked

end Environment

end Schemata
