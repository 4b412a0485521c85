import Schemata.Proofs.Compiler.Reachability
import Schemata.Proofs.Synthesis.Positions

/-!
# What a host is given for a type

A host that publishes a type is given a reference to it, and references stand wherever the schemas
that are stored on the way expect a type that is published by name: that is what publishing is for.
`run_ensure_fits` says when it is so, in every state that a host can bring a compiler into; what it
comes to for a single part of a schema is told by `Fits.holds` and `Fits.shows_of_stores`.

The exception is a derived type whose base leads back to it, and that has yet to be stored.  The
type is then stored while its base is built, and what the host is given for it is an empty object
(`grove_ensure_empty`), although the schema is there and could be referred to.
-/

namespace Schemata

namespace Compiler

theorem fitting_old (env : Environment) (S : Session) (R : Descriptor → Prop) (σ : Scene) :
    σ.Fitting env S σ.names R :=
  fun _ he hfree => absurd (List.mem_map_of_mem he) hfree

/-- **When everything fits.**  After any number of calls, let a call publish a type.

If no type published by name that the type leads to and that has yet to be stored has a base that
leads back to it, then what the call gives fits the type, and every schema that the call stores fits
the type that it is stored for.

If the type is published by name itself, then the call gives a reference to its name, unless the
type has yet to be stored and has such a base; and then it gives an empty object. -/
theorem run_ensure_fits (c : Compiler) (hkeys : c.environment.KeysDistinct) (calls : List Call)
    {t : Token} {n : Node} {s' : Session} (h : c.ensure t (c.run calls) = .ok n s') :
    ∃ d, s'.Settles (c.environment.describe t) d ∧
      ((∀ x, Reaches c.environment s' d x → Published c.environment s' x →
          x.name ∉ (c.run calls).registry.names → ¬ SelfBased c.environment s' x) →
        Fits c.environment s' (.refers d n) ∧
          ∀ e ∈ s'.registry.entries, e.1 ∉ (c.run calls).registry.names →
            ∃ x base, Reaches c.environment s' d x ∧ x.name = e.1 ∧
              Fits c.environment s' (.stores x base ⟨e.2, true⟩)) ∧
      (Published c.environment s' d →
        n = .refTo d.name ∧
            ¬ (d.name ∉ (c.run calls).registry.names ∧ SelfBased c.environment s' d) ∨
          n = .emptyObject ∧ d.name ∉ (c.run calls).registry.names ∧
            SelfBased c.environment s' d) := by
  have htidy := tidy_run c calls
  obtain ⟨hgrows, htidy'⟩ := grows_of_ensure htidy h
  have hS := htidy'.wellRead
  obtain ⟨E, hE⟩ := charted_run hkeys hS calls hgrows.below
  obtain ⟨d, σ, hd, hderives, hend⟩ := derives_of_ensure h (.refl _)
  refine ⟨d, hd, fun hbased => ?_, fun hpub => ?_⟩
  · obtain ⟨hfitting, hn⟩ := fits_of_derives hS hkeys (hereditary_reaches d) hbased hderives
      .refl (hE.owned.mono hE.describes) (List.Subset.refl _)
      (fitting_old c.environment s' _ (c.run calls).scene) ⟨t, hd⟩
    refine ⟨hn, fun e he hfree => hfitting e ?_ hfree⟩
    have hentries : s'.scene.registry.entries = σ.registry.entries := by rw [hend]; rfl
    rw [← hentries]
    exact he
  · exact refers_published hS hkeys hE ⟨t, hd⟩ hpub rfl rfl hderives

/-- In a forest everything fits: trees have no base. -/
theorem forest_ensure_fits : forest.environment.KeysDistinct ∧
    ∃ n s' d, forest.ensure (.crafted 0) (forest.run []) = .ok n s' ∧ n = .refTo "Tree" ∧
      Fits forest.environment s' (.refers d n) ∧
      ∀ e ∈ s'.registry.entries, ∃ x base, x.name = e.1 ∧
        Fits forest.environment s' (.stores x base ⟨e.2, true⟩) := by
  have hkeys : forest.environment.KeysDistinct := by
    refine Environment.keysDistinct_of_unsourced fun d hd => ?_
    rw [List.mem_singleton.mp hd]
  obtain ⟨n, s', h, hn⟩ : ∃ n s', forest.ensure (.crafted 0) (forest.run []) = .ok n s' ∧
      n = .refTo "Tree" := ⟨_, _, rfl, rfl⟩
  obtain ⟨d, hd, hfits, -⟩ := run_ensure_fits forest hkeys [] h
  obtain ⟨hbase, hshape, hparts⟩ : d.base = none ∧ d.shape.isInline = false ∧
      ∀ q ∈ d.properties, q.type = .crafted 0 := by
    obtain ⟨rfl, -⟩ := pure_eq_ok.mp (hd ⟨s', []⟩ (.refl s'))
    exact ⟨rfl, rfl, fun q hq => by rw [List.mem_singleton.mp hq]⟩
  -- a tree leads to trees only
  have htrees : Hereditary forest.environment s' (· = d) := by
    rintro _ x rfl ⟨t, ht, hx⟩
    rcases (partOf_named hshape ht).2 with hb | ⟨_, q, hq, rfl⟩
    · cases hbase.symm.trans hb
    · rw [hparts q hq] at hx
      exact hx.unique hd
  obtain ⟨hroot, hentries⟩ := hfits fun x hx _ _ ⟨_, _, _, hb, _⟩ => by
    rw [Hereditary.of_reaches htrees rfl hx, hbase] at hb
    cases hb
  refine ⟨hkeys, n, s', d, h, hn, hroot, fun e he => ?_⟩
  obtain ⟨x, base, _, hname, hx⟩ := hentries e he List.not_mem_nil
  exact ⟨x, base, hname, hx⟩

/-- A branch has a leaf. -/
def branch : Descriptor where
  identity := .crafted 0
  name := "Branch"
  shape := .object
  properties := [{ name := "leaf", type := .crafted 1 }]

/-- A leaf is a branch with a value. -/
def leaf : Descriptor where
  identity := .crafted 1
  name := "Leaf"
  shape := .object
  base := some (.crafted 0)
  properties := [{ name := "value", type := .builtin .integer }]

/-- A compiler that knows of branches and leaves. -/
def grove : Compiler where
  environment :=
    { program := { crafted := [branch, leaf] }
      maxDepth := 8
      captureDefaults := false }
  refPrefix := .ok "#/components/schemas/"
  release := "3.1.0"

/-- **A leaf is published by name, and is stored, but an empty object is given for it.** -/
theorem grove_ensure_empty : grove.environment.KeysDistinct ∧
    ∃ n s', grove.ensure (.crafted 1) (grove.run []) = .ok n s' ∧
      s'.Settles (grove.environment.describe (.crafted 1)) leaf ∧
      Published grove.environment s' leaf ∧ SelfBased grove.environment s' leaf ∧
      leaf.name ∈ s'.registry.names ∧ n = .emptyObject ∧ n ≠ .refTo leaf.name := by
  have hkeys : grove.environment.KeysDistinct := by
    refine Environment.keysDistinct_of_unsourced fun d hd => ?_
    fin_cases hd <;> rfl
  obtain ⟨n, s', h, hn, hnames⟩ : ∃ n s', grove.ensure (.crafted 1) (grove.run []) = .ok n s' ∧
      n = .emptyObject ∧ s'.registry.names = ["Leaf", "Branch"] := ⟨_, _, rfl, rfl, rfl⟩
  have hbranch : s'.Settles (grove.environment.describe (.crafted 0)) branch := fun _ _ => rfl
  have hleaf : s'.Settles (grove.environment.describe (.crafted 1)) leaf := fun _ _ => rfl
  have hkind : s'.Settles (grove.environment.primitiveKind leaf) none := by
    have hrun : grove.environment.primitiveKind leaf ⟨{}, []⟩ = .ok none ⟨{}, []⟩ := rfl
    exact (Environment.reads_primitiveKind leaf).settles_of_below hrun List.nil_prefix
  have hpublished : Published grove.environment s' leaf :=
    ⟨rfl, hkind, .inr ⟨nofun, _, rfl, rfl⟩⟩
  have hback : Reaches grove.environment s' branch leaf := by
    have hpart : ({ name := "leaf", type := .crafted 1 } : Property) ∈ branch.properties :=
      List.mem_cons_self
    exact .single ⟨.crafted 1, .property (settles_primitiveKind_of_root rfl) (.inl rfl) hpart,
      hleaf⟩
  have hself : SelfBased grove.environment s' leaf :=
    ⟨.crafted 0, branch, leaf, rfl, hbranch, hback, hpublished, by decide⟩
  refine ⟨hkeys, n, s', h, hleaf, hpublished, hself, ?_, hn, ?_⟩
  · rw [hnames]
    decide
  · rw [hn]
    exact nofun

end Compiler

end Schemata
