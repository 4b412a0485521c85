import Schemata.Proofs.Compiler.References
import Schemata.Proofs.Synthesis.Exploration
import Mathlib.Tactic.FinCases

/-!
# What publishing a type stores

Publishing a type stores all that the type leads to and that is published by name, and nothing
else.  This is so in every state that a host can bring a compiler into, since what has been stored
before has been explored to the end: `Session.Charted` says so of the session between calls.

The graph of types is that of the session a call ends in.  By then the session knows every type
that the published one leads to, and everything that these are made of, so that no later session
sees more of the graph.
-/

namespace Schemata

variable {env : Environment} {s s' S : Session}

/-- What has been explored by the calls so far, as told by a session that knows more. -/
def Session.Charted (env : Environment) (S s : Session) (E : Descriptor → Prop) : Prop :=
  Explored env S s.scene.names E [] s.scene

theorem Session.charted_empty : Session.Charted env S {} fun _ => False where
  knows := False.elim
  owned := ⟨nofun, nofun, List.nil_subset _⟩
  parts := False.elim
  stored := False.elim
  visited := False.elim

namespace Compiler

variable {c : Compiler} {t : Token} {n : Node} {E : Descriptor → Prop}

theorem charted_of_learns (h : Session.Charted env S s E) (hlearns : s.Learns env s') :
    Session.Charted env S s' E := by
  unfold Session.Charted
  rw [hlearns.scene]
  exact h

section

variable (hkeys : c.environment.KeysDistinct) (hS : S.WellRead c.environment)
  (htidy : s.Tidy c.environment)
include hkeys hS htidy

/-- **Publishing a type explores** what the type leads to. -/
theorem explores_of_ensure (hE : Session.Charted c.environment S s E)
    (h : c.ensure t s = .ok n s') (hbelow : s'.Below S) :
    ∃ d σ E', S.Settles (c.environment.describe t) d ∧ s'.scene = { σ with visited := [] } ∧
      Explores c.environment S s.scene.names (Reaches c.environment S d) E [] (.refers d n) σ E' ∧
      Session.Charted c.environment S s' E' := by
  obtain ⟨d, σ, hd, hderives, hend⟩ := derives_of_ensure h hbelow
  obtain ⟨E', hexplores⟩ := explores_of_derives hS hkeys (hereditary_reaches d) hderives
    .refl hE ⟨t, hd⟩
  have hadds := (hE.owned.mono hE.describes).adds hereditary_describes (.refers hd) hderives
  rw [Scene.resting_eq (htidy.claimed_subset_of_adds hadds)] at hend
  refine ⟨d, σ, E', hd, hend, hexplores, ?_⟩
  unfold Session.Charted
  rw [hend]
  exact hexplores.explored.rest

end

/-- Whatever has been stored has been explored to the end. -/
theorem charted_run (hkeys : c.environment.KeysDistinct) (hS : S.WellRead c.environment)
    (calls : List Call) (hbelow : (c.run calls).Below S) :
    ∃ E, Session.Charted c.environment S (c.run calls) E := by
  refine run_induction_below (P := fun s => ∃ E, Session.Charted c.environment S s E)
    ⟨_, Session.charted_empty⟩ ?_ ?_ calls hbelow
  · exact fun ⟨E, hE⟩ hlearns => ⟨E, charted_of_learns hE hlearns⟩
  · rintro s t n s' htidy ⟨E, hE⟩ h hbelow
    obtain ⟨_, _, E', _, _, _, hE'⟩ := explores_of_ensure hkeys hS htidy hE h hbelow
    exact ⟨E', hE'⟩

/-- **Exactly what a type leads to is stored.**  After any number of calls, a call that publishes a
type makes the stored names those from before and the names of all types that are published by
name and that the type leads to.  The session then knows all types that it leads to, and what each
of them is made of; and every stored name is the name of a type that is published by name, and
claimed for it. -/
theorem run_ensure_names (c : Compiler) (hkeys : c.environment.KeysDistinct)
    (calls : List Call) {t : Token} {n : Node} {s' : Session}
    (h : c.ensure t (c.run calls) = .ok n s') :
    ∃ d, s'.Settles (c.environment.describe t) d ∧
      (∀ name, name ∈ s'.registry.names ↔ name ∈ (c.run calls).registry.names ∨
        ∃ x, Reaches c.environment s' d x ∧ Published c.environment s' x ∧ x.name = name) ∧
      (∀ x, Reaches c.environment s' d x → s'.Knows c.environment x ∧
        ∀ t, PartOf c.environment s' x t → ∃ y, s'.Settles (c.environment.describe t) y) ∧
      ∀ name ∈ s'.registry.names, ∃ x, s'.Knows c.environment x ∧
        Published c.environment s' x ∧ x.name = name ∧ (name, x.key) ∈ s'.claims := by
  have htidy := tidy_run c calls
  obtain ⟨hgrows, htidy'⟩ := grows_of_ensure htidy h
  have hS := htidy'.wellRead
  obtain ⟨E, hE⟩ := charted_run hkeys hS calls hgrows.below
  obtain ⟨d, σ, E', hd, hend, hexplores, hE'⟩ :=
    explores_of_ensure hkeys hS htidy hE h (.refl _)
  have hnames : s'.registry.names = σ.names := congrArg Scene.names hend
  refine ⟨d, hd, ?_, ?_, ?_⟩
  · rw [hnames]
    refine hexplores.mem_names_iff hE hexplores.reached ?_
    rw [← hnames]
    exact hgrows.names_subset
  · intro x hx
    have hx' := Hereditary.of_reaches hE'.hereditary hexplores.reached hx
    refine ⟨hE'.knows hx', fun t ht => ?_⟩
    obtain ⟨y, -, hy⟩ := hE'.parts hx' x.apart_nil ht
    exact ⟨y, hy⟩
  · intro name hname
    obtain ⟨x, hx, hpub, heq, hclaim⟩ := hE'.exists_of_mem_names hname
    exact ⟨x, hE'.knows hx, hpub, heq, hclaim⟩

/-- A compiler that knows of books: a shelf has books, a book has a number and stands on a shelf,
and a volume is another name for a book. -/
def library : Compiler where
  environment :=
    { program :=
        { crafted :=
            [{ name := "Shelf"
               shape := .object
               properties := [{ name := "books", type := .crafted 1 }] },
             { name := "Books", shape := .array, inner := .crafted 2 },
             { name := "Book"
               shape := .object
               properties :=
                 [{ name := "number", type := .crafted 3 },
                  { name := "shelf", type := .crafted 0 }] },
             { name := "Number", shape := .object, base := some (.builtin .text) },
             { name := "Volume", shape := .object, base := some (.crafted 2) }] }
      maxDepth := 8
      captureDefaults := false }
  refPrefix := .ok "#/components/schemas/"
  release := "3.1.0"

/-- A volume leads to a book and a shelf, and neither a volume nor a number has an entry. -/
theorem library_ensure_names : library.environment.KeysDistinct ∧
    ∃ n s' d, library.ensure (.crafted 4) (library.run []) = .ok n s' ∧
      s'.registry.names = ["Shelf", "Book"] ∧
      ∀ name, name ∈ ["Shelf", "Book"] ↔ ∃ x, Reaches library.environment s' d x ∧
        Published library.environment s' x ∧ x.name = name := by
  have hkeys : library.environment.KeysDistinct := by
    refine Environment.keysDistinct_of_unsourced fun d hd => ?_
    fin_cases hd <;> rfl
  obtain ⟨n, s', h, hnames⟩ : ∃ n s', library.ensure (.crafted 4) (library.run []) = .ok n s' ∧
      s'.registry.names = ["Shelf", "Book"] := ⟨_, _, rfl, rfl⟩
  obtain ⟨d, -, hiff, -⟩ := run_ensure_names library hkeys [] h
  refine ⟨hkeys, n, s', d, h, hnames, fun name => ?_⟩
  have hempty : name ∉ (library.run []).registry.names := List.not_mem_nil
  rw [← hnames, hiff name, or_iff_right hempty]

end Compiler

end Schemata
