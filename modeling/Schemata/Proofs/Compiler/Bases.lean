import Schemata.Proofs.Compiler.Run
import Schemata.Proofs.Synthesis.Bases
import Schemata.Proofs.Synthesis.Handmade
import Mathlib.Tactic.FinCases

/-!
# The bases of a type

Whether a type is published in place, what it inherits and which of its properties are required are
told by its bases, and the bases may lead anywhere: back to the type, into a circle that the type is
not on, to a leaf, or to a type that cannot be read.  `run_baseChain` says what is found in each of
these cases, whatever calls have been made before.

What is found lasts.  It is told of all the sessions that know as much as the one that the walk ends
in, so that nothing that is read later makes the climb longer or the leaf another one.
-/

namespace Schemata

namespace Compiler

/-- **The bases that are found are the longest climb, and their end is the leaf.**  Let there be any
number of calls, and let bases that are read in passing come to an end.  The walk through the bases
of a type that has been described either succeeds, and then

the bases are climbed, and every other climb is the beginning of it; and a kind of leaf is told if
and only if following bases leads to a leaf of that kind which is not the type itself, and none is
told where they come back to the type or to one of them;

or it fails, and then it has climbed objects up to one whose base cannot be read. -/
theorem run_baseChain (c : Compiler) (calls : List Call) (hends : c.environment.BasesEnd)
    {d : Descriptor} (hd : (c.run calls).Describes c.environment d) :
    match Session.run (c.environment.baseChain d) (c.run calls) with
    | .ok bases s => ∃ kind,
        Session.run (c.environment.primitiveKind d) (c.run calls) = .ok kind s ∧
        s.WellRead c.environment ∧ ∀ S, s.Below S → S.WellRead c.environment →
          S.LongestClimb c.environment d bases ∧ S.LeadsTo c.environment d kind
    | .error e s =>
        Session.run (c.environment.primitiveKind d) (c.run calls) = .error e s ∧
        ∃ path b t, s.ClimbsBases c.environment d path ∧ (∀ x ∈ path, x.shape = .object) ∧
          (d :: path).getLast? = some b ∧ b.base = some t ∧
          Session.run (c.environment.describe t) s = .error e s := by
  cases hrun : c.environment.baseChain d ⟨c.run calls, []⟩ with
  | ok bases w =>
    simp only [Session.run, hrun]
    have hlearns := ((Environment.reads_baseChain d).learns.ok hrun).session
    refine ⟨leafKind bases, ?_, hlearns.wellRead (tidy_run c calls).wellRead, fun S hS hread => ?_⟩
    · rw [Environment.primitiveKind_of_baseChain hrun]
    · have hdescribed : S.Describes c.environment d :=
        let ⟨t, ht⟩ := hd
        ⟨t, ht.mono (hlearns.below.trans hS)⟩
      have hascends := Environment.ascends_of_baseChain hends hread hdescribed hrun hS
      exact ⟨hascends.longestClimb, hascends.leadsTo hread hdescribed⟩
  | error e w =>
    simp only [Session.run, hrun]
    have hvisited : w.visited = [] := ((Environment.reads_baseChain d).learns.error hrun).visited
    obtain ⟨path, b, t, hpath, hobjects, hlast, hb, herror⟩ :=
      Environment.exists_of_baseChain_error hrun
    refine ⟨?_, path, b, t, hpath, hobjects, hlast, hb, ?_⟩
    · rw [Environment.primitiveKind_of_baseChain_error hrun]
    · have hw : w = ⟨w.session, []⟩ := by rw [← hvisited]
      rw [← hw, herror]

/-- A compiler that knows of types whose bases lead in circles, of one whose bases end at a leaf,
and of one with a base that no reading can be kept for: a gauge is a mark, and a mark is a level
with a bound that is a list. -/
def waterworks : Compiler where
  environment :=
    { program :=
        { classes := [level]
          brands := [mark]
          crafted :=
            [{ name := "Spring", shape := .object, base := some (.crafted 1) },
             { name := "Brook", shape := .object, base := some (.crafted 2) },
             { name := "River", shape := .object, base := some (.crafted 1) },
             { name := "Lake", shape := .object, base := some (.crafted 4) },
             { name := "Canal", shape := .object, base := some (.crafted 3) },
             { name := "Gauge", shape := .object, base := some (.brand 0) },
             { name := "Depth", shape := .object, base := some (.crafted 7) },
             { name := "Metre", shape := .primitive, kind := some .integer }] }
      maxDepth := 8
      captureDefaults := false }
  refPrefix := .ok "#/components/schemas/"
  release := "3.1.0"
where
  level : Class :=
    { name := "Level", module := "waterworks", qualname := "Level", bases := [.builtin .object] }
  mark : Brand :=
    { name := "Mark"
      module := "waterworks"
      qualname := "Mark"
      of := .annotated (.declared 0) [.limit (.atLeast (.list []))] }

theorem waterworks_basesEnd : waterworks.environment.BasesEnd := by
  refine .of_forall fun t ht t' hpasses => ?_
  obtain ⟨hkey, d, hread, hbase⟩ := hpasses
  have hlist : waterworks.environment.baseTokens =
      [.builtin .dict, .crafted 1, .crafted 2, .crafted 1, .crafted 4, .crafted 3, .brand 0,
        .crafted 7, waterworks.mark.of] := rfl
  rw [hlist] at ht
  fin_cases ht <;> first | (cases hkey; done) | (cases hread; cases hbase)

/-- The names of the bases that are found for a descriptor made by hand, and the kind of leaf that
they end at. -/
def Finds (c : Compiler) (i : Nat) (names : List String) (kind : Option Kind) : Prop :=
  ∃ bases s, Session.run (c.environment.baseChain (c.environment.handmade i)) (c.run []) =
      .ok bases s ∧ bases.map Descriptor.name = names ∧
    s.LongestClimb c.environment (c.environment.handmade i) bases ∧
    s.LeadsTo c.environment (c.environment.handmade i) kind

/-- The circle of a brook and a river is gone around once, a lake is not its own base, a gauge is a
mark and a level although no level is kept, and a depth is an integer. -/
theorem waterworks_baseChain : waterworks.environment.BasesEnd ∧
    waterworks.Finds 0 ["Brook", "River"] none ∧ waterworks.Finds 3 ["Canal"] none ∧
    waterworks.Finds 5 ["Mark", "Level"] none ∧ waterworks.Finds 6 ["Metre"] (some .integer) := by
  have hfinds (i : Nat) (names : List String) (kind : Option Kind)
      (hnames : yields (Session.run (waterworks.environment.baseChain
        (waterworks.environment.handmade i))) (waterworks.run [])
        (fun bases _ => bases.map Descriptor.name == names) = true)
      (hkind : yields (Session.run (waterworks.environment.primitiveKind
        (waterworks.environment.handmade i))) (waterworks.run [])
        (fun k _ => k == kind) = true) : waterworks.Finds i names kind := by
    obtain ⟨bases, s, hrun, hnames⟩ := exists_of_yields hnames
    obtain ⟨k, s', hrun', hkind⟩ := exists_of_yields hkind
    have htold := run_baseChain waterworks [] waterworks_basesEnd
      (d := waterworks.environment.handmade i) ⟨.crafted i, fun _ _ => rfl⟩
    rw [hrun] at htold
    obtain ⟨kind', hkind', hread, htold⟩ := htold
    cases hrun'.symm.trans hkind'
    cases eq_of_beq hkind
    obtain ⟨hlongest, hleads⟩ := htold s (.refl s) hread
    exact ⟨bases, s, hrun, eq_of_beq hnames, hlongest, hleads⟩
  exact ⟨waterworks_basesEnd, hfinds 0 _ _ (by decide +kernel) (by decide +kernel),
    hfinds 3 _ _ (by decide +kernel) (by decide +kernel),
    hfinds 5 _ _ (by decide +kernel) (by decide +kernel),
    hfinds 6 _ _ (by decide +kernel) (by decide +kernel)⟩

end Compiler

end Schemata
