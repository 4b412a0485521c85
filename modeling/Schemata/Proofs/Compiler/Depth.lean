import Schemata.Proofs.Compiler.Run
import Schemata.Proofs.Synthesis.Depth
import Mathlib.Tactic.FinCases

/-!
# Limits that are never reached

A host sets a limit to how deep types may nest, and types that nest deeper are refused.  In a graph
made by hand it is enough that the limit is larger than the square of the number of descriptors:
then no descriptor is refused for its depth, whatever cycles there are through properties, and
whatever has been published before (`run_ensure_not_tooDeep`).
-/

namespace Schemata

namespace Compiler

variable {c : Compiler} {s s' : Session} {i : Nat}

/-- Publishing a descriptor made by hand, in a session where nothing is under construction. -/
theorem ensure_not_tooDeep (hlinked : c.environment.Linked)
    (hacyclic : ∀ i, ¬ Relation.TransGen c.environment.Rests i i)
    (hlimit : c.environment.size * (c.environment.size + 1) ≤ c.environment.maxDepth)
    (hi : i < c.environment.size) (hdepth : s.depth = 0) {e : Fault}
    (h : c.ensure (.crafted i) s = .error e s') : e.isDepth = false := by
  have hdescribe : c.describe (.crafted i) s = .ok (c.environment.handmade i) s := rfl
  rcases ensure_error h with hd | ⟨d, s₁, w, hd, hr, -⟩
  · cases hdescribe.symm.trans hd
  · obtain ⟨rfl, rfl⟩ : c.environment.handmade i = d ∧ s = s₁ := by
      injection hdescribe.symm.trans hd with h₁ h₂
      exact ⟨h₁, h₂⟩
    have hafford : c.environment.Affords (c.environment.build c.environment.levels) 0
        c.environment.levels := by
      intro j w hj hd hn
      refine Environment.clears_build hlinked hacyclic _ hj ?_ hn
      rw [hd, Nat.zero_add]
      rfl
    refine (Environment.clears_refer hlinked hafford hi hdepth ?_).error hr
    exact Nat.lt_succ_of_le (Nat.le_trans (Environment.need_le hacyclic hi []) hlimit)

/-- **Cycles through properties end.**  Let everything that the descriptors made by hand name be
descriptors made by hand, and let wrappers and bases never lead back to where they started.  If the
limit is at least `n * (n + 1)` for `n` descriptors, then publishing one of them, after any number
of calls, is never refused because types nest too deep. -/
theorem run_ensure_not_tooDeep (c : Compiler) (hlinked : c.environment.Linked)
    (hacyclic : ∀ i, ¬ Relation.TransGen c.environment.Rests i i)
    (hlimit : c.environment.size * (c.environment.size + 1) ≤ c.environment.maxDepth)
    (calls : List Call) (hi : i < c.environment.size) (subject : String) (limit : Int)
    (s' : Session) :
    c.ensure (.crafted i) (c.run calls) ≠ .error (.tooDeep subject limit) s' := by
  intro h
  cases ensure_not_tooDeep hlinked hacyclic hlimit hi (tidy_run c calls).depth h

/-- A compiler that knows of families: a person has a family, a family is made of persons, and a
child is a person with a guardian. -/
def household : Compiler where
  environment :=
    { program :=
        { crafted :=
            [{ name := "Person"
               shape := .object
               properties := [{ name := "family", type := .crafted 1 }] },
             { name := "Family", shape := .array, inner := .crafted 0 },
             { name := "Child"
               shape := .object
               base := some (.crafted 0)
               properties := [{ name := "guardian", type := .crafted 2 }] }] }
      maxDepth := 12
      captureDefaults := false }
  refPrefix := .ok "#/components/schemas/"
  release := "3.1.0"

/-- In a household a child can be published, whoever has been before. -/
theorem household_ensure_not_tooDeep : household.environment.Linked ∧
    (∀ i, ¬ Relation.TransGen household.environment.Rests i i) ∧
    household.environment.size * (household.environment.size + 1) ≤ household.environment.maxDepth ∧
    ∀ calls subject limit s', household.ensure (.crafted 2) (household.run calls) ≠
      .error (.tooDeep subject limit) s' := by
  have hlinked : household.environment.Linked := by
    intro d hd t ht
    fin_cases hd <;> fin_cases ht <;> exact ⟨_, by decide, rfl⟩
  -- families rest on persons and so do children, and persons come first
  have hrests : ∀ {i j}, household.environment.Rests i j → j < i := by
    intro i j h
    match i with
    | 0 => obtain (⟨⟨⟩, _⟩ | ⟨_, ⟨⟩⟩) := h
    | 1 =>
      obtain (⟨_, h⟩ | ⟨⟨⟩, _⟩) := h
      cases h
      exact Nat.one_pos
    | 2 =>
      obtain (⟨⟨⟩, _⟩ | ⟨_, h⟩) := h
      cases h
      exact Nat.two_pos
    | i + 3 => obtain (⟨⟨⟩, _⟩ | ⟨⟨⟩, _⟩) := h
  have hacyclic : ∀ i, ¬ Relation.TransGen household.environment.Rests i i := by
    intro i h
    suffices hlt : ∀ {j}, Relation.TransGen household.environment.Rests i j → j < i from
      Nat.lt_irrefl i (hlt h)
    intro j h
    induction h with
    | single h => exact hrests h
    | tail _ h ih => exact Nat.lt_trans (hrests h) ih
  have hlimit : household.environment.size * (household.environment.size + 1) ≤
      household.environment.maxDepth := by decide
  exact ⟨hlinked, hacyclic, hlimit, fun calls subject limit s' =>
    run_ensure_not_tooDeep household hlinked hacyclic hlimit calls (by decide) subject limit s'⟩

end Compiler

end Schemata
