import Schemata.Proofs.Compiler.Depth
import Schemata.Proofs.Synthesis.Headroom

/-!
# Runs under a higher limit

A host that has set a limit to how deep types may nest, and has published all it wanted, may raise
the limit.  Had it been higher from the start, nothing would have come out differently: every call
would have succeeded, with the same node, and the session would be the same, with all that is stored
in the same order (`mapM_ensure_limited`).  The session that the calls start in is no matter.

A call reads its type, refers to it inside a group of writes, and forgets claims in the end.  Of
these only the second counts depth.  A group is dropped where the writing fails, which is one more
way in which two runs could come apart; but a run under the lower limit that has failed for want of
depth is not followed any further (`Outlasts`).
-/

namespace Schemata

namespace Compiler

/-- The compiler with another limit to how deep types may nest. -/
def limited (c : Compiler) (limit : Nat) : Compiler :=
  { c with environment := c.environment.limited limit }

/-- **Publishing a type under the higher of two limits** does what it does under the lower, where
that does not fail for want of depth. -/
theorem outlasts_ensure (c : Compiler) {low high : Nat} (h : low ≤ high) (t : Token) :
    Outlasts ((c.limited high).ensure t) ((c.limited low).ensure t) := by
  have hrefer (d : Descriptor) : Outlasts (((c.environment.limited low).limited high).referRoot d)
      ((c.environment.limited low).referRoot d) := Environment.outlasts_referRoot h d
  unfold ensure
  refine (Outlasts.refl ((c.limited low).describe t)).bind fun d => ?_
  simp only [run_eq_around, transaction_eq_around, pruning_eq_around]
  exact (((hrefer d).around _ _ _).around _ _ _).around _ _ _

/-- **Raising the limit changes nothing.**  If some types have been published in turn, all with
success, then under a higher limit they are published with success too, in a session that started
alike; they are pointed at in the same way, and the session ends up the same: the same schemas are
stored under the same names, in the same order. -/
theorem mapM_ensure_limited (c : Compiler) {low high : Nat} (h : low ≤ high) (ts : List Token)
    {s s' : Session} {ns : List Node} (hrun : ts.mapM (c.limited low).ensure s = .ok ns s') :
    ts.mapM (c.limited high).ensure s = .ok ns s' :=
  (Outlasts.mapM (outlasts_ensure c h) ts).eq_ok hrun

/-- In a household, families and children can be published with three levels, and so they can with
five. -/
theorem household_mapM_ensure_limited : 3 ≤ 5 ∧ ∃ ns s,
    [Token.crafted 1, .crafted 2].mapM (household.limited 3).ensure {} = .ok ns s ∧
      s.registry.names = ["Person", "Child"] ∧
      [Token.crafted 1, .crafted 2].mapM (household.limited 5).ensure {} = .ok ns s := by
  have hlimits : 3 ≤ 5 := by decide
  have hrun : yields ([Token.crafted 1, .crafted 2].mapM (household.limited 3).ensure) {}
      fun _ s => s.registry.names == ["Person", "Child"] := by decide +kernel
  obtain ⟨ns, s, hrun, hnames⟩ := exists_of_yields hrun
  exact ⟨hlimits, ns, s, hrun, beq_iff_eq.mp hnames,
    mapM_ensure_limited household hlimits _ hrun⟩

end Compiler

end Schemata
