import Schemata.Proofs.Compiler.Publication
import Schemata.Proofs.Synthesis.Quiet

/-!
# What defaults can do to a call

A compiler that captures defaults means to take them where it finds them and to do without them
where it does not.  The compiler that publishes no defaults (`Compiler.quiet`) tells how far this
goes: a call on the one does what it does on the other, and comes to the same fault if it fails, but
for the defaults (`capture_is_best_effort`).  There is one way in which a default makes a call fail.
It is a signaling not-a-number, bare or behind a member of an enumeration, which refuses to be
compared with zero, and the comparison is not among the things whose failure is taken for the lack
of a default (`ledger_signals`).
-/

namespace Schemata

open Build

namespace Compiler

/-- The compiler that publishes no defaults. -/
def quiet (c : Compiler) : Compiler :=
  { c with environment := c.environment.quiet }

/-- **Publishing a type without defaults** is publishing it with them, but for the defaults, unless
one of them stands in the way. -/
theorem alike_ensure (c : Compiler) (t : Token) {s s' : Session} (h : s.Resembles s') :
    Pairs (fun n n' : Node => n.undefaulted = n'.undefaulted) Session.Resembles
      (fun e s => s.Balks c.environment e) (c.quiet.ensure t s) (c.ensure t s') := by
  have hfresh {s s' : Session} (h : s.Resembles s') : Walk.Resembles ⟨s, []⟩ ⟨s', []⟩ := ⟨h, rfl⟩
  unfold ensure
  refine Pairs.bind (A := fun d d' => d = d') ?_ fun {d d' s₁ s₁'} _ hd heq h => ?_
  · unfold describe
    rw [run_eq_around, run_eq_around]
    have hread : Alike c.environment id (c.environment.describe t ⟨s, []⟩)
        (c.environment.describe t ⟨s', []⟩) :=
      alike_question (Environment.heeds_describe t) (Environment.reads_describe t).learns (hfresh h)
    exact hread.around (·.session) (·.session) id
  subst heq
  have hdescribes : s₁'.Describes c.environment d := describes_of_describe hd
  simp only [run_eq_around, transaction_eq_around, pruning_eq_around]
  refine Pairs.around (R := Session.Resembles) (Z := fun e s => s.Balks c.environment e) ?_
    (·.prune) (·.prune) id
  refine Pairs.around (R := Session.Resembles) (Z := fun e s => s.Balks c.environment e) ?_
    (·.within Registry.mapped_commit) (·.within Registry.mapped_rollback) id
  exact (Environment.alike_referRoot hdescribes (hfresh (h.within Registry.mapped_open))).around
    (·.session) (·.session) id

/-- **Capturing defaults is best effort**, but for those that signal.

* The default of a property is captured exactly if its type can be looked up and it does not signal.
  What is captured is the published form of the value that the property has on the instance of its
  type.
* A call on a compiler succeeds only if it does so without defaults; how to point at the type, and
  all that is stored, is then the same but for the defaults.  If a call fails, then it fails without
  defaults as well, with the same fault and leaving the same behind, unless the fault is that of a
  comparison and a type has been read that has a property whose default signals. -/
theorem capture_is_best_effort (c : Compiler) :
    (∀ (d : Descriptor) (q : Property) (w : Walk),
      ((∃ v w', capture d q w = .ok v w') ↔ d.key.check = .ok () ∧ ¬ w.session.Signals d q) ∧
      ∀ v w', capture d q w = .ok (some v) w' →
        ∃ x, w.session.heldFor d q = some x ∧ x.literal = .ok v) ∧
    ∀ (t : Token) (s : Session), match c.ensure t s with
      | .ok n s' => ∃ n₀ s₀, c.quiet.ensure t s = .ok n₀ s₀ ∧ n₀.undefaulted = n.undefaulted ∧
          s₀.Resembles s'
      | .error e s' => (∃ s₀, c.quiet.ensure t s = .error e s₀ ∧ s₀.Resembles s') ∨
          s'.Balks c.environment e := by
  refine ⟨fun d q w => ⟨exists_capture_iff, fun v w' => literal_of_capture⟩, fun t s => ?_⟩
  have halike := c.alike_ensure t (Session.Resembles.refl s)
  generalize c.quiet.ensure t s = r, c.ensure t s = r' at halike
  cases halike with
  | ok hn h => exact ⟨_, _, rfl, hn, h⟩
  | error h => exact .inl ⟨_, rfl, h⟩
  | cut h => exact .inr h

/-- A compiler that knows of a ledger whose total is, by default, a not-a-number that signals. -/
def ledger : Compiler where
  environment :=
    { program :=
        { classes :=
            [{ name := "Ledger"
               module := "shop"
               qualname := "Ledger"
               form := .record
               fields := [{ name := "total", type := .token (.builtin .decimal),
                            factory := some (.ok total) }]
               recordFields := some [⟨"total", some (.ok total)⟩] }] }
      maxDepth := 8
      captureDefaults := true }
  refPrefix := .ok "#/components/schemas/"
  release := "3.1.0"
where
  total : Value := .decimal (.nan false true 0)

/-- **A default makes a call fail:** the ledger is published by a compiler that publishes no
defaults, and refused by one that does. -/
theorem ledger_signals : (∃ s', ledger.ensure (.declared 0) (ledger.run []) =
      .error .signalingComparison s') ∧
    ∃ n s', ledger.quiet.ensure (.declared 0) (ledger.run []) = .ok n s' :=
  ⟨⟨_, rfl⟩, _, _, rfl⟩

end Compiler

end Schemata
