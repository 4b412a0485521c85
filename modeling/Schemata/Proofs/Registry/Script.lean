import Schemata.Proofs.Registry.Routine
import Schemata.Registry.Script

/-!
# Scripts are routines

A script is worked off by a routine on its registry: `Step.routine` answers a step, and
`Step.routines` works some steps off in turn, noting the replies beside the bench.  A builder or a
group that has steps of its own has notes of its own for as long as these last.  The two agree with
`Step.run` and `Step.runAll` wherever they are started (`Step.run_routine`, `Step.run_routines`), so
that what holds of all routines holds of all scripts: a script only adds (`Step.grows_runAll`).
-/

namespace Schemata

open HoldsRegistry Registry

/-- A bench with the replies that have been noted beside it. -/
abbrev NotedBench := Bench × List Reply

namespace Bench

@[simp] theorem registry_allocate (node : Node) (b : Bench) :
    (b.allocate node).2.registry = b.registry :=
  rfl

@[simp] theorem registry_showing (cell : Nat) (b : Bench) :
    (b.showing cell).2.registry = b.registry := by
  show (b.mark cell).2.registry = b.registry
  unfold mark
  split <;> rfl

end Bench

namespace Step

@[simp] theorem registry_quiet (s : Step) (b : Bench) : (s.quiet b).2.registry = b.registry := by
  cases s with
  | get name =>
    rw [quiet]
    split
    · exact Bench.registry_showing _ b
    · rfl
  | reference name copied requester =>
    rw [quiet]
    split
    · rfl
    · exact Bench.registry_showing _ _
  | retitle i title =>
    rw [quiet]
    split
    · exact Bench.registry_showing _ _
    · rfl
  | _ => rfl

/-! ## Routines -/

section

variable {α : Type}

/-- Do something that is no matter of the registry. -/
def aside (f : Bench → α × Bench) (hf : ∀ b, (f b).2.registry = b.registry) :
    Routine NotedBench Fault α :=
  .host (fun s => .ok (f s.1).1 ((f s.1).2, s.2)) fun s => hf s.1

/-- Nothing but an answer. -/
def giving (a : α) : Routine NotedBench Fault α :=
  aside (fun b => (a, b)) fun _ => rfl

end

/-- Put other replies in the place of those that have been noted; these are given. -/
def exchange (replies : List Reply) : Routine NotedBench Fault (List Reply) :=
  .host (fun s => .ok s.2 (s.1, replies)) fun _ => rfl

/-- Note a reply: an answer, and the names that are stored now. -/
def note (answer : Except Fault Answer) : Routine NotedBench Fault Unit :=
  .host (fun s => .ok () (s.1, s.2 ++ [.mk answer s.1.registry.names])) fun _ => rfl

/-- Fail if there is something to fail with. -/
def check : Option String → Routine NotedBench Fault Unit
  | some message => .host (fun s => .error (.aborted message) s) fun _ => rfl
  | none => giving ()

/-- Show a cell. -/
def showing (cell : Nat) : Routine NotedBench Fault (Except Fault Answer) :=
  aside (Bench.showing cell) (Bench.registry_showing cell)

/-- Do something with replies of its own, and answer with these and with what has come of it. -/
def nesting (body : Routine NotedBench Fault (Except Fault Answer)) :
    Routine NotedBench Fault (Except Fault Answer) :=
  .bind (exchange []) fun noted =>
    .bind (.attempt body fun e => giving (.error e)) fun outcome =>
      .bind (exchange noted) fun replies => giving (.ok (.nested replies outcome))

/-- The routine of a builder: work some steps off, and then fail or make a new cell. -/
def builder (steps : Routine NotedBench Fault Unit) (node : Node) (failure : Option String) :
    Routine NotedBench Fault Nat :=
  .bind steps fun _ => .bind (check failure) fun _ =>
    aside (Bench.allocate node) (Bench.registry_allocate node)

/-- The routine in a group: work some steps off, and then fail if there is something to fail
with. -/
def grouped (steps : Routine NotedBench Fault Unit) (failure : Option String) :
    Routine NotedBench Fault Unit :=
  .bind steps fun _ => check failure

mutual

/-- **The routine that answers a step.** -/
def routine : Step → Routine NotedBench Fault (Except Fault Answer)
  | .put name node =>
    .bind (aside (Bench.allocate node) (Bench.registry_allocate node)) fun cell =>
      .bind (.put name cell) showing
  | .ensure name node inner failure =>
    nesting (.bind (.ensure name (builder (routines inner) node failure)) showing)
  | .group inner failure =>
    nesting (.bind (.transaction (grouped (routines inner) failure)) fun _ =>
      giving (.ok .committed))
  | s => aside (fun b => s.quiet b) (registry_quiet s)
termination_by structural s => s

/-- The routine that works some steps off, one after the other. -/
def routines : List Step → Routine NotedBench Fault Unit
  | [] => giving ()
  | s :: ss => .bind (routine s) fun answer => .bind (note answer) fun _ => routines ss
termination_by structural ss => ss

end

/-! ## What the routines do -/

variable {body : Routine NotedBench Fault (Except Fault Answer)} {noted replies : List Reply}
  {b b' : Bench} {answer : Except Fault Answer} {e : Fault}

theorem run_nesting_of_ok (h : body.run (b, []) = .ok answer (b', replies)) :
    (nesting body).run (b, noted) = .ok (.ok (.nested replies answer)) (b', noted) := by
  have hattempt : (Routine.attempt body fun e => giving (.error e)).run (b, []) =
      .ok answer (b', replies) := by
    unfold Routine.run
    beta_reduce
    rw [h]
  show ((Routine.attempt body fun e => giving (.error e)).run >>= _) (b, []) = _
  rw [bind_of_ok hattempt]
  rfl

theorem run_nesting_of_error (h : body.run (b, []) = .error e (b', replies)) :
    (nesting body).run (b, noted) = .ok (.ok (.nested replies (.error e))) (b', noted) := by
  have hattempt : (Routine.attempt body fun e => giving (.error e)).run (b, []) =
      .ok (.error e) (b', replies) := by
    unfold Routine.run
    beta_reduce
    rw [h]
    rfl
  show ((Routine.attempt body fun e => giving (.error e)).run >>= _) (b, []) = _
  rw [bind_of_ok hattempt]
  rfl

/-- The steps of a builder are worked off before it fails or makes something. -/
theorem run_builder {inner : List Step} {failure : Option String} {node : Node}
    (h : (routines inner).run (b, []) = .ok () ((runAll inner b).2, (runAll inner b).1)) :
    (builder (routines inner) node failure).run (b, []) =
      noting (runAll inner) failure (Bench.allocate node) (b, []) := by
  show ((routines inner).run >>= _) (b, []) = _
  rw [bind_of_ok h]
  cases failure <;> rfl

/-- The steps of a group are worked off before it fails or is kept. -/
theorem run_grouped {inner : List Step} {failure : Option String}
    (h : (routines inner).run (b, []) = .ok () ((runAll inner b).2, (runAll inner b).1)) :
    (grouped (routines inner) failure).run (b, []) =
      noting (runAll inner) failure (fun b => ((), b)) (b, []) := by
  show ((routines inner).run >>= _) (b, []) = _
  rw [bind_of_ok h]
  cases failure <;> rfl

mutual

/-- **A step is answered by its routine**, wherever it is asked and whatever has been noted. -/
theorem run_routine (s : Step) (b : Bench) (noted : List Reply) :
    (routine s).run (b, noted) = .ok (run s b).1 ((run s b).2, noted) := by
  cases s with
  | ensure name node inner failure =>
    have hensure : (Routine.ensure name (builder (routines inner) node failure)).run (b, []) =
        ensuring name (noting (runAll inner) failure (Bench.allocate node)) (b, []) := by
      show ensuring _ _ _ = _
      unfold ensuring
      rw [run_builder (run_routines inner b [])]
    rw [run]
    cases hrun : ensuring name (noting (runAll inner) failure (Bench.allocate node)) (b, []) with
    | ok cell s =>
      exact run_nesting_of_ok (bind_of_ok (hensure.trans hrun))
    | error e s =>
      exact run_nesting_of_error (bind_eq_error.mpr (.inl (hensure.trans hrun)))
  | group inner failure =>
    have hgroup : (Routine.transaction (grouped (routines inner) failure)).run (b, []) =
        transaction (noting (runAll inner) failure fun b => ((), b)) (b, []) := by
      show transaction _ _ = _
      unfold transaction
      rw [show within open_ (b, ([] : List Reply)) = (within open_ b, []) from rfl,
        run_grouped (run_routines inner _ [])]
    rw [run]
    cases hrun : transaction (noting (runAll inner) failure fun b => ((), b)) (b, []) with
    | ok u s =>
      exact run_nesting_of_ok (bind_of_ok (hgroup.trans hrun))
    | error e s =>
      exact run_nesting_of_error (bind_eq_error.mpr (.inl (hgroup.trans hrun)))
  | _ => rfl
termination_by structural s

/-- **A script is worked off by its routine.** -/
theorem run_routines (ss : List Step) (b : Bench) (noted : List Reply) :
    (routines ss).run (b, noted) = .ok () ((runAll ss b).2, noted ++ (runAll ss b).1) := by
  cases ss with
  | nil =>
    rw [runAll, List.append_nil]
    rfl
  | cons s ss =>
    show ((routine s).run >>= _) (b, noted) = _
    rw [bind_of_ok (run_routine s b noted)]
    refine (run_routines ss _ _).trans ?_
    rw [List.append_assoc]
    rfl
termination_by structural ss

end

/-- **A script only adds to its registry.** -/
theorem grows_runAll (ss : List Step) (b : Bench) : Grows b (runAll ss b).2 := by
  obtain ⟨new, h⟩ := (routines ss).grows_run (b, [])
  rw [after_of_ok (run_routines ss b [])] at h
  exact ⟨new, h⟩

end Step

end Schemata
