import Schemata.Proofs.Outcome

/-!
# Computations side by side

Two computations are started in states that are related.  They *tally* when they end alike: both
give the same answer or both fail with the same fault, and the states that they end in are related
again.  The second may also be cut short, by a fault that is one of a given sort; then nothing is
said about the first.

`Tallies R Z` is this relation between outcomes.  It goes along sequences (`Tallies.bind`), where
the second parts need to tally only from states in which the first parts have ended, and with the
answer that these have given.  So what is known from there on, the answers to questions asked
before included, may be made use of.

Parts of a synthesis are run in surroundings that are made for them and taken away again however
they end: a type is visited, a group of writes is open.  What these have in common is `around`.
-/

namespace Schemata

variable {ε σ α β : Type}

/-- An outcome, with something done to the state that it ends in. -/
def ending (g : σ → σ) : EStateM.Result ε σ α → EStateM.Result ε σ α
  | .ok a s => .ok a (g s)
  | .error e s => .error e (g s)

/-- **Two outcomes are alike**, or the second is a fault of a given sort. -/
inductive Tallies (R : σ → σ → Prop) (Z : ε → Prop) :
    EStateM.Result ε σ α → EStateM.Result ε σ α → Prop
  | ok {a : α} {s t : σ} (h : R s t) : Tallies R Z (.ok a s) (.ok a t)
  | error {e : ε} {s t : σ} (h : R s t) : Tallies R Z (.error e s) (.error e t)
  | cut {r : EStateM.Result ε σ α} {e : ε} {t : σ} (h : Z e) : Tallies R Z r (.error e t)

namespace Tallies

variable {R : σ → σ → Prop} {Z : ε → Prop} {s t : σ}

theorem pure (a : α) (h : R s t) :
    Tallies R Z ((pure a : EStateM ε σ α) s) ((Pure.pure a : EStateM ε σ α) t) :=
  .ok h

theorem throw (e : ε) (h : R s t) :
    Tallies R Z ((throw e : EStateM ε σ α) s) ((MonadExcept.throw e : EStateM ε σ α) t) :=
  .error h

/-- Sequences tally whose parts do. -/
theorem bind {x y : EStateM ε σ α} {f g : α → EStateM ε σ β} (h : Tallies R Z (x s) (y t))
    (hfg : ∀ {a s₁ t₁}, x s = .ok a s₁ → y t = .ok a t₁ → R s₁ t₁ →
      Tallies R Z (f a s₁) (g a t₁)) : Tallies R Z ((x >>= f) s) ((y >>= g) t) := by
  show Tallies R Z (EStateM.bind x f s) (EStateM.bind y g t)
  unfold EStateM.bind
  cases hx : x s with
  | ok a s₁ =>
    cases hy : y t with
    | ok b t₁ =>
      rw [hx, hy] at h
      cases h with
      | ok hR => exact hfg hx hy hR
    | error e t₁ =>
      rw [hx, hy] at h
      cases h with
      | cut hZ => exact .cut hZ
  | error e s₁ =>
    cases hy : y t with
    | ok b t₁ =>
      rw [hx, hy] at h
      cases h
    | error e' t₁ =>
      rw [hx, hy] at h
      cases h with
      | error hR => exact .error hR
      | cut hZ => exact .cut hZ

/-- The two sides of a choice. -/
theorem ite {c : Prop} [Decidable c] {x y x' y' : EStateM ε σ α}
    (h : c → Tallies R Z (x s) (y t)) (h' : ¬ c → Tallies R Z (x' s) (y' t)) :
    Tallies R Z ((if c then x else x') s) ((if c then y else y') t) := by
  split
  next hc => exact h hc
  next hc => exact h' hc

theorem mono {R' : σ → σ → Prop} {Z' : ε → Prop} {r r' : EStateM.Result ε σ α}
    (h : Tallies R Z r r') (hR : ∀ {s t}, R s t → R' s t) (hZ : ∀ {e}, Z e → Z' e) :
    Tallies R' Z' r r' := by
  cases h with
  | ok h => exact .ok (hR h)
  | error h => exact .error (hR h)
  | cut h => exact .cut (hZ h)

/-- What is done to the states at the end, however it comes, is done to both. -/
theorem ending {R' : σ → σ → Prop} {r r' : EStateM.Result ε σ α} {g : σ → σ}
    (h : Tallies R Z r r') (hR : ∀ {s t}, R s t → R' (g s) (g t)) :
    Tallies R' Z (Schemata.ending g r) (Schemata.ending g r') := by
  cases h with
  | ok h => exact .ok (hR h)
  | error h => exact .error (hR h)
  | cut h => exact .cut h

/-- Where nothing can cut the second computation short, more may be said about the states that the
two end in. -/
theorem of_after {R' : σ → σ → Prop} {x y : EStateM ε σ α}
    (h : Tallies R (fun _ => False) (x s) (y t))
    (hR : R (after x s) (after y t) → R' (after x s) (after y t)) :
    Tallies R' Z (x s) (y t) := by
  unfold after at hR
  revert h hR
  generalize x s = r, y t = r'
  intro h hR
  cases h with
  | ok h => exact .ok (hR h)
  | error h => exact .error (hR h)
  | cut h => exact h.elim

/-- The states that two computations end in, where nothing can cut the second short. -/
theorem rel_after {x y : EStateM ε σ α} (h : Tallies R (fun _ => False) (x s) (y t)) :
    R (after x s) (after y t) := by
  unfold after
  revert h
  generalize x s = r, y t = r'
  intro h
  cases h with
  | ok h => exact h
  | error h => exact h
  | cut h => exact h.elim

/-- Where nothing can cut it short, the second computation succeeds if the first does. -/
theorem exists_ok {r : EStateM.Result ε σ α} {a : α}
    (h : Tallies R (fun _ => False) (.ok a s) r) : ∃ t, r = .ok a t ∧ R s t := by
  cases h with
  | ok h => exact ⟨_, rfl, h⟩
  | cut h => exact h.elim

end Tallies

/-! ## Computations in surroundings of their own -/

/-- A computation in surroundings of its own: it starts in a state made for it, and what is done to
the state that it ends in may differ with how it ends. -/
def around {τ : Type} (into : τ → σ) (kept dropped : σ → τ) (x : EStateM ε σ α) :
    EStateM ε τ α := fun s =>
  match x (into s) with
  | .ok a t => .ok a (kept t)
  | .error e t => .error e (dropped t)

theorem whileVisiting_eq_around (k : Key) (x : Build α) : Build.whileVisiting k x =
    around (fun w => { w with visited := k :: w.visited })
      (fun w => { w with visited := k.without w.visited })
      (fun w => { w with visited := k.without w.visited }) x := by
  funext w
  unfold Build.whileVisiting around
  cases x { w with visited := k :: w.visited } <;> rfl

theorem run_eq_around (x : Build α) :
    Session.run x = around (fun s => ⟨s, []⟩) Walk.session Walk.session x := by
  funext s
  unfold Session.run around
  cases x ⟨s, []⟩ <;> rfl

theorem transaction_eq_around (x : EStateM Fault Session α) :
    Registry.transaction x = around (Registry.within Registry.open_)
      (Registry.within Registry.commit) (Registry.within Registry.rollback) x := by
  funext s
  unfold Registry.transaction around
  cases x (Registry.within Registry.open_ s) <;> rfl

theorem pruning_eq_around (x : EStateM Fault Session α) :
    Session.pruning x = around id Session.prune Session.prune x := by
  funext s
  unfold Session.pruning around id
  cases x s <;> rfl

/-! ## Basic steps of the synthesis -/

namespace Build

variable {R : Walk → Walk → Prop} {Z : Fault → Prop} {w v : Walk}

theorem tallies_lift (r : Except Fault α) (h : R w v) :
    Tallies R Z (lift r w) (lift r v) := by
  cases r with
  | ok a => exact .ok h
  | error e => exact .error h

/-- What is read off two sessions is the same. -/
theorem tallies_asks {f g : Session → α} (heq : f w.session = g v.session) (h : R w v) :
    Tallies R Z (asks f w) (asks g v) := by
  show Tallies R Z (.ok (f w.session) w) (.ok (g v.session) v)
  rw [heq]
  exact .ok h

theorem tallies_isVisited (k : Key) (heq : w.visited = v.visited) (h : R w v) :
    Tallies R Z (isVisited k w) (isVisited k v) := by
  unfold isVisited
  cases k.check with
  | error e => exact .error h
  | ok u =>
    show Tallies R Z (.ok (k.isAmong w.visited) w) (.ok (k.isAmong v.visited) v)
    rw [heq]
    exact .ok h

end Build

end Schemata
