import Schemata.Proofs.Tally

/-!
# Computations that answer alike

Two computations that tally give the same answer.  Where what they build may differ, in something
that nobody looks at on the way, the answers are only alike.  `Pairs A R Z` is the relation between
outcomes for this: the answers are related by `A` and the states by `R`, or both fail with the same
fault.  As with `Tallies` the second computation may be cut short; what is known then may speak of
the state in which it has ended (`Z`).

`Pairs.bind` goes along sequences, and `Tallies.pairs` takes over what is known of the steps that
do give the same answer.
-/

namespace Schemata

variable {ε σ τ α β α' β' : Type}

/-- **Two outcomes are alike**, with answers related by `A` and states by `R`, or the second is a
fault and a state for which `Z` holds. -/
inductive Pairs (A : α → β → Prop) (R : σ → σ → Prop) (Z : ε → σ → Prop) :
    EStateM.Result ε σ α → EStateM.Result ε σ β → Prop
  | ok {a : α} {b : β} {s t : σ} (ha : A a b) (h : R s t) : Pairs A R Z (.ok a s) (.ok b t)
  | error {e : ε} {s t : σ} (h : R s t) : Pairs A R Z (.error e s) (.error e t)
  | cut {r : EStateM.Result ε σ α} {e : ε} {t : σ} (h : Z e t) : Pairs A R Z r (.error e t)

namespace Pairs

variable {A : α → β → Prop} {B : α' → β' → Prop} {R : σ → σ → Prop} {Z : ε → σ → Prop} {s t : σ}

theorem pure {a : α} {b : β} (ha : A a b) (h : R s t) :
    Pairs A R Z ((Pure.pure a : EStateM ε σ α) s) ((Pure.pure b : EStateM ε σ β) t) :=
  .ok ha h

/-- Sequences are alike whose parts are. -/
theorem bind {x : EStateM ε σ α} {y : EStateM ε σ β} {f : α → EStateM ε σ α'}
    {g : β → EStateM ε σ β'} (h : Pairs A R Z (x s) (y t))
    (hfg : ∀ {a b s₁ t₁}, x s = .ok a s₁ → y t = .ok b t₁ → A a b → R s₁ t₁ →
      Pairs B R Z (f a s₁) (g b t₁)) : Pairs B R Z ((x >>= f) s) ((y >>= g) t) := by
  show Pairs B R Z (EStateM.bind x f s) (EStateM.bind y g t)
  unfold EStateM.bind
  generalize hx : x s = r, hy : y t = r' at h
  cases h with
  | ok ha hR => exact hfg hx hy ha hR
  | error hR => exact .error hR
  | cut hZ => exact .cut hZ

/-- The two sides of a choice. -/
theorem ite {c : Prop} [Decidable c] {x x' : EStateM ε σ α} {y y' : EStateM ε σ β}
    (h : c → Pairs A R Z (x s) (y t)) (h' : ¬ c → Pairs A R Z (x' s) (y' t)) :
    Pairs A R Z ((if c then x else x') s) ((if c then y else y') t) := by
  split
  next hc => exact h hc
  next hc => exact h' hc

/-- Both are run in the same surroundings. -/
theorem around {R' : τ → τ → Prop} {Z' : ε → τ → Prop} {x : EStateM ε σ α} {y : EStateM ε σ β}
    {s t : τ} {into : τ → σ} {kept dropped : σ → τ} (h : Pairs A R Z (x (into s)) (y (into t)))
    (hkept : ∀ {s t}, R s t → R' (kept s) (kept t))
    (hdropped : ∀ {s t}, R s t → R' (dropped s) (dropped t))
    (hZ : ∀ {e t}, Z e t → Z' e (dropped t)) :
    Pairs A R' Z' (Schemata.around into kept dropped x s)
      (Schemata.around into kept dropped y t) := by
  unfold Schemata.around
  generalize x (into s) = r, y (into t) = r' at h
  cases h with
  | ok ha hR => exact .ok ha (hkept hR)
  | error hR => exact .error (hdropped hR)
  | cut h => exact .cut (hZ h)

end Pairs

/-- Computations that tally give answers that are alike. -/
theorem Tallies.pairs {R : σ → σ → Prop} {Z : ε → σ → Prop} {r r' : EStateM.Result ε σ α}
    (h : Tallies R (fun _ => False) r r') : Pairs Eq R Z r r' := by
  cases h with
  | ok h => exact .ok rfl h
  | error h => exact .error h
  | cut h => exact h.elim

end Schemata
