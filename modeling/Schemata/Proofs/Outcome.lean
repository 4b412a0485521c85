import Schemata.Compiler.Basic
import Mathlib.Order.Defs.Unbundled

/-!
# Outcomes of computations

A computation on a state succeeds or fails, and ends in a state either way.  There are two
ways to speak about it here.

* What a computation that *succeeds* has done is read off its parts: `bind_eq_ok` takes a
  sequence apart, and every basic step has a lemma of the form `…_eq_ok`.  A sequence fails
  where one of its parts does (`bind_eq_error`).
* What a computation does *however it ends* is a relation between the state it starts in and
  the state it ends in: `Keeps R x`.  For a relation that is reflexive and transitive, this is
  put together along sequences (`Keeps.bind`), so that a fact about every basic step becomes
  a fact about everything built from them.
-/

namespace Schemata

variable {ε σ α β : Type}

/-! ## Success -/

theorem bind_eq_ok {x : EStateM ε σ α} {f : α → EStateM ε σ β} {s s' : σ} {b : β} :
    (x >>= f) s = .ok b s' ↔ ∃ a s₁, x s = .ok a s₁ ∧ f a s₁ = .ok b s' := by
  show EStateM.bind x f s = .ok b s' ↔ _
  unfold EStateM.bind
  cases x s with
  | ok a s₁ => exact ⟨fun h => ⟨a, s₁, rfl, h⟩, by rintro ⟨_, _, ⟨⟩, h⟩; exact h⟩
  | error e s₁ => exact ⟨nofun, by rintro ⟨_, _, ⟨⟩, _⟩⟩

theorem bind_eq_error {x : EStateM ε σ α} {f : α → EStateM ε σ β} {s s' : σ} {e : ε} :
    (x >>= f) s = .error e s' ↔
      x s = .error e s' ∨ ∃ a s₁, x s = .ok a s₁ ∧ f a s₁ = .error e s' := by
  show EStateM.bind x f s = .error e s' ↔ _
  unfold EStateM.bind
  cases x s with
  | ok a s₁ => exact ⟨fun h => .inr ⟨a, s₁, rfl, h⟩, by rintro (⟨⟨⟩⟩ | ⟨_, _, ⟨⟩, h⟩); exact h⟩
  | error e₁ s₁ =>
    constructor
    · rintro ⟨⟩
      exact .inl rfl
    · rintro (⟨⟨⟩⟩ | ⟨_, _, ⟨⟩, _⟩)
      rfl

@[simp] theorem pure_eq_ok {a b : α} {s s' : σ} :
    (pure a : EStateM ε σ α) s = .ok b s' ↔ b = a ∧ s' = s := by
  show EStateM.Result.ok a s = .ok b s' ↔ _
  rw [EStateM.Result.ok.injEq, eq_comm, @eq_comm _ s]

@[simp] theorem throw_eq_ok {e : ε} {a : α} {s s' : σ} :
    (throw e : EStateM ε σ α) s = .ok a s' ↔ False :=
  ⟨nofun, False.elim⟩

theorem bind_of_ok {x : EStateM ε σ α} {f : α → EStateM ε σ β} {s s₁ : σ} {a : α}
    (h : x s = .ok a s₁) : (x >>= f) s = f a s₁ := by
  show EStateM.bind x f s = _
  unfold EStateM.bind
  rw [h]

theorem eq_ok_of_toOption {r : Except ε α} {a : α} (h : r.toOption = some a) : r = .ok a := by
  cases r with
  | ok b =>
    cases h
    rfl
  | error e => cases h

/-! ## Any outcome -/

/-- The state a computation ends in. -/
def after (x : EStateM ε σ α) (s : σ) : σ :=
  match x s with
  | .ok _ s => s
  | .error _ s => s

theorem after_of_ok {x : EStateM ε σ α} {s s' : σ} {a : α} (h : x s = .ok a s') :
    after x s = s' := by
  rw [after, h]

theorem after_of_error {x : EStateM ε σ α} {s s' : σ} {e : ε} (h : x s = .error e s') :
    after x s = s' := by
  rw [after, h]

/-- However a computation ends, it ends in a state related to the one it started in. -/
def Keeps (R : σ → σ → Prop) (x : EStateM ε σ α) : Prop :=
  ∀ s, R s (after x s)

namespace Keeps

variable {R : σ → σ → Prop} {x : EStateM ε σ α}

theorem ok (h : Keeps R x) {s s' : σ} {a : α} (hx : x s = .ok a s') : R s s' := by
  have := h s
  rwa [after_of_ok hx] at this

theorem error (h : Keeps R x) {s s' : σ} {e : ε} (hx : x s = .error e s') : R s s' := by
  have := h s
  rwa [after_of_error hx] at this

/-- A computation is looked at by its two outcomes. -/
theorem of_outcomes (hok : ∀ {s a s'}, x s = .ok a s' → R s s')
    (herror : ∀ {s e s'}, x s = .error e s' → R s s') : Keeps R x := by
  intro s
  unfold after
  cases h : x s with
  | ok a s' => exact hok h
  | error e s' => exact herror h

/-- The two sides of a choice. -/
theorem ite {c : Prop} [Decidable c] {y : EStateM ε σ α} (hx : Keeps R x) (hy : Keeps R y) :
    Keeps R (if c then x else y) := by
  split
  · exact hx
  · exact hy

variable [IsPreorder σ R]

/-- A computation that gives its state back. -/
theorem of_still (h : ∀ s, after x s = s) : Keeps R x := by
  intro s
  rw [h s]
  exact refl_of R s

theorem pure (a : α) : Keeps R (pure a : EStateM ε σ α) :=
  of_still fun _ => rfl

theorem throw (e : ε) : Keeps R (throw e : EStateM ε σ α) :=
  of_still fun _ => rfl

/-- The two parts of a sequence, looked at where they start. -/
theorem after_bind {f : α → EStateM ε σ β} {s : σ} (hx : R s (after x s))
    (hf : ∀ {a s₁}, x s = .ok a s₁ → R s₁ (after (f a) s₁)) : R s (after (x >>= f) s) := by
  show R s (after (EStateM.bind x f) s)
  unfold after EStateM.bind
  cases h : x s with
  | ok a s₁ =>
    rw [after_of_ok h] at hx
    exact trans_of R hx (hf h)
  | error e s₁ =>
    rw [after_of_error h] at hx
    exact hx

/-- A sequence keeps what both of its parts keep. -/
theorem bind (hx : Keeps R x) {f : α → EStateM ε σ β} (hf : ∀ a, Keeps R (f a)) :
    Keeps R (x >>= f) :=
  fun s => after_bind (hx s) fun {a s₁} _ => hf a s₁

end Keeps

/-! ## Runs that are computed -/

/-- Whether a computation succeeds, with an answer and in a state that pass a test. -/
def yields (x : EStateM ε σ α) (s : σ) (test : α → σ → Bool) : Bool :=
  match x s with
  | .ok a s => test a s
  | .error _ _ => false

theorem exists_of_yields {x : EStateM ε σ α} {s : σ} {test : α → σ → Bool}
    (h : yields x s test = true) : ∃ a s', x s = .ok a s' ∧ test a s' = true := by
  unfold yields at h
  cases hx : x s with
  | ok a s' =>
    rw [hx] at h
    exact ⟨a, s', rfl, h⟩
  | error e s' =>
    rw [hx] at h
    cases h

/-! ## Basic steps of the synthesis -/

namespace Build

@[simp] theorem lift_eq_ok {r : Except Fault α} {a : α} {w w' : Walk} :
    lift r w = .ok a w' ↔ r = .ok a ∧ w' = w := by
  cases r with
  | ok b =>
    show EStateM.Result.ok b w = .ok a w' ↔ _
    rw [EStateM.Result.ok.injEq, Except.ok.injEq, @eq_comm _ w]
  | error e => exact ⟨nofun, by rintro ⟨⟨⟩, _⟩⟩

@[simp] theorem after_lift (r : Except Fault α) (w : Walk) : after (lift r) w = w := by
  cases r <;> rfl

@[simp] theorem asks_eq_ok {f : Session → α} {a : α} {w w' : Walk} :
    asks f w = .ok a w' ↔ a = f w.session ∧ w' = w := by
  show EStateM.Result.ok (f w.session) w = .ok a w' ↔ _
  rw [EStateM.Result.ok.injEq, eq_comm, @eq_comm _ w]

@[simp] theorem stored?_eq_ok {name : String} {n : Option Node} {w w' : Walk} :
    stored? name w = .ok n w' ↔ n = w.session.registry.get? name ∧ w' = w :=
  asks_eq_ok

@[simp] theorem isVisited_eq_ok {k : Key} {b : Bool} {w w' : Walk} :
    isVisited k w = .ok b w' ↔ k.check = .ok () ∧ b = k.isAmong w.visited ∧ w' = w := by
  unfold isVisited
  rw [bind_eq_ok]
  constructor
  · rintro ⟨_, w₁, h, h'⟩
    obtain ⟨hk, rfl⟩ := lift_eq_ok.mp h
    rw [bind_eq_ok] at h'
    obtain ⟨_, _, h₁, h₂⟩ := h'
    cases h₁
    exact ⟨hk, pure_eq_ok.mp h₂⟩
  · rintro ⟨hk, rfl, rfl⟩
    exact ⟨(), w', lift_eq_ok.mpr ⟨hk, rfl⟩, rfl⟩

@[simp] theorem visit_eq_ok {k : Key} {u : Unit} {w w' : Walk} :
    visit k w = .ok u w' ↔ w' = { w with visited := k :: w.visited } :=
  ⟨by rintro ⟨⟩; rfl, by rintro rfl; rfl⟩

theorem whileVisiting_eq_ok {k : Key} {body : Build α} {a : α} {w w' : Walk} :
    whileVisiting k body w = .ok a w' ↔
      ∃ w₁, body { w with visited := k :: w.visited } = .ok a w₁ ∧
        w' = { w₁ with visited := k.without w₁.visited } := by
  unfold whileVisiting
  cases body { w with visited := k :: w.visited } with
  | ok b w₁ =>
    constructor
    · rintro ⟨⟩
      exact ⟨w₁, rfl, rfl⟩
    · rintro ⟨_, ⟨⟩, rfl⟩
      rfl
  | error e w₁ => exact ⟨nofun, by rintro ⟨_, ⟨⟩, _⟩⟩

end Build

end Schemata
