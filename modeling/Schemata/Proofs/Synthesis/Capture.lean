import Schemata.Proofs.Synthesis.Instances
import Schemata.Proofs.Value.Signaling

/-!
# Capturing a default

The default of a property is captured from an instance of its type.  Whatever is in the way is taken
for the lack of a default: there is no instance, since the type cannot make one; the instance does
not have the value, or does not let it be read; the value has no published form.  Two things are
not taken so.  The type may be one that cannot be looked up, and the value may refuse to be compared
(`Value.signals`), which it is before anything else is done with it.  These two are the faults of a
capture, and it has no others (`exists_capture_iff`).
-/

namespace Schemata

open Build

/-- What the defaults of a type are read from in a session: the instance that is kept for it, or
else the one that it makes. -/
def Session.instanceOf (s : Session) (d : Descriptor) : Option Value :=
  match s.instances.find? fun e => e.1.same d.key with
  | some e => e.2
  | none => d.made

/-- The value that a property has on the instance of its type, if it can be read. -/
def Session.heldFor (s : Session) (d : Descriptor) (q : Property) : Option Value :=
  (s.instanceOf d).bind fun v => v.held? q.accessorName

/-- **The default of a property signals.** -/
def Session.Signals (s : Session) (d : Descriptor) (q : Property) : Prop :=
  (s.heldFor d q).any Value.signals = true

variable {d : Descriptor} {q : Property} {w w' : Walk}

/-- **A default that is asked for is refused** exactly if it signals. -/
theorem Property.defaultOn_eq_error_iff {made : Option Value} {e : Fault} :
    q.defaultOn made = .error e ↔ e = .signalingComparison ∧
      (made.bind fun v => v.held? q.accessorName).any Value.signals = true := by
  unfold Property.defaultOn
  cases made.bind fun v => v.held? q.accessorName with
  | none => exact ⟨nofun, fun h => by cases h.2⟩
  | some x =>
    rw [Option.any_some, ← x.isIntrinsic_eq_error_iff]
    dsimp only
    cases hx : x.isIntrinsic with
    | ok b =>
      have hfine : ¬ ∃ e', (.ok b : Except Fault Bool) = .error e' := nofun
      cases b <;> exact ⟨nofun, fun h => absurd h.2 hfine⟩
    | error fault =>
      have hfault : fault = .signalingComparison := x.failsOnly_isIntrinsic fault hx
      constructor
      · intro h
        cases h
        exact ⟨hfault, _, rfl⟩
      · rintro ⟨rfl, -⟩
        rw [hfault]
        rfl

/-- A default that is published is the published form of the value that the property has. -/
theorem Property.literal_of_defaultOn {made : Option Value} {v : Value}
    (h : q.defaultOn made = .ok (some v)) : ∃ x,
      (made.bind fun v => v.held? q.accessorName) = some x ∧ x.literal = .ok v := by
  unfold Property.defaultOn at h
  cases hheld : made.bind fun v => v.held? q.accessorName with
  | none =>
    rw [hheld] at h
    cases h
  | some x =>
    rw [hheld] at h
    dsimp only at h
    cases hx : x.isIntrinsic with
    | error e =>
      rw [hx] at h
      cases h
    | ok b =>
      rw [hx] at h
      cases b with
      | true => cases h
      | false =>
        cases hliteral : x.literal with
        | error e =>
          rw [hliteral] at h
          cases h
        | ok y =>
          rw [hliteral] at h
          cases h
          exact ⟨x, rfl, hliteral⟩

namespace Build

/-- Asking for the instance of a type that can be looked up gives it, and changes nothing but what
is kept. -/
theorem exists_instanceOf_eq (w : Walk) (hkey : d.key.check = .ok ()) : ∃ l,
    instanceOf d w = .ok (w.session.instanceOf d)
      { w with session := { w.session with instances := l } } ∧
    ({ w.session with instances := l } : Session).instanceOf d = w.session.instanceOf d := by
  cases hfind : w.session.instances.find? fun e => e.1.same d.key with
  | some e =>
    have hkept : w.session.instanceOf d = e.2 := by
      unfold Session.instanceOf
      rw [hfind]
    refine ⟨w.session.instances, ?_, rfl⟩
    refine instanceOf_eq_ok.mpr ⟨hkey, ?_⟩
    rw [hfind]
    exact ⟨hkept, rfl⟩
  | none =>
    have hkept : w.session.instanceOf d = d.made := by
      unfold Session.instanceOf
      rw [hfind]
    refine ⟨w.session.instances ++ [(d.key, d.made)], ?_, ?_⟩
    · refine instanceOf_eq_ok.mpr ⟨hkey, ?_⟩
      rw [hfind]
      exact ⟨hkept, rfl⟩
    · rw [hkept]
      unfold Session.instanceOf
      rw [List.find?_append, hfind, Option.none_or, List.find?_singleton]
      by_cases hsame : d.key.same d.key = true
      · rw [if_pos hsame]
      · rw [if_neg hsame]

/-- A capture asks for the instance, and then for the default on it. -/
theorem capture_eq (d : Descriptor) (q : Property) :
    capture d q = instanceOf d >>= fun made => lift (q.defaultOn made) := by
  unfold capture
  congr 1
  funext made
  unfold Property.defaultOn
  cases made.bind fun v => v.held? q.accessorName with
  | none => rfl
  | some x =>
    dsimp only
    cases x.isIntrinsic with
    | error e => rfl
    | ok b => cases b <;> rfl

/-- **Capturing a default** of a type that can be looked up changes nothing but the instances that
are kept.  It fails if the default signals, and with no other fault. -/
theorem capture_of_check (q : Property) (w : Walk) (hkey : d.key.check = .ok ()) : ∃ l,
    let w' : Walk := { w with session := { w.session with instances := l } }
    (w'.session.Signals d q ↔ w.session.Signals d q) ∧
      ((¬ w.session.Signals d q ∧ ∃ v, capture d q w = .ok v w') ∨
        (w.session.Signals d q ∧ capture d q w = .error .signalingComparison w')) := by
  obtain ⟨l, hinstance, hkept⟩ := exists_instanceOf_eq w hkey
  refine ⟨l, ?_, ?_⟩
  · unfold Session.Signals Session.heldFor
    rw [hkept]
  rw [capture_eq, bind_of_ok hinstance]
  cases hdefault : q.defaultOn (w.session.instanceOf d) with
  | ok v =>
    refine .inl ⟨fun h => ?_, v, rfl⟩
    cases hdefault.symm.trans (Property.defaultOn_eq_error_iff.mpr ⟨rfl, h⟩)
  | error e =>
    obtain ⟨rfl, hsignals⟩ := Property.defaultOn_eq_error_iff.mp hdefault
    exact .inr ⟨hsignals, rfl⟩

/-- **What can be captured:** the defaults of all types that can be looked up, but for those that
signal. -/
theorem exists_capture_iff : (∃ v w', capture d q w = .ok v w') ↔
    d.key.check = .ok () ∧ ¬ w.session.Signals d q := by
  constructor
  · rintro ⟨v, w', h⟩
    obtain ⟨made, hinstance, -⟩ := capture_eq_ok.mp h
    obtain ⟨hkey, -⟩ := instanceOf_eq_ok.mp hinstance
    refine ⟨hkey, fun hsignals => ?_⟩
    obtain ⟨l, -, ⟨hquiet, -⟩ | ⟨-, herror⟩⟩ := capture_of_check q w hkey
    · exact hquiet hsignals
    · cases h.symm.trans herror
  · rintro ⟨hkey, hquiet⟩
    obtain ⟨l, -, ⟨-, v, hv⟩ | ⟨hsignals, -⟩⟩ := capture_of_check q w hkey
    · exact ⟨v, _, hv⟩
    · exact absurd hsignals hquiet

/-- **What is captured** is the published form of the value that the property has. -/
theorem literal_of_capture {v : Value} (h : capture d q w = .ok (some v) w') :
    ∃ x, w.session.heldFor d q = some x ∧ x.literal = .ok v := by
  obtain ⟨made, hinstance, hdefault⟩ := capture_eq_ok.mp h
  obtain ⟨hkey, -⟩ := instanceOf_eq_ok.mp hinstance
  obtain ⟨l, hkept, -⟩ := exists_instanceOf_eq w hkey
  cases hinstance.symm.trans hkept
  exact Property.literal_of_defaultOn hdefault

end Build

end Schemata
