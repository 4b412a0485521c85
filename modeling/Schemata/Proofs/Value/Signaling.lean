import Schemata.Proofs.Fault.Causes

/-!
# Values that refuse to be compared

Whether a default is worth publishing is found out by comparing it with the zero of its kind, and a
member of an enumeration by comparing its value with the number zero.  The only comparison of this
sort that fails is that of a signaling not-a-number.  `Value.signals` says which defaults are
compared in this way: a decimal that signals, and a member behind which there is one, be it
directly, as a member of a mixed enumeration, or as an instance of a class that extends decimals.
-/

namespace Schemata

/-- A signaling not-a-number. -/
def Decimal.isSignaling : Decimal → Bool
  | .nan _ signaling _ => signaling
  | _ => false

namespace Numeral

/-- **Numbers refuse to be compared** if one of them signals. -/
theorem equal_eq_error_iff {x y : Numeral} :
    (∃ e, x.equal y = .error e) ↔ x = .signaling ∨ y = .signaling := by
  cases x <;> cases y <;> simp [equal]

theorem ofDecimal_eq_signaling_iff {d : Decimal} :
    ofDecimal d = .signaling ↔ d.isSignaling = true := by
  cases d with
  | nan negative signaling payload => cases signaling <;> simp [ofDecimal, Decimal.isSignaling]
  | finite | infinite => simp [ofDecimal, Decimal.isSignaling]

end Numeral

namespace Value

/-- A plain value that is a signaling not-a-number. -/
def isSignaling : Value → Bool
  | .decimal d => d.isSignaling
  | _ => false

/-- **A default that refuses the comparison** by which it is found out whether it is worth
publishing. -/
def signals : Value → Bool
  | .decimal d => d.isSignaling
  | .member _ _ v => v.core.isSignaling
  | _ => false

theorem numeral?_eq_signaling_iff {v : Value} :
    v.numeral? = some .signaling ↔ v.core.isSignaling = true := by
  unfold numeral?
  cases v.core with
  | decimal d => simp [isSignaling, Numeral.ofDecimal_eq_signaling_iff]
  | float x =>
    have hquiet : x.toDecimal.isSignaling = false := by
      cases x with
      | finite negative mantissa exponent => cases exponent <;> rfl
      | infinite | nan => rfl
    simp [isSignaling, Numeral.ofDecimal_eq_signaling_iff, hquiet]
  | _ => simp [isSignaling, Numeral.ofDecimal, Decimal.ofInt]

/-- **Values that contain no others**, compared with one that does not signal. -/
theorem scalarEqual_eq_error_iff {v w : Value} (hw : w.core.isSignaling = false) :
    (∃ e, scalarEqual v w = .error e) ↔ w.numeral?.isSome = true ∧ v.core.isSignaling = true := by
  have hquiet : w.numeral? ≠ some .signaling := fun h => by
    rw [numeral?_eq_signaling_iff.mp h] at hw
    cases hw
  rw [← numeral?_eq_signaling_iff]
  unfold scalarEqual
  cases hv : v.numeral? with
  | none =>
    cases w.numeral? with
    | none =>
      simp only [reduceCtorEq, and_false, iff_false]
      rintro ⟨e, h⟩
      split at h <;> cases h
    | some y => simp
  | some x =>
    cases hnumeral : w.numeral? with
    | none => simp
    | some y =>
      have hy : y ≠ .signaling := fun h => hquiet (h ▸ hnumeral)
      simp [Numeral.equal_eq_error_iff, hy]

/-- **Whatever is compared with zero** refuses it only if it signals. -/
theorem equal_zero_eq_error_iff (v : Value) :
    (∃ e, v.equal (.int 0) = .error e) ↔ v.core.isSignaling = true := by
  have hscalar {v : Value} : (∃ e, scalarEqual v (.int 0) = .error e) ↔
      v.core.isSignaling = true :=
    (scalarEqual_eq_error_iff rfl).trans (and_iff_right rfl)
  have hother {v : Value} {b : Bool} (h : v.equal (.int 0) = .ok b)
      (hcore : v.core.isSignaling = false) :
      (∃ e, v.equal (.int 0) = .error e) ↔ v.core.isSignaling = true := by
    simp [h, hcore]
  cases v with
  | member label name v =>
    rw [equal, core]
    split
    · exact equal_zero_eq_error_iff v
    · exact ⟨by rintro ⟨_, ⟨⟩⟩, by rintro ⟨⟩⟩
  | object label extended attributes =>
    cases extended with
    | none => exact hother (b := false) (by rw [equal]; rfl) rfl
    | some v =>
      rw [equal, core]
      cases hform : label.form with
      | plain => exact equal_zero_eq_error_iff v
      | fields | model => exact ⟨by rintro ⟨_, ⟨⟩⟩, by rintro ⟨⟩⟩
  | list | tuple | set | dict => exact hother (b := false) rfl rfl
  | _ => exact hscalar
termination_by structural v

/-- **Telling whether a default is worth publishing fails** for defaults that signal. -/
theorem isIntrinsic_eq_error_iff (v : Value) :
    (∃ e, v.isIntrinsic = .error e) ↔ v.signals = true := by
  have hzero (v z : Value) (hz : z.core.isSignaling = false)
      (hsignals : v.signals = (z.numeral?.isSome && v.core.isSignaling)) :
      (∃ e, scalarEqual v z = .error e) ↔ v.signals = true := by
    rw [scalarEqual_eq_error_iff hz, hsignals, Bool.and_eq_true]
  cases v with
  | member label name v => exact equal_zero_eq_error_iff v
  | bool b => exact hzero (.bool b) (.bool false) rfl rfl
  | int n => exact hzero (.int n) (.int 0) rfl rfl
  | float x => exact hzero (.float x) (.float .zero) rfl rfl
  | decimal d => exact hzero (.decimal d) (.decimal (.ofInt 0)) rfl rfl
  | text s => exact hzero (.text s) (.text "") rfl rfl
  | bytes mutable bs => exact hzero (.bytes mutable bs) (.bytes mutable []) rfl rfl
  | date d => exact hzero (.date d) (.date .first) rfl rfl
  | moment m => exact hzero (.moment m) (.moment .first) rfl rfl
  | clock t => exact hzero (.clock t) (.clock .midnight) rfl rfl
  | duration d => exact hzero (.duration d) (.duration .zero) rfl rfl
  | uuid n => exact hzero (.uuid n) (.uuid 0) rfl rfl
  | null | list | tuple | set | dict | object => exact ⟨nofun, nofun⟩

end Value

end Schemata
