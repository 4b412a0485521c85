import Schemata.Proofs.Annotation.Merging
import Schemata.Proofs.Schema.Validation

/-!
# The values that literal types list

A literal type lists texts, whole numbers, truth values and null (`Choice`).  Two notions of
equality meet in its schema.

* When the list is put together, values are compared as they are anywhere else in the library: a
  truth value is a number, so that there are pairs of different values of which the second is left
  out (`Choice.matchesElement_toValue`).
* A document is read in the other notion: there a truth value is no number, and every value of the
  list is equal to no other one of them (`Choice.equals_toValue`).

Whole numbers are compared by their canonical forms, so that the first notion asks for these to
determine the numbers (`Numeral.ofInt_inj`).
-/

namespace Schemata

/-! ## Canonical forms -/

namespace Decimal

/-- Taking zeros off a coefficient leaves the number as it is. -/
theorem exists_of_stripZeros {fuel c k : Nat} {e p : Int} (h : stripZeros fuel c e = (k, p)) :
    ∃ j : Nat, c = k * 10 ^ j ∧ p = e + j := by
  induction fuel generalizing c e with
  | zero =>
    cases h
    exact ⟨0, by simp, by simp⟩
  | succ fuel ih =>
    rw [stripZeros] at h
    split at h
    next hzero =>
      obtain ⟨j, hc, hp⟩ := ih h
      refine ⟨j + 1, ?_, by omega⟩
      rw [Nat.pow_succ, ← Nat.mul_assoc, ← hc]
      omega
    next =>
      cases h
      exact ⟨0, by simp, by simp⟩

/-- A natural number is its canonical coefficient with as many zeros as the exponent says. -/
theorem canonical_reconstruct (c : Nat) :
    (canonical c 0).1 * 10 ^ (canonical c 0).2.toNat = c := by
  unfold canonical
  split
  next hzero => rw [Nat.zero_mul, hzero]
  next =>
    have hstrip : stripZeros (digitCount c) c 0 = (_, _) := rfl
    obtain ⟨j, hc, hp⟩ := exists_of_stripZeros hstrip
    have hj : (stripZeros (digitCount c) c 0).2.toNat = j := by omega
    rw [hj]
    exact hc.symm

end Decimal

namespace Numeral

/-- **Whole numbers with one canonical form are equal.** -/
theorem ofInt_inj {m n : Int} : ofDecimal (.ofInt m) = ofDecimal (.ofInt n) ↔ m = n := by
  refine ⟨fun h => ?_, fun h => h ▸ rfl⟩
  unfold ofDecimal Decimal.ofInt at h
  simp only [finite.injEq] at h
  obtain ⟨hsign, hcoefficient, hexponent⟩ := h
  have hm := Decimal.canonical_reconstruct m.natAbs
  have hn := Decimal.canonical_reconstruct n.natAbs
  have hmagnitude : m.natAbs = n.natAbs := by
    rw [← hm, ← hn, hcoefficient, hexponent]
  -- a number that is not zero has a canonical coefficient that is not zero, and so a sign
  by_cases hzero : (Decimal.canonical m.natAbs 0).1 = 0
  · rw [hzero, Nat.zero_mul] at hm
    omega
  · rw [← hcoefficient, bne_iff_ne.mpr hzero, Bool.and_true, Bool.and_true,
      decide_eq_decide] at hsign
    omega

theorem equal_ofInt (m n : Int) :
    (ofDecimal (.ofInt m)).equal (ofDecimal (.ofInt n)) = .ok (m == n) := by
  have hequal : (ofDecimal (.ofInt m)).equal (ofDecimal (.ofInt n)) =
      .ok (ofDecimal (.ofInt m) == ofDecimal (.ofInt n)) := rfl
  rw [hequal, Bool.eq_iff_iff.mpr (beq_iff_eq.trans (ofInt_inj.trans beq_iff_eq.symm))]

end Numeral

/-! ## Choices -/

/-- **A value that a literal type lists.** -/
inductive Choice where
  | null
  | bool (b : Bool)
  | int (n : Int)
  | text (s : String)
  deriving DecidableEq

/-- Putting images behind images. -/
theorem collect_map {α β : Type} {r : β → β → Bool} (f : α → β) (target xs : List α) :
    collect r (target.map f) (xs.map f) = (collect (fun x y => r (f x) (f y)) target xs).map f := by
  induction xs generalizing target with
  | nil => rfl
  | cons x xs ih =>
    rw [List.map_cons, collect_cons, collect_cons, ← ih, List.any_map, apply_ite (List.map f),
      List.map_append]
    rfl

namespace Choice

/-- A choice as a value. -/
def toValue : Choice → Value
  | null => .null
  | bool b => .bool b
  | int n => .int n
  | text s => .text s

/-- The type that lists some values. -/
def literal (xs : List Choice) : Token :=
  .literal (xs.map toValue)

/-- **What a choice counts as** when values are compared: a truth value as its number, any other
choice as itself. -/
def counted : Choice → Choice
  | bool b => int b.toInt
  | x => x

variable {x y : Choice} {v : Value}

/-! ### Comparing choices -/

theorem numeral?_toValue (x : Choice) : x.toValue.numeral? = match x.counted with
    | int n => some (.ofDecimal (.ofInt n))
    | _ => none := by
  cases x with
  | bool b => cases b <;> rfl
  | null | int n | text s => rfl

/-- **Comparing choices never fails**, and tells whether they count as the same. -/
@[simp] theorem matchesElement_toValue (x y : Choice) :
    x.toValue.matchesElement y.toValue = .ok (x.counted == y.counted) := by
  have hscalar : x.toValue.matchesElement y.toValue = x.toValue.scalarEqual y.toValue := by
    cases x <;> cases y <;> rfl
  have hnumbers (m n : Int) : (Numeral.ofDecimal (.ofInt m)).equal (.ofDecimal (.ofInt n)) =
      .ok (int m == int n) := by
    rw [Numeral.equal_ofInt]
    simp [beq_eq_decide]
  have htexts (s t : String) :
      (Except.ok (s == t) : Except Fault Bool) = .ok (text s == text t) := by
    simp [beq_eq_decide]
  rw [hscalar]
  unfold Value.scalarEqual
  rw [numeral?_toValue, numeral?_toValue]
  cases x <;> cases y <;> first | rfl | exact hnumbers _ _ | exact htexts _ _

@[simp] theorem alike_toValue (x y : Choice) :
    x.toValue.alike y.toValue = (x.counted == y.counted) := by
  rw [Value.alike, matchesElement_toValue]

theorem comparable_toValue (xs : List Choice) : Value.Comparable (xs.map toValue) where
  decides := by
    simp only [List.forall_mem_map]
    exact fun x _ y _ => ⟨_, matchesElement_toValue x y⟩
  trans := by
    simp only [List.forall_mem_map, alike_toValue, beq_iff_eq]
    exact fun x _ y _ z _ => Eq.trans

/-- Choices without those that count as an earlier one. -/
def unrepeated (xs : List Choice) : List Choice :=
  collect (fun x y => x.counted == y.counted) [] xs

variable {xs : List Choice}

theorem unrepeated_subset : unrepeated xs ⊆ xs :=
  collect_subset

/-- Of the choices that count as the same, one is kept, -/
theorem exists_of_mem_unrepeated (h : x ∈ xs) : ∃ y ∈ unrepeated xs, y.counted = x.counted := by
  obtain ⟨y, hy, heq | hcounted⟩ := exists_of_mem_collect [] h
  · exact ⟨y, hy, congrArg counted heq⟩
  · exact ⟨y, hy, (eq_of_beq hcounted).symm⟩

/-- and only one. -/
theorem eq_of_mem_unrepeated (hx : x ∈ unrepeated xs) (hy : y ∈ unrepeated xs)
    (h : x.counted = y.counted) : x = y := by
  have hpairwise : (unrepeated xs).Pairwise fun u v => (v.counted == u.counted) = false :=
    pairwise_collect .nil xs
  have hcounted : ((unrepeated xs).map counted).Nodup := by
    refine List.pairwise_map.mpr (hpairwise.imp fun hne heq => ?_)
    rw [heq, beq_self_eq_true] at hne
    cases hne
  exact List.inj_on_of_nodup_map hcounted hx hy h

theorem eraseDupsBy_map_toValue (xs : List Choice) :
    (xs.map toValue).eraseDupsBy Value.alike = (unrepeated xs).map toValue := by
  rw [eraseDupsBy_eq_collect, unrepeated, ← List.map_nil (f := toValue), collect_map]
  simp only [alike_toValue]

/-! ### Choices in documents -/

/-- **What equals a choice in a document.** -/
theorem equals_iff : x.toValue.Equals v ↔ match x with
    | null => v = .null
    | bool b => v = .bool b
    | int n => v.rational? = some (n : ℚ)
    | text s => v.text? = some s := by
  cases x <;> simp [toValue, Value.Equals, Value.text?, Value.rational?, Value.core]

@[simp] theorem equals_toValue : x.toValue.Equals y.toValue ↔ x = y := by
  rw [equals_iff, eq_comm (a := x)]
  cases x <;> cases y <;> simp [toValue, Value.text?, Value.rational?, Value.core]

end Choice

end Schemata
