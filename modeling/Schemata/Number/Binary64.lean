import Schemata.Number.Decimal

/-!
# Binary fractions of double precision

A double is held by its value, not by its bits: a sign, a mantissa below `2^53`
and a power of two.  Every operation the schemas need on doubles --- reading,
rounding a decimal, comparing with integers and decimals --- is then exact
arithmetic on natural numbers, and nothing depends on a machine's floating-point
unit.

`Binary64.ofRatio` is the only place where a number is rounded: to the nearest
representable value, a tie going to the even mantissa.
-/

namespace Schemata

/-- A double: `mantissa · 2^exponent` with a sign, an infinity, or not a number.
A mantissa of at least `2^52` may go with any exponent from `-1074` to `971`; a
smaller one only with `-1074`. -/
inductive Binary64 where
  | finite (negative : Bool) (mantissa : Nat) (exponent : Int)
  | infinite (negative : Bool)
  | nan
  deriving DecidableEq, Repr, Inhabited

namespace Binary64

/-- Positive zero. -/
def zero : Binary64 := .finite false 0 (-1074)

/-- The exponent of the least positive double. -/
def leastExponent : Int := -1074

/-- The largest exponent of a finite double. -/
def greatestExponent : Int := 971

/-- A ratio scaled by a power of two, as numerator and denominator. -/
def scaled (num den : Nat) (exponent : Int) : Nat × Nat :=
  match exponent with
  | .ofNat k => (num, den * Nat.pow 2 k)
  | .negSucc k => (num * Nat.pow 2 (k + 1), den)

/-- `num / den` to the nearest natural number, ties to even. -/
def roundHalfEven (num den : Nat) : Nat :=
  let q := num / den
  let r := num % den
  if 2 * r < den then q
  else if den < 2 * r then q + 1
  else if q % 2 = 0 then q else q + 1

/-- The exponent at which `num / den` has a mantissa of 53 bits, or the least
exponent where that is too small. -/
def mantissaExponent (num den : Nat) : Int :=
  let guess : Int := (num.log2 : Int) - (den.log2 : Int) - 52
  let (n, d) := scaled num den guess
  let exact := if n / d < Nat.pow 2 52 then guess - 1 else guess
  max exact leastExponent

/-- **Rounding.**  The double nearest to `num / den`, ties to the even mantissa;
beyond the largest finite double, infinity. -/
def ofRatio (negative : Bool) (num den : Nat) : Binary64 :=
  if num = 0 then .finite negative 0 leastExponent
  else
    let exponent := mantissaExponent num den
    let (n, d) := scaled num den exponent
    let m := roundHalfEven n d
    let (m, exponent) := if m = Nat.pow 2 53 then (Nat.pow 2 52, exponent + 1) else (m, exponent)
    if greatestExponent < exponent then .infinite negative
    else .finite negative m exponent

/-- The double nearest to `coefficient · 10^exponent`.  Far outside the range of
doubles the answer is known from the number of digits alone. -/
def ofScaled (negative : Bool) (coefficient : Nat) (exponent : Int) : Binary64 :=
  if coefficient = 0 then .finite negative 0 leastExponent
  else
    let top := exponent + (Decimal.digitCount coefficient : Int)
    if 400 < top then .infinite negative
    else if top < -400 then .finite negative 0 leastExponent
    else
      match exponent with
      | .ofNat k => ofRatio negative (coefficient * Nat.pow 10 k) 1
      | .negSucc k => ofRatio negative coefficient (Nat.pow 10 (k + 1))

/-- The double nearest to a decimal.  Not-a-number keeps neither sign nor payload. -/
def ofDecimal : Decimal → Binary64
  | .finite neg c e => ofScaled neg c e
  | .infinite neg => .infinite neg
  | .nan _ _ _ => .nan

/-- A finite double written as a decimal, exactly. -/
def exactDecimal (negative : Bool) (mantissa : Nat) (exponent : Int) : Decimal :=
  match exponent with
  | .ofNat k => .finite negative (mantissa * Nat.pow 2 k) 0
  | .negSucc k => .finite negative (mantissa * Nat.pow 5 (k + 1)) (-((k : Int) + 1))

/-- A double as a decimal, exactly. -/
def toDecimal : Binary64 → Decimal
  | .finite neg m e => exactDecimal neg m e
  | .infinite neg => .infinite neg
  | .nan => .nan false false 0

/-- Halve a number as often as it is even, at most a number of times; with it, how often it
was halved. -/
def halved : Nat → Nat → Nat × Nat
  | 0, m => (m, 0)
  | k + 1, m =>
    if m % 2 = 0 then
      let (m', n) := halved k (m / 2)
      (m', n + 1)
    else (m, 0)

/-- A double as a decimal, exactly, with as few digits after the point as it needs. -/
def toShortDecimal : Binary64 → Decimal
  | .finite neg m (.negSucc k) =>
    let (m', n) := halved (k + 1) m
    exactDecimal neg m' (-((k + 1 - n : Nat) : Int))
  | x => x.toDecimal

/-- Neither an infinity nor not a number. -/
def isFinite : Binary64 → Bool
  | .finite .. => true
  | _ => false

/-- Either zero. -/
def isZero : Binary64 → Bool
  | .finite _ m _ => m = 0
  | _ => false

/-- A finite double with its fraction dropped. -/
def truncate (negative : Bool) (mantissa : Nat) (exponent : Int) : Int :=
  match exponent with
  | .ofNat k => Decimal.signed negative (mantissa * Nat.pow 2 k)
  | .negSucc k => Decimal.signed negative (mantissa / Nat.pow 2 (k + 1))

/-- Read a written double: a decimal numeral, or a word for one of the special
values.  There is no grammar of its own here; the numeral is read as a decimal
and rounded. -/
def ofText? (cs : List Char) : Option Binary64 :=
  match Decimal.ofText? cs with
  | some (.nan _ true _) => none
  | some d => some (ofDecimal d)
  | none => none

end Binary64

end Schemata
