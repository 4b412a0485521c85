/-!
# Decimal numbers, exactly

A decimal number is a sign, a natural coefficient and a power of ten, or one of
the special values.  Nothing here rounds: a decimal read from text keeps every
digit that was written, trailing zeros included, because `2.50` and `2.5` are
written differently although they are the same number.

Three things are decided in this file.

* `Decimal.canonical` removes the trailing zeros of a coefficient.  Two finite
  decimals are the same number exactly when their canonical forms agree, so the
  canonical form is the meeting point at which integers, decimals and binary
  fractions are compared with one another.
* `Decimal.ofText?` is the grammar of a written decimal, on characters that have
  already been reduced to ASCII.
* `Decimal.text` writes a decimal back: positional as long as no zero has to be
  invented after the coefficient and at most five after the point, scientific
  otherwise.
-/

namespace Schemata

/-- A decimal number.  A quiet not-a-number compares unequal to everything, a
signaling one refuses to be compared at all; both may carry a payload. -/
inductive Decimal where
  | finite (negative : Bool) (coefficient : Nat) (exponent : Int)
  | infinite (negative : Bool)
  | nan (negative : Bool) (signaling : Bool) (payload : Nat)
  deriving DecidableEq, Repr, Inhabited

namespace Decimal

/-! ## Digits -/

/-- The decimal digits of a natural number as text. -/
def digitsText (n : Nat) : String :=
  String.ofList (Nat.toDigits 10 n)

/-- How many decimal digits a natural number is written with; zero has one. -/
def digitCount (n : Nat) : Nat :=
  (Nat.toDigits 10 n).length

/-- The value of a run of ASCII digits read from the left. -/
def ofDigits (cs : List Char) : Nat :=
  cs.foldl (fun acc c => 10 * acc + (c.toNat - 48)) 0

/-- Remove up to `fuel` trailing zeros of a coefficient, raising the exponent by
one for each. -/
def stripZeros : Nat → Nat → Int → Nat × Int
  | 0, c, e => (c, e)
  | fuel + 1, c, e => if c % 10 = 0 then stripZeros fuel (c / 10) (e + 1) else (c, e)

/-- The coefficient without trailing zeros, and the exponent that goes with it.
Zero is `(0, 0)`. -/
def canonical (coefficient : Nat) (exponent : Int) : Nat × Int :=
  if coefficient = 0 then (0, 0)
  else stripZeros (digitCount coefficient) coefficient exponent

/-- The decimal that an integer is. -/
def ofInt (n : Int) : Decimal :=
  .finite (decide (n < 0)) n.natAbs 0

/-! ## Integers among the decimals -/

/-- The signed integer with a given magnitude. -/
def signed (negative : Bool) (magnitude : Nat) : Int :=
  if negative then -(magnitude : Int) else (magnitude : Int)

/-- The integer a finite decimal is, when it is one. -/
def toInt? : Decimal → Option Int
  | .finite neg c e =>
    match canonical c e with
    | (c, .ofNat k) => some (signed neg (c * Nat.pow 10 k))
    | (_, .negSucc _) => none
  | _ => none

/-- A finite decimal with its fraction dropped. -/
def truncate (negative : Bool) (coefficient : Nat) (exponent : Int) : Int :=
  match exponent with
  | .ofNat k => signed negative (coefficient * Nat.pow 10 k)
  | .negSucc k =>
    if digitCount coefficient ≤ k then 0 else signed negative (coefficient / Nat.pow 10 (k + 1))

/-- The number is written without a sign, or its sign is on a zero. -/
def isZero : Decimal → Bool
  | .finite _ c _ => c = 0
  | _ => false

/-! ## Reading -/

/-- Exponents outside this range are refused: a decimal whose leading digit would
stand above it, or whose last digit would stand below it, is not representable. -/
def largestExponent : Int := 999999999999999999

/-- The lowest place at which a last digit may stand. -/
def smallestExponent : Int := -1999999999999999997

/-- An optional sign in front of the rest; `true` is a minus. -/
def takeSign : List Char → Bool × List Char
  | '-' :: r => (true, r)
  | '+' :: r => (false, r)
  | r => (false, r)

/-- The exponent part of a written number: nothing, or `e` with a signed run of
digits that reaches the end. -/
def exponentOf? : List Char → Option Int
  | [] => some 0
  | c :: r =>
    if c = 'e' then
      let (neg, digits) := takeSign r
      if digits.isEmpty || !digits.all Char.isDigit then none
      else some (signed neg (ofDigits digits))
    else none

/-- The payload that may follow the letters of a not-a-number. -/
def payloadOf? (cs : List Char) : Option Nat :=
  if cs.all Char.isDigit then some (ofDigits cs) else none

/-- Whether a finite decimal stands in the representable range. -/
def inRange (coefficient : Nat) (exponent : Int) : Bool :=
  decide (smallestExponent ≤ exponent) &&
    decide (exponent + (digitCount coefficient : Int) - 1 ≤ largestExponent)

/-- The finite numbers: digits, a point, digits, an exponent, with a digit on at
least one side of the point. -/
def numeralOf? (negative : Bool) (cs : List Char) : Option Decimal :=
  let whole := cs.takeWhile Char.isDigit
  let rest := cs.dropWhile Char.isDigit
  let (fraction, rest) := match rest with
    | '.' :: r => (r.takeWhile Char.isDigit, r.dropWhile Char.isDigit)
    | r => ([], r)
  if whole.isEmpty && fraction.isEmpty then none
  else
    match exponentOf? rest with
    | none => none
    | some e =>
      let coefficient := ofDigits (whole ++ fraction)
      let exponent := e - (fraction.length : Int)
      if inRange coefficient exponent then some (.finite negative coefficient exponent) else none

/-- Read a decimal from ASCII characters: an optional sign, then a numeral, an
infinity or a not-a-number, in either case of letters. -/
def ofText? (cs : List Char) : Option Decimal :=
  let (negative, body) := takeSign cs
  let body := body.map Char.toLower
  match body with
  | 'i' :: 'n' :: 'f' :: [] => some (.infinite negative)
  | 'i' :: 'n' :: 'f' :: 'i' :: 'n' :: 'i' :: 't' :: 'y' :: [] => some (.infinite negative)
  | 'n' :: 'a' :: 'n' :: r => (payloadOf? r).map (.nan negative false)
  | 's' :: 'n' :: 'a' :: 'n' :: r => (payloadOf? r).map (.nan negative true)
  | body => numeralOf? negative body

/-! ## Writing -/

/-- The sign in front of a written number. -/
def signText (negative : Bool) : String :=
  if negative then "-" else ""

/-- An integer with its sign, a plus included. -/
def signedText (n : Int) : String :=
  (if n < 0 then "-" else "+") ++ digitsText n.natAbs

/-- The digits of a number with the point after the first `place` of them; zeros
are put in front or behind where the digits do not reach. -/
def positional (digits : List Char) (place : Int) : String :=
  match place with
  | .ofNat p =>
    if digits.length ≤ p then
      String.ofList (digits ++ List.replicate (p - digits.length) '0')
    else if p = 0 then "0." ++ String.ofList digits
    else String.ofList (digits.take p) ++ "." ++ String.ofList (digits.drop p)
  | .negSucc p => "0." ++ String.ofList (List.replicate (p + 1) '0' ++ digits)

/-- The text of a decimal.  With `left` digits before the point in positional
form, that form is chosen when the exponent is not positive and `left` is above
`-6`; otherwise one digit stands before the point and the exponent follows. -/
def text : Decimal → String
  | .infinite neg => signText neg ++ "Infinity"
  | .nan neg signaling payload =>
    signText neg ++ (if signaling then "sNaN" else "NaN") ++
      (if payload = 0 then "" else digitsText payload)
  | .finite neg c e =>
    let digits := Nat.toDigits 10 c
    let left : Int := e + (digits.length : Int)
    if e ≤ 0 ∧ -6 < left then
      signText neg ++ positional digits left
    else
      signText neg ++ positional digits 1 ++
        (if left = 1 then "" else "E" ++ signedText (left - 1))

end Decimal

end Schemata
