import Schemata.Number.Binary64

/-!
# The shortest text of a double

A double is written with the fewest decimal digits that read back as the same
double, and among those with the digits nearest to it.

**The digits.**  The reals that round to `m · 2^q` form an interval around it,
half a unit wide on each side (a quarter of one below a power of two), closed
exactly when `m` is even.  For `n = 1, 2, … 17` digits the two neighbours of the
value on the grid of `n`-digit decimals are tried in exact arithmetic; the first
grid with a neighbour in the interval gives the digits.

**The layout.**  `Layout` records the decisions a format makes: between which
places of the point the number is written positionally, and how an exponent is
spelled.  `Layout.plain` is the one in use here.
-/

namespace Schemata

namespace Binary64

/-- Twice the interval that rounds to `m · 2^e`, as three numerators over one
denominator: lower end, value, upper end. -/
def window (mantissa : Nat) (exponent : Int) : Nat × Nat × Nat × Nat :=
  -- quarter units keep the narrower lower half below a power of two integral
  let below := if mantissa = Nat.pow 2 52 ∧ leastExponent < exponent then 1 else 2
  let (lo, mid, hi) := (4 * mantissa - below, 4 * mantissa, 4 * mantissa + 2)
  match exponent with
  | .ofNat k => (lo * Nat.pow 2 k, mid * Nat.pow 2 k, hi * Nat.pow 2 k, 4)
  | .negSucc k => (lo, mid, hi, 4 * Nat.pow 2 (k + 1))

/-- The power of ten `10^place` as numerator and denominator. -/
def tenTo (place : Int) : Nat × Nat :=
  match place with
  | .ofNat k => (Nat.pow 10 k, 1)
  | .negSucc k => (1, Nat.pow 10 (k + 1))

/-- Where the leading digit of `num / den` stands: the `p` with
`10^(p-1) ≤ num / den < 10^p`, searched from an estimate. -/
def leadingPlace (num den : Nat) : Int :=
  let estimate : Int := (((num.log2 : Int) - (den.log2 : Int)) * 30103) / 100000
  let above (p : Int) : Bool :=
    let (n, d) := tenTo p
    decide (n * den ≤ num * d)
  -- the estimate is off by at most two places
  let start := estimate - 1
  if !above start then start
  else if !above (start + 1) then start + 1
  else if !above (start + 2) then start + 2
  else start + 3

/-- The neighbours of the value on the grid of multiples of `10^place`, tested
against the window; of two that fit, the nearer one, a tie going to the even. -/
def onGrid (w : Nat × Nat × Nat × Nat) (closed : Bool) (place : Int) : Option Nat :=
  let (lo, mid, hi, den) := w
  let (n, d) := tenTo place
  let floor := (mid * d) / (den * n)
  let fits (k : Nat) : Bool :=
    let at' := k * n * den
    if closed then decide (lo * d ≤ at') && decide (at' ≤ hi * d)
    else decide (lo * d < at') && decide (at' < hi * d)
  match fits floor, fits (floor + 1) with
  | false, false => none
  | true, false => some floor
  | false, true => some (floor + 1)
  | true, true =>
    let down := mid * d - floor * n * den
    let up := (floor + 1) * n * den - mid * d
    if down < up then some floor
    else if up < down then some (floor + 1)
    else if floor % 2 = 0 then some floor else some (floor + 1)

/-- Try grids of `17 - fuel`, … digits in turn. -/
def searchGrids (w : Nat × Nat × Nat × Nat) (closed : Bool) (lead : Int) : Nat → Nat → Nat × Int
  | 0, n => (((onGrid w closed (lead - (n : Int))).getD 0), lead - (n : Int))
  | fuel + 1, n =>
    match onGrid w closed (lead - (n : Int)) with
    | some k => (k, lead - (n : Int))
    | none => searchGrids w closed lead fuel (n + 1)

/-- **The shortest digits** of a positive finite double, as a coefficient without
trailing zeros and its power of ten. -/
def shortest (mantissa : Nat) (exponent : Int) : Nat × Int :=
  let w := window mantissa exponent
  let (_, mid, _, den) := w
  let lead := leadingPlace mid den
  let (k, place) := searchGrids w (mantissa % 2 = 0) lead 17 1
  Decimal.canonical k place

/-- The decisions of a number format. -/
structure Layout where
  /-- Positional form is used while the point stands right of this place … -/
  leastPoint : Int
  /-- … and not right of this one. -/
  greatestPoint : Int
  /-- An exponent is written with at least this many digits. -/
  exponentDigits : Nat

/-- Positional from `0.0001` up to sixteen digits before the point, with `.0`
after a whole number; otherwise an exponent of at least two digits with its
sign. -/
def Layout.plain : Layout := ⟨-4, 16, 2⟩

/-- The exponent of scientific form. -/
def Layout.exponentText (l : Layout) (n : Int) : String :=
  let digits := Nat.toDigits 10 n.natAbs
  "e" ++ (if n < 0 then "-" else "+") ++
    String.ofList (List.replicate (l.exponentDigits - digits.length) '0' ++ digits)

/-- Digits and the place of their point, laid out. -/
def Layout.write (l : Layout) (digits : List Char) (point : Int) : String :=
  if l.leastPoint < point ∧ point ≤ l.greatestPoint then
    let whole := Decimal.positional digits point
    if (digits.length : Int) ≤ point then whole ++ ".0" else whole
  else
    Decimal.positional digits 1 ++ l.exponentText (point - 1)

/-- The text of a double under a layout. -/
def textWith (l : Layout) : Binary64 → String
  | .nan => "nan"
  | .infinite neg => Decimal.signText neg ++ "inf"
  | .finite neg m e =>
    if m = 0 then Decimal.signText neg ++ "0.0"
    else
      let (k, place) := shortest m e
      let digits := Nat.toDigits 10 k
      Decimal.signText neg ++ l.write digits (place + (digits.length : Int))

/-- The text of a double. -/
def text (x : Binary64) : String :=
  textWith .plain x

end Binary64

end Schemata
