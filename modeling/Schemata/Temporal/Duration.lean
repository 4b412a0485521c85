import Schemata.Temporal.Basic

/-!
# Spans of time

A span is a whole number of microseconds, negative ones included.

* `parts` splits it into days, seconds and microseconds, the last two never
  negative.
* `periodText` writes its magnitude as an ISO 8601 period with the sign in front:
  years of 365 days, then days, hours, minutes and seconds, leaving out the parts
  that are zero.  Microseconds become a fraction of the seconds, without trailing
  zeros.
* `clockText` writes the parts as days and a clock.
-/

namespace Schemata

/-- A span of time in microseconds. -/
structure Duration where
  micros : Int
  deriving DecidableEq, Repr, Inhabited

namespace Duration

/-- No time at all. -/
def zero : Duration := ⟨0⟩

/-- The microseconds of a day. -/
def perDay : Nat := 86400000000

/-- The span of given days, seconds and microseconds, of any size and sign. -/
def ofParts (days seconds micros : Int) : Duration :=
  ⟨(days * 86400 + seconds) * 1000000 + micros⟩

/-- Days, seconds and microseconds of a span. -/
def parts (d : Duration) : Int × Nat × Nat :=
  let days := Int.fdiv d.micros perDay
  let rest := (Int.fmod d.micros perDay).toNat
  (days, rest / 1000000, rest % 1000000)

/-- A fraction of a second without trailing zeros, given its microseconds. -/
def fractionText (micros : Nat) : String :=
  let digits := (paddedText 6 micros).toList
  String.ofList ((digits.reverse.dropWhile (· == '0')).reverse)

/-- A part of a period, left out when it is zero. -/
def periodPart (n : Nat) (unit : String) : String :=
  if n = 0 then "" else Decimal.digitsText n ++ unit

/-- The seconds of a period. -/
def secondsPart (seconds micros : Nat) : String :=
  if micros = 0 then periodPart seconds "S"
  else Decimal.digitsText seconds ++ "." ++ fractionText micros ++ "S"

/-- A span as an ISO 8601 period. -/
def periodText (d : Duration) : String :=
  let n := d.micros.natAbs
  let days := n / perDay
  let seconds := n % perDay / 1000000
  let micros := n % 1000000
  let day := periodPart (days / 365) "Y" ++ periodPart (days % 365) "D"
  let clock := periodPart (seconds / 3600) "H" ++ periodPart (seconds / 60 % 60) "M" ++
    secondsPart (seconds % 60) micros
  (if d.micros < 0 then "-" else "") ++ "P" ++
    (if n = 0 then "T0S" else day ++ (if clock.isEmpty then "" else "T" ++ clock))

/-- A span as days and a clock. -/
def clockText (d : Duration) : String :=
  let (days, seconds, micros) := d.parts
  (if days = 0 then ""
   else toString days ++ (if days.natAbs = 1 then " day, " else " days, ")) ++
    Decimal.digitsText (seconds / 3600) ++ ":" ++ paddedText 2 (seconds / 60 % 60) ++ ":" ++
    paddedText 2 (seconds % 60) ++
    (if micros = 0 then "" else "." ++ paddedText 6 micros)

end Duration

end Schemata
