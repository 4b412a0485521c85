import Schemata.Number.Decimal

/-!
# Dates, clock times and moments

A clock time may know its distance from universal time; then it denotes an
instant of the day, and two such times are equal when the instants are.  A time
that does not know its distance is only ever equal to one that does not either.
A moment is a date with a clock time.

Two written forms are given.  `isoText` keeps the distance as it is;
`wireText` writes a distance of zero as `Z`.
-/

namespace Schemata

/-- A day of the Gregorian calendar. -/
structure Date where
  year : Nat
  month : Nat
  day : Nat
  deriving DecidableEq, Repr, Inhabited

/-- A time of day to the microsecond, with its distance from universal time in
microseconds where that is known. -/
structure Clock where
  hour : Nat
  minute : Nat
  second : Nat
  micro : Nat
  offset : Option Int
  deriving DecidableEq, Repr, Inhabited

/-- A date with a time of day. -/
structure Moment where
  date : Date
  clock : Clock
  deriving DecidableEq, Repr, Inhabited

/-- A number with at least `width` digits. -/
def paddedText (width n : Nat) : String :=
  let digits := Nat.toDigits 10 n
  String.ofList (List.replicate (width - digits.length) '0' ++ digits)

namespace Date

/-- The first day of the calendar. -/
def first : Date := ⟨1, 1, 1⟩

/-- A year with a leap day. -/
def isLeap (year : Nat) : Bool :=
  year % 4 == 0 && (year % 100 != 0 || year % 400 == 0)

/-- The number of days in a month. -/
def daysIn (year month : Nat) : Nat :=
  if month = 2 then (if isLeap year then 29 else 28)
  else if month = 4 ∨ month = 6 ∨ month = 9 ∨ month = 11 then 30 else 31

/-- How many days lie before a date, counted from the first one. -/
def ordinal (d : Date) : Nat :=
  let y := d.year - 1
  365 * y + y / 4 - y / 100 + y / 400 +
    (List.range (d.month - 1)).foldl (fun n m => n + daysIn d.year (m + 1)) 0 + (d.day - 1)

/-- Year, month and day between hyphens. -/
def isoText (d : Date) : String :=
  paddedText 4 d.year ++ "-" ++ paddedText 2 d.month ++ "-" ++ paddedText 2 d.day

end Date

namespace Clock

/-- Midnight, at no known distance from universal time. -/
def midnight : Clock := ⟨0, 0, 0, 0, none⟩

/-- Microseconds since midnight. -/
def sinceMidnight (t : Clock) : Int :=
  (((t.hour * 60 + t.minute) * 60 + t.second) * 1000000 + t.micro : Nat)

/-- Hours, minutes and seconds, and the microseconds unless they are zero. -/
def bareText (t : Clock) : String :=
  paddedText 2 t.hour ++ ":" ++ paddedText 2 t.minute ++ ":" ++ paddedText 2 t.second ++
    (if t.micro = 0 then "" else "." ++ paddedText 6 t.micro)

/-- A distance from universal time: hours and minutes, then seconds and
microseconds as far as they are needed. -/
def offsetText (offset : Int) : String :=
  let micros := offset.natAbs
  let seconds := micros / 1000000
  let rest := micros % 1000000
  (if offset < 0 then "-" else "+") ++ paddedText 2 (seconds / 3600) ++ ":" ++
    paddedText 2 (seconds / 60 % 60) ++
    (if seconds % 60 = 0 ∧ rest = 0 then "" else ":" ++ paddedText 2 (seconds % 60)) ++
    (if rest = 0 then "" else "." ++ paddedText 6 rest)

/-- The time with its distance from universal time. -/
def isoText (t : Clock) : String :=
  t.bareText ++ (match t.offset with | none => "" | some o => offsetText o)

/-- The time with its distance from universal time, a distance of zero as `Z`. -/
def wireText (t : Clock) : String :=
  t.bareText ++ (match t.offset with
    | none => ""
    | some o => if o = 0 then "Z" else offsetText o)

/-- Equal times: the same instant of the day, or the same clock without a known
distance. -/
def same (a b : Clock) : Bool :=
  match a.offset, b.offset with
  | none, none => a == b
  | some x, some y => a.sinceMidnight - x == b.sinceMidnight - y
  | _, _ => false

end Clock

namespace Moment

/-- Midnight of the first day. -/
def first : Moment := ⟨Date.first, Clock.midnight⟩

/-- Microseconds since the first moment, as the clock shows them. -/
def shown (m : Moment) : Int :=
  (m.date.ordinal : Int) * 86400000000 + m.clock.sinceMidnight

/-- Date and time joined by `T`. -/
def isoText (m : Moment) : String := m.date.isoText ++ "T" ++ m.clock.isoText

/-- Date and time joined by a blank, as a message shows them. -/
def spacedText (m : Moment) : String := m.date.isoText ++ " " ++ m.clock.isoText

/-- Date and time joined by `T`, a distance of zero as `Z`. -/
def wireText (m : Moment) : String := m.date.isoText ++ "T" ++ m.clock.wireText

/-- Equal moments: the same instant, or the same clock without a known distance. -/
def same (a b : Moment) : Bool :=
  match a.clock.offset, b.clock.offset with
  | none, none => a == b
  | some x, some y => a.shown - x == b.shown - y
  | _, _ => false

end Moment

end Schemata
