import Schemata.Temporal.Basic

/-!
# Reading dates, times and moments

The ISO 8601 forms `year-month-day` and `hour:minute:second.fraction±hour:minute`,
each with as many parts as are written.  A moment is a date and a time with one
character between them.
-/

namespace Schemata

/-- Read a number of exactly `width` digits. -/
def takeNumber? (width : Nat) (cs : List Char) : Option (Nat × List Char) :=
  let digits := cs.take width
  if digits.length = width ∧ digits.all Char.isDigit then
    some (Decimal.ofDigits digits, cs.drop width)
  else none

namespace Date

/-- Read a date, and give back what follows it. -/
def take? (cs : List Char) : Option (Date × List Char) := do
  let (year, r) ← takeNumber? 4 cs
  let '-' :: r := r | none
  let (month, r) ← takeNumber? 2 r
  let '-' :: r := r | none
  let (day, r) ← takeNumber? 2 r
  if 1 ≤ year ∧ 1 ≤ month ∧ month ≤ 12 ∧ 1 ≤ day ∧ day ≤ daysIn year month then
    some (⟨year, month, day⟩, r)
  else none

/-- The date a text is. -/
def ofText? (s : String) : Option Date :=
  match take? s.toList with
  | some (d, []) => some d
  | _ => none

end Date

namespace Clock

/-- A fraction of a second as microseconds; digits past the sixth are dropped. -/
def microsOf (digits : List Char) : Nat :=
  Decimal.ofDigits ((digits ++ List.replicate 6 '0').take 6)

/-- Read `:second.fraction` as far as it is written. -/
def takeSeconds? (cs : List Char) : Option (Nat × Nat × List Char) :=
  match cs with
  | ':' :: r => do
    let (second, r) ← takeNumber? 2 r
    match r with
    | '.' :: f =>
      let digits := f.takeWhile Char.isDigit
      if digits.isEmpty then none else some (second, microsOf digits, f.dropWhile Char.isDigit)
    | r => some (second, 0, r)
  | r => some (0, 0, r)

/-- Read a distance from universal time. -/
def offsetOf? (cs : List Char) : Option (Option Int) :=
  match cs with
  | [] => some none
  | ['Z'] => some (some 0)
  | c :: r =>
    if c = '+' ∨ c = '-' then do
      let (hour, r) ← takeNumber? 2 r
      let ':' :: r := r | none
      let (minute, r) ← takeNumber? 2 r
      let (second, micro, r) ← takeSeconds? r
      if r.isEmpty then
        let n : Int := (((hour * 60 + minute) * 60 + second) * 1000000 + micro : Nat)
        some (some (if c = '-' then -n else n))
      else none
    else none

/-- The time a run of characters is. -/
def ofChars? (cs : List Char) : Option Clock := do
  let (hour, r) ← takeNumber? 2 cs
  let ':' :: r := r | none
  let (minute, r) ← takeNumber? 2 r
  let (second, micro, r) ← takeSeconds? r
  let offset ← offsetOf? r
  if hour < 24 ∧ minute < 60 ∧ second < 60 then some ⟨hour, minute, second, micro, offset⟩
  else none

/-- The time a text is. -/
def ofText? (s : String) : Option Clock := ofChars? s.toList

end Clock

namespace Moment

/-- The moment a text is; a date alone stands for its midnight. -/
def ofText? (s : String) : Option Moment := do
  let (date, r) ← Date.take? s.toList
  match r with
  | [] => some ⟨date, Clock.midnight⟩
  | _ :: r => (Clock.ofChars? r).map (Moment.mk date)

end Moment

end Schemata
