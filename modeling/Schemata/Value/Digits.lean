import Schemata.Value.Whole

/-!
# Values that are too long to be shown

A whole number of more than `Text.longestNumeral` digits is not written out, so that a
value which would show such a number has no spelling.  `Value.isSpelled` says of every value
whether `Value.spelled` can be had, and `Value.isDisplayed` says the same of `Value.display`.
-/

namespace Schemata

/-- A whole number is too long to be written out. -/
def Fault.tooManyDigits : Fault :=
  .unfit .range ("Exceeds the limit (" ++ toString Text.longestNumeral ++
    " digits) for integer string conversion; " ++
    "use sys.set_int_max_str_digits() to increase the limit")

namespace Value

mutual

/-- **Whether the spelling that shows the kind of a value can be had.** -/
def isSpelled : Value → Bool
  | .int n => decide (n.natAbs < Nat.pow 10 Text.longestNumeral)
  | .list xs | .tuple xs | .set _ xs => allSpelled xs
  | .dict es => entriesSpelled es
  | .member _ _ v => isSpelled v
  | .object label (some (.set _ xs)) attributes =>
    if label.form == .plain then allSpelled xs else fieldsSpelled attributes
  | .object label (some v) attributes =>
    if label.form == .plain then isSpelled v else fieldsSpelled attributes
  | .object label none attributes => label.form == .plain || fieldsSpelled attributes
  | _ => true

/-- Whether the spellings of some values can be had. -/
def allSpelled : List Value → Bool
  | [] => true
  | x :: xs => isSpelled x && allSpelled xs

/-- Whether the spellings of entries can be had. -/
def entriesSpelled : List (Value × Value) → Bool
  | [] => true
  | (k, v) :: es => isSpelled k && isSpelled v && entriesSpelled es

/-- Whether the spellings of fields can be had. -/
def fieldsSpelled : List (String × Value) → Bool
  | [] => true
  | (_, v) :: fs => isSpelled v && fieldsSpelled fs

end

/-- **Whether the plain spelling of a value can be had.** -/
def isDisplayed : Value → Bool
  | .member label _ v => !label.shownByValue || isDisplayed v
  | .object label (some v) attributes =>
    label.spoken.isSome ||
      match label.form, v with
      | .plain, .set .. | .plain, .bytes true _ => isSpelled (.object label (some v) attributes)
      | .plain, v => isDisplayed v
      | _, v => isSpelled (.object label (some v) attributes)
  | .object label none attributes =>
    label.spoken.isSome ||
      match label.form with
      | .model _ => fieldsSpelled attributes
      | _ => isSpelled (.object label none attributes)
  | v => isSpelled v

/-- The spelling that shows the kind of a value, if it can be had. -/
def spelling (v : Value) : Except Fault String :=
  if v.isSpelled then .ok v.spelled else .error .tooManyDigits

/-- The plain spelling of a value, if it can be had. -/
def shown (v : Value) : Except Fault String :=
  if v.isDisplayed then .ok v.display else .error .tooManyDigits

end Value

end Schemata
