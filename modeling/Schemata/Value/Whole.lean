import Schemata.Value.Spelling
import Schemata.Fault.Basic
import Schemata.Text.Blank
import Schemata.Text.Digit

/-!
# Whole numbers out of values

`Value.whole` is the whole number a value denotes: an integer itself, a double or a
decimal without its fraction, a written numeral read.

A numeral may be written in the digits of any script, with blanks around it, single
underscores between its digits and a sign in front.  In a base other than ten the
letters are digits too, and the base may be announced by `0x`, `0o` or `0b`; where the
base is left open the announcement decides it, and a numeral without one is decimal and
starts with no zero.
-/

namespace Schemata

namespace Text

/-- A character that may surround a numeral. -/
def isNumeralBlank (c : Char) : Bool :=
  isBlank c && !(0x1C ≤ c.toNat && c.toNat ≤ 0x1F)

/-- A written numeral without the blanks around it, in ASCII digits. -/
def numeralBody (cs : List Char) : List Char :=
  let cs := (cs.dropWhile isNumeralBlank).reverse.dropWhile isNumeralBlank
  foldDigits cs.reverse

/-- Digits with single underscores between them, without these. -/
def plainDigits? (isDigit : Char → Bool) : List Char → Option (List Char)
  | [] => none
  | [c] => if isDigit c then some [c] else none
  | c :: '_' :: r => if isDigit c then (plainDigits? isDigit r).map (c :: ·) else none
  | c :: r => if isDigit c then (plainDigits? isDigit r).map (c :: ·) else none

/-- The longest decimal numeral that is read. -/
def longestNumeral : Nat := 4300

/-- The whole number a decimal numeral denotes. -/
def wholeOfText? (cs : List Char) : Option Int :=
  let (negative, ds) := Decimal.takeSign (numeralBody cs)
  match plainDigits? Char.isDigit ds with
  | some ds =>
    if longestNumeral < ds.length then none
    else some (Decimal.signed negative (Decimal.ofDigits ds))
  | none => none

/-- The value of a digit in the bases up to thirty-six. -/
def baseDigit? (c : Char) : Option Nat :=
  if c.isDigit then some (c.toNat - 48)
  else if c.isLower then some (c.toNat - 87)
  else if c.isUpper then some (c.toNat - 55)
  else none

/-- The base that a letter after a zero announces. -/
def announcedBase? (c : Char) : Option Nat :=
  match c.toLower with
  | 'x' => some 16
  | 'o' => some 8
  | 'b' => some 2
  | _ => none

/-- The base of the digits that follow a sign, and those digits.  An underscore may
follow an announcement. -/
def basedDigits (base : Nat) (cs : List Char) : Nat × List Char :=
  match cs with
  | '0' :: c :: r =>
    match announcedBase? c with
    | some b =>
      if base = 0 || base = b then
        (b, match r with | '_' :: r => r | r => r)
      else (if base = 0 then 10 else base, cs)
    | none => (if base = 0 then 10 else base, cs)
  | cs => (if base = 0 then 10 else base, cs)

/-- The whole number a numeral denotes in a base; zero leaves the base open. -/
def wholeInBase? (base : Nat) (cs : List Char) : Option Int :=
  let (negative, ds) := Decimal.takeSign (numeralBody cs)
  let (b, ds) := basedDigits base ds
  let isDigit (c : Char) : Bool := match baseDigit? c with
    | some d => decide (d < b)
    | none => false
  match plainDigits? isDigit ds with
  | none => none
  | some ds =>
    let n := ds.foldl (fun n c => n * b + (baseDigit? c).getD 0) 0
    if base = 0 && b = 10 && ds.head? == some '0' && n ≠ 0 then none
    else some (Decimal.signed negative n)

end Text

namespace Value

/-- The characters of a text, or of bytes read as ASCII; none for any other value, and
none where a byte is not ASCII. -/
def numeralChars? (v : Value) : Option (List Char) :=
  match v.core with
  | .text s => some s.toList
  | .bytes _ bs => if bs.all (· < 128) then some (bs.map fun b => Char.ofNat b.toNat) else none
  | _ => none

/-- **The whole part of a value**: of a number, or of one that is written out. -/
def whole (v : Value) : Except Fault Int :=
  match v.core with
  | .bool b => .ok (if b then 1 else 0)
  | .int n => .ok n
  | .uuid n => .ok n
  | .float (.finite neg m e) => .ok (Binary64.truncate neg m e)
  | .float (.infinite _) => .error (.infiniteInteger true)
  | .float .nan => .error (.undefinedInteger true)
  | .decimal (.finite neg c e) => .ok (Decimal.truncate neg c e)
  | .decimal (.infinite _) => .error (.infiniteInteger false)
  | .decimal (.nan ..) => .error (.undefinedInteger false)
  | .text _ | .bytes .. =>
    match v.numeralChars?.bind Text.wholeOfText? with
    | some n => .ok n
    | none => .error (.notInteger 10 v.spelled)
  | _ => .error (.notNumeric v.kindPath)

/-- The whole number a text denotes in a base. -/
def wholeInBase (v : Value) (base : Int) : Except Fault Int :=
  if base ≠ 0 ∧ (base < 2 ∨ 36 < base) then
    .error (.unfit .range "int() base must be >= 2 and <= 36, or 0")
  else
    match v.core with
    | .text _ | .bytes .. =>
      match v.numeralChars?.bind (Text.wholeInBase? base.toNat) with
      | some n => .ok n
      | none => .error (.notInteger base v.spelled)
    | _ => .error (.unfit .kind "int() can't convert non-string with explicit base")

end Value

end Schemata
