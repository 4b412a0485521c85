import Schemata.Value.Basic

/-!
# Reading JSON

A JSON text as a value: objects become mappings from texts in the order written,
numerals without fraction and exponent become integers and the others doubles.
Reading is bounded by the length of the text, since every step consumes at least
one character.
-/

namespace Schemata.Json

/-- The white space between tokens. -/
def isSpace (c : Char) : Bool :=
  c = ' ' || c = '\n' || c = '\r' || c = '\t'

/-- Characters without the white space in front. -/
def skipSpace (cs : List Char) : List Char :=
  cs.dropWhile isSpace

/-- The value of a hexadecimal digit. -/
def hexDigit? (c : Char) : Option Nat :=
  let n := c.toNat
  if 48 ≤ n ∧ n ≤ 57 then some (n - 48)
  else if 97 ≤ n ∧ n ≤ 102 then some (n - 87)
  else if 65 ≤ n ∧ n ≤ 70 then some (n - 55)
  else none

/-- A number of hexadecimal digits, most significant first. -/
def hexNumber? (cs : List Char) : Option Nat :=
  cs.foldl (fun acc c => do return 16 * (← acc) + (← hexDigit? c)) (some 0)

/-- Exactly four hexadecimal digits. -/
def takeUnit? : List Char → Option (Nat × List Char)
  | a :: b :: c :: d :: r => (hexNumber? [a, b, c, d]).map (·, r)
  | _ => none

/-- The character of an escape letter. -/
def escapeOf? (c : Char) : Option Char :=
  if c = '"' || c = '\\' || c = '/' then some c
  else if c = 'n' then some '\n'
  else if c = 't' then some '\t'
  else if c = 'r' then some '\r'
  else if c = 'b' then some (Char.ofNat 8)
  else if c = 'f' then some (Char.ofNat 12)
  else none

/-- The rest of a text up to its closing mark. -/
def readText : Nat → List Char → List Char → Option (String × List Char)
  | 0, _, _ => none
  | fuel + 1, acc, cs =>
    match cs with
    | [] => none
    | '"' :: r => some (String.ofList acc.reverse, r)
    | '\\' :: 'u' :: r => do
      let (hi, r) ← takeUnit? r
      if 0xD800 ≤ hi ∧ hi < 0xDC00 then
        match r with
        | '\\' :: 'u' :: r' => do
          let (lo, r') ← takeUnit? r'
          readText fuel (Char.ofNat (0x10000 + (hi - 0xD800) * 1024 + (lo - 0xDC00)) :: acc) r'
        | _ => readText fuel (Char.ofNat hi :: acc) r
      else readText fuel (Char.ofNat hi :: acc) r
    | '\\' :: c :: r => do
      let c ← escapeOf? c
      readText fuel (c :: acc) r
    | c :: r => readText fuel (c :: acc) r

/-- A character that can stand in a numeral. -/
def isNumeralChar (c : Char) : Bool :=
  c.isDigit || c = '-' || c = '+' || c = '.' || c = 'e' || c = 'E'

/-- The number a numeral denotes. -/
def numeral? (cs : List Char) : Option Value :=
  let (neg, digits) := match cs with
    | '-' :: r => (true, r)
    | r => (false, r)
  if digits.isEmpty then none
  else if digits.all Char.isDigit then
    some (.int (Decimal.signed neg (Decimal.ofDigits digits)))
  else (Binary64.ofText? cs).map .float

/-- A word and what it stands for. -/
def word? (cs : List Char) : Option (Value × List Char) :=
  match cs with
  | 'n' :: 'u' :: 'l' :: 'l' :: r => some (.null, r)
  | 't' :: 'r' :: 'u' :: 'e' :: r => some (.bool true, r)
  | 'f' :: 'a' :: 'l' :: 's' :: 'e' :: r => some (.bool false, r)
  | cs =>
    let digits := cs.takeWhile isNumeralChar
    (numeral? digits).map (·, cs.dropWhile isNumeralChar)

mutual

/-- Read one value. -/
def readValue : Nat → List Char → Option (Value × List Char)
  | 0, _ => none
  | fuel + 1, cs =>
    match skipSpace cs with
    | '"' :: r => do
      let (s, r) ← readText r.length.succ [] r
      return (.text s, r)
    | '[' :: r =>
      match skipSpace r with
      | ']' :: r => some (.list [], r)
      | r => do
        let (xs, r) ← readItems fuel r
        return (.list xs, r)
    | '\x7b' :: r =>
      match skipSpace r with
      | '\x7d' :: r => some (.dict [], r)
      | r => do
        let (es, r) ← readEntries fuel r
        return (.dict es, r)
    | r => word? r

/-- Read the items of a list up to its closing bracket. -/
def readItems : Nat → List Char → Option (List Value × List Char)
  | 0, _ => none
  | fuel + 1, cs => do
    let (v, r) ← readValue fuel cs
    match skipSpace r with
    | ']' :: r => return ([v], r)
    | ',' :: r => do
      let (vs, r) ← readItems fuel r
      return (v :: vs, r)
    | _ => none

/-- Read the entries of an object up to its closing brace. -/
def readEntries : Nat → List Char → Option (List (Value × Value) × List Char)
  | 0, _ => none
  | fuel + 1, cs =>
    match skipSpace cs with
    | '"' :: r => do
      let (k, r) ← readText r.length.succ [] r
      let ':' :: r := skipSpace r | none
      let (v, r) ← readValue fuel r
      match skipSpace r with
      | '\x7d' :: r => return ([(.text k, v)], r)
      | ',' :: r => do
        let (es, r) ← readEntries fuel r
        return ((.text k, v) :: es, r)
      | _ => none
    | _ => none

end

/-- **The value a JSON text denotes.** -/
def read? (s : String) : Option Value :=
  let cs := s.toList
  match readValue (2 * cs.length + 2) cs with
  | some (v, r) => if (skipSpace r).isEmpty then some v else none
  | none => none

end Schemata.Json
