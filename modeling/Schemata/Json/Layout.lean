import Schemata.Value.Digits
import Schemata.Text.Quoted

/-!
# Writing documents

A document is written as JSON in ASCII: one entry a line, each level two columns
deeper, empty collections on one line, every other character by its UTF-16 code.
The special doubles are written `NaN`, `Infinity` and `-Infinity`.

Not every value can be written.  `Json.write` fails at the first one, in document
order, that is neither null, a truth value, a number, a text, a sequence nor a
mapping, at the first key that is none of the simple ones, and at the first whole
number that is too long to be written out.
-/

namespace Schemata.Json

/-- One UTF-16 unit as an escape. -/
def unitEscape (n : Nat) : List Char :=
  '\\' :: 'u' :: Text.hexText 4 n

/-- One character of a written text. -/
def escapeChar (c : Char) : List Char :=
  let n := c.toNat
  if c = '"' then ['\\', '"']
  else if c = '\\' then ['\\', '\\']
  else if c = '\n' then ['\\', 'n']
  else if c = '\r' then ['\\', 'r']
  else if c = '\t' then ['\\', 't']
  else if n = 8 then ['\\', 'b']
  else if n = 12 then ['\\', 'f']
  else if 32 ≤ n ∧ n ≤ 126 then [c]
  else if n < 0x10000 then unitEscape n
  else
    let m := n - 0x10000
    unitEscape (0xD800 + m / 1024) ++ unitEscape (0xDC00 + m % 1024)

/-- A text between quotation marks. -/
def writeText (s : String) : String :=
  String.ofList ('"' :: (s.toList.flatMap escapeChar ++ ['"']))

/-- A double. -/
def writeDouble : Binary64 → String
  | .nan => "NaN"
  | .infinite neg => Decimal.signText neg ++ "Infinity"
  | x => x.text

/-- A truth value. -/
def writeBool (b : Bool) : String :=
  if b then "true" else "false"

/-- A whole number, unless it is too long to be written out. -/
def writeInt (n : Int) : Except Fault String :=
  if (Value.int n).isSpelled then .ok (toString n) else .error .tooManyDigits

/-- A key; simple values other than texts are written as the text of their JSON. -/
def writeKey (k : Value) : Except Fault String :=
  match k.core with
  | .text s => .ok (writeText s)
  | .float x => .ok (writeText (writeDouble x))
  | .bool b => .ok (writeText (writeBool b))
  | .null => .ok (writeText "null")
  | .int n => return writeText (← writeInt n)
  | _ => .error (.unwritableKey k.kindName)

/-- A line break with the columns of a level. -/
def lineBreak (level : Nat) : String :=
  String.ofList ('\n' :: List.replicate (2 * level) ' ')

/-- Parts on lines of their own between brackets. -/
def bracketed (level : Nat) (opening closing : String) : List String → String
  | [] => opening ++ closing
  | parts =>
    opening ++ lineBreak (level + 1) ++ ("," ++ lineBreak (level + 1)).intercalate parts ++
      lineBreak level ++ closing

mutual

/-- **A document, or a part of one at a given level.** -/
def write : Value → Nat → Except Fault String
  | .null, _ => .ok "null"
  | .bool b, _ => .ok (writeBool b)
  | .int n, _ => writeInt n
  | .float x, _ => .ok (writeDouble x)
  | .text s, _ => .ok (writeText s)
  | .list xs, level => do return bracketed level "[" "]" (← writeItems xs (level + 1))
  | .tuple xs, level => do return bracketed level "[" "]" (← writeItems xs (level + 1))
  | .dict es, level => do return bracketed level "\x7b" "\x7d" (← writeEntries es (level + 1))
  | .member label name v, level =>
    if label.mixed then write v level
    else .error (.notJson (Value.member label name v).kindName)
  | .object label (some v) attributes, level =>
    if label.form == .plain then
      match write v level with
      | .error (.notJson _) => .error (.notJson label.className)
      | r => r
    else .error (.notJson (Value.object label (some v) attributes).kindName)
  | v, _ => .error (.notJson v.kindName)
termination_by structural v => v

/-- The parts of a sequence. -/
def writeItems : List Value → Nat → Except Fault (List String)
  | [], _ => .ok []
  | x :: xs, level => do return (← write x level) :: (← writeItems xs level)
termination_by structural xs => xs

/-- The parts of a mapping. -/
def writeEntries : List (Value × Value) → Nat → Except Fault (List String)
  | [], _ => .ok []
  | (k, v) :: es, level => do
    let key ← writeKey k
    return (key ++ ": " ++ (← write v level)) :: (← writeEntries es level)
termination_by structural es => es

end

/-- A whole document. -/
def document (v : Value) : Except Fault String :=
  write v 0

end Schemata.Json
