import Schemata.Value.Basic
import Schemata.Text.Quoted

/-!
# How values are shown

Two spellings of a value.  `Value.spelled` is the one that shows what kind of
value it is: text in quotation marks, a decimal with its constructor, a list in
brackets.  Messages and the names of types made of values use it.
`Value.display` is the plain one: a text is itself, a date is its ISO text, a
member of an enumeration is its qualified name.

An object without a description of its own is shown by its class alone.
-/

namespace Schemata

/-- Joined by commas with a blank. -/
def commaList (xs : List String) : String :=
  ", ".intercalate xs

namespace Temporal

/-- A span of time as the parts it is built from, given what builds it. -/
def durationParts (maker : String) (d : Duration) : String :=
  let (days, seconds, micros) := d.parts
  let part (n : Int) (name : String) : List String :=
    if n = 0 then [] else [name ++ "=" ++ toString n]
  let shown := part days "days" ++ part seconds "seconds" ++ part micros "microseconds"
  maker ++ "(" ++ (if shown.isEmpty then "0" else commaList shown) ++ ")"

/-- A distance from universal time as an argument; nothing where it is unknown. -/
def zoneArgument : Option Int → String
  | none => ""
  | some o =>
    ", tzinfo=" ++
      (if o = 0 then "datetime.timezone.utc"
       else "datetime.timezone(" ++ durationParts "datetime.timedelta" ⟨o⟩ ++ ")")

/-- A date as it is built from its parts. -/
def dateParts (maker : String) (d : Date) : String :=
  maker ++ "(" ++ commaList ([d.year, d.month, d.day].map toString) ++ ")"

/-- Seconds and microseconds as far as they are needed. -/
def neededParts (t : Clock) : List Nat :=
  if t.micro ≠ 0 then [t.second, t.micro] else if t.second ≠ 0 then [t.second] else []

/-- A time as it is built from its parts. -/
def clockParts (maker : String) (t : Clock) : String :=
  maker ++ "(" ++ commaList (([t.hour, t.minute] ++ neededParts t).map toString) ++
    zoneArgument t.offset ++ ")"

/-- A moment as it is built from its parts. -/
def momentParts (maker : String) (m : Moment) : String :=
  let t := m.clock
  let parts := [m.date.year, m.date.month, m.date.day, t.hour, t.minute] ++ neededParts t
  maker ++ "(" ++ commaList (parts.map toString) ++ zoneArgument t.offset ++ ")"

end Temporal

namespace Value

/-- A sequence in parentheses, with a comma after a single element. -/
def tupleText : List String → String
  | [x] => "(" ++ x ++ ",)"
  | xs => "(" ++ commaList xs ++ ")"

/-- Elements in braces. -/
def bracedText (xs : List String) : String := "\x7b" ++ commaList xs ++ "\x7d"

/-- A set as it is built from its elements. -/
def builtSetText (maker : String) (xs : List String) : String :=
  maker ++ "(" ++ (if xs.isEmpty then "" else bracedText xs) ++ ")"

/-- A set in braces; the empty one, and one that cannot change, by what builds it. -/
def setText (frozen : Bool) (xs : List String) : String :=
  if frozen then builtSetText "frozenset" xs
  else if xs.isEmpty then builtSetText "set" xs
  else bracedText xs

/-- The spelling of a value without elements that is built from its parts, given what
builds it; nothing for the values that are spelled without that. -/
def builtText? (maker : String) : Value → Option String
  | .bytes true bs => some (maker ++ "(" ++ Text.quotedBytes bs ++ ")")
  | .date d => some (Temporal.dateParts maker d)
  | .moment m => some (Temporal.momentParts maker m)
  | .clock t => some (Temporal.clockParts maker t)
  | .duration d => some (Temporal.durationParts maker d)
  | .uuid n => some (maker ++ "(" ++ Text.quoted (uuidText n) ++ ")")
  | _ => none

mutual

/-- **The spelling that shows the kind of value.** -/
def spelled : Value → String
  | .null => "None"
  | .bool b => if b then "True" else "False"
  | .int n => toString n
  | .float x => x.text
  | .decimal d => "Decimal(" ++ Text.quoted d.text ++ ")"
  | .text s => Text.quoted s
  | .bytes mutable bs =>
    if mutable then "bytearray(" ++ Text.quotedBytes bs ++ ")" else Text.quotedBytes bs
  | .date d => Temporal.dateParts "datetime.date" d
  | .moment m => Temporal.momentParts "datetime.datetime" m
  | .clock t => Temporal.clockParts "datetime.time" t
  | .duration d => Temporal.durationParts "datetime.timedelta" d
  | .uuid n => "UUID(" ++ Text.quoted (uuidText n) ++ ")"
  | .list xs => "[" ++ commaList (spelledList xs) ++ "]"
  | .tuple xs => tupleText (spelledList xs)
  | .set frozen xs => setText frozen (spelledList xs)
  | .dict es => "\x7b" ++ commaList (spelledEntries es) ++ "\x7d"
  | .member label name v => "<" ++ label.name ++ "." ++ name ++ ": " ++ spelled v ++ ">"
  | .object label (some (.set _ xs)) attributes =>
    if label.form == .plain then builtSetText label.className (spelledList xs)
    else label.className ++ "(" ++ commaList (spelledFields attributes) ++ ")"
  | .object label (some v) attributes =>
    if label.form == .plain then (builtText? label.className v).getD (spelled v)
    else label.className ++ "(" ++ commaList (spelledFields attributes) ++ ")"
  | .object label none attributes =>
    if label.form == .plain then "<" ++ label.qualifiedName ++ " object>"
    else label.className ++ "(" ++ commaList (spelledFields attributes) ++ ")"

/-- The spellings of some values. -/
def spelledList : List Value → List String
  | [] => []
  | x :: xs => spelled x :: spelledList xs

/-- The spellings of entries, key and value with a colon between them. -/
def spelledEntries : List (Value × Value) → List String
  | [] => []
  | (k, v) :: es => (spelled k ++ ": " ++ spelled v) :: spelledEntries es

/-- The spellings of fields, name and value with an equals sign between them. -/
def spelledFields : List (String × Value) → List String
  | [] => []
  | (n, v) :: fs => (n ++ "=" ++ spelled v) :: spelledFields fs

end

/-- **The plain spelling.** -/
def display : Value → String
  | .text s => s
  | .decimal d => d.text
  | .date d => d.isoText
  | .moment m => m.spacedText
  | .clock t => t.isoText
  | .duration d => d.clockText
  | .uuid n => uuidText n
  | .member label name v =>
    if label.shownByValue then display v else label.name ++ "." ++ name
  | .object label (some v) attributes =>
    match label.spoken with
    | some s => s
    | none =>
      match label.form, v with
      | .plain, .set .. | .plain, .bytes true _ => spelled (.object label (some v) attributes)
      | .plain, v => display v
      | _, v => spelled (.object label (some v) attributes)
  | .object label none attributes =>
    match label.spoken, label.form with
    | some s, _ => s
    | none, .model _ => " ".intercalate (spelledFields attributes)
    | none, _ => spelled (.object label none attributes)
  | v => spelled v

/-- A kind on its own: what sort of kind it is, and its name. -/
def kindMark (sort name : String) : String := "<" ++ sort ++ " '" ++ name ++ "'>"

/-- The sort of kind that an enumeration is. -/
def enumerationSort (ofBits : Bool) : String := if ofBits then "flag" else "enum"

/-- The kind of a value on its own. -/
def kindText : Value → String
  | .member label _ _ => kindMark (enumerationSort label.bits.isSome) label.name
  | .object label _ _ => kindMark "class" label.qualifiedName
  | v => kindMark "class" v.kindPath

end Value

end Schemata
