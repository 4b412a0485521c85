import Schemata.Manifest.Intake
import Schemata.Temporal.Reader
import Schemata.Json.Reader

/-!
# Values in JSON

JSON has values of its own for null, truth values, texts, lists and mappings from
texts, and for integers of moderate size.  Every other value is written as an object
with a single key, its *tag*, which starts with `@`.

`Intake.value` reads values and `Value.tagged` writes them.  Members of enumerations
and new instances refer to declarations, so reading them looks at the program.
-/

namespace Schemata

/-- The largest integer, in magnitude, that is written as itself. -/
def largestPlain : Nat := 9007199254740992

namespace Value

/-- A value with a tag. -/
def withTag (tag : String) (payload : Value) : Value :=
  .dict [(.text tag, payload)]

/-- Bytes in hexadecimal. -/
def hexOfBytes (bs : List UInt8) : String :=
  String.ofList (bs.flatMap fun b => Text.hexText 2 b.toNat)

/-- A key that stands in a plain mapping: a text without the sign of a tag. -/
def isPlainKey : Value → Bool
  | .text s => !s.startsWith "@"
  | _ => false

mutual

/-- **A value in JSON.** -/
def tagged : Value → Value
  | .int n => if n.natAbs ≤ largestPlain then .int n else withTag "@int" (.text (toString n))
  | .float x => withTag "@float" (.text x.text)
  | .decimal d => withTag "@decimal" (.text d.text)
  | .bytes mutable bs =>
    withTag (if mutable then "@bytearray" else "@bytes") (.text (hexOfBytes bs))
  | .date d => withTag "@date" (.text d.isoText)
  | .moment m => withTag "@datetime" (.text m.isoText)
  | .clock t => withTag "@time" (.text t.isoText)
  | .duration d =>
    let (days, seconds, micros) := d.parts
    withTag "@timedelta" (.list [.int days, .int seconds, .int micros])
  | .uuid n => withTag "@uuid" (.text (uuidText n))
  | .list xs => .list (taggedAll xs)
  | .tuple xs => withTag "@tuple" (.list (taggedAll xs))
  | .set frozen xs => withTag (if frozen then "@frozenset" else "@set") (.list (taggedAll xs))
  | .dict es =>
    if es.all fun e => e.1.isPlainKey then .dict (taggedValues es)
    else withTag "@dict" (.list (taggedPairs es))
  | .member label name _ => withTag "@enum" (.list [.text label.name, .text name])
  | .object label _ _ => withTag "@object" (.text label.className)
  | v => v
termination_by structural v => v

/-- Some values in JSON. -/
def taggedAll : List Value → List Value
  | [] => []
  | x :: xs => tagged x :: taggedAll xs
termination_by structural xs => xs

/-- Entries with plain keys in JSON. -/
def taggedValues : List (Value × Value) → List (Value × Value)
  | [] => []
  | (k, v) :: es => (k, tagged v) :: taggedValues es
termination_by structural es => es

/-- Entries in JSON as pairs. -/
def taggedPairs : List (Value × Value) → List Value
  | [] => []
  | (k, v) :: es => .list [tagged k, tagged v] :: taggedPairs es
termination_by structural es => es

end

/-- Bytes written in hexadecimal. -/
def bytesOfHex? : List Char → Option (List UInt8)
  | a :: b :: r => do return UInt8.ofNat (← Json.hexNumber? [a, b]) :: (← bytesOfHex? r)
  | [] => some []
  | [_] => none

/-- A whole number written in decimal. -/
def intOfText? (s : String) : Option Int :=
  let (negative, ds) := match s.toList with
    | '-' :: ds => (true, ds)
    | ds => (false, ds)
  if ds.all Char.isDigit then some (Decimal.signed negative (Decimal.ofDigits ds)) else none

/-- A universally unique identifier. -/
def uuidOfText? (s : String) : Option Nat :=
  Json.hexNumber? (s.toList.filter (· != '-'))

/-- A whole number. -/
def whole? : Value → Option Int
  | .int n => some n
  | _ => none

/-- A value with a tag that holds no other values. -/
def ofScalarTag? (tag : String) (payload : Value) : Option Value :=
  match tag, payload with
  | "@float", .text s => (Binary64.ofText? s.toList).map .float
  | "@int", .text s => (intOfText? s).map .int
  | "@decimal", .text s => (Decimal.ofText? s.toList).map .decimal
  | "@bytes", .text s => (bytesOfHex? s.toList).map (.bytes false)
  | "@bytearray", .text s => (bytesOfHex? s.toList).map (.bytes true)
  | "@date", .text s => (Date.ofText? s).map .date
  | "@datetime", .text s => (Moment.ofText? s).map .moment
  | "@time", .text s => (Clock.ofText? s).map .clock
  | "@timedelta", .list [d, s, u] => do
    return .duration (.ofParts (← d.whole?) (← s.whole?) (← u.whole?))
  | "@uuid", .text s => (uuidOfText? s).map .uuid
  | _, _ => none

end Value

namespace JsonType

/-- A JSON type as a value: a member of an enumeration that mixes in its word. -/
def toValue (t : JsonType) : Value :=
  .member ⟨"JsonType", "JsonType", true, false, none⟩
    (String.ofList (t.word.toList.map Char.toUpper)) (.text t.word)

end JsonType

namespace Intake

/-- A member of a declared enumeration. -/
def memberOf (p : Program) (id name : String) : Option Value := do
  let c ← p.class? (← p.lookup id)
  match c.form with
  | .enumeration e => getKey? name e.members
  | _ => none

/-- One pair of a list of pairs. -/
def pairOf {α : Type} (read : Value → Reader α) (v : Value) : Reader (String × α) :=
  match v with
  | .list [.text k, v] => do return (k, ← read v)
  | _ => malformed "pair"

/-- Read a value no deeper than a given nesting. -/
def valueWithin : Nat → Value → Reader Value
  | 0, _ => malformed "value"
  | n + 1, v =>
    match v with
    | .list xs => do return .list (← xs.mapM (valueWithin n))
    | .dict [(.text tag, payload)] =>
      if !tag.startsWith "@" then do return .dict [(.text tag, ← valueWithin n payload)]
      else match Value.ofScalarTag? tag payload with
        | some v => return v
        | none => composite n tag payload
    | .dict es => do
      let es ← es.mapM fun e => do return (e.1, ← valueWithin n e.2)
      return .dict es
    | v => return v
where
  /-- A value with a tag that holds other values. -/
  composite (n : Nat) (tag : String) (payload : Value) : Reader Value :=
    match tag, payload with
    | "@tuple", .list xs => do return .tuple (← xs.mapM (valueWithin n))
    | "@set", .list xs => do return .set false (← xs.mapM (valueWithin n))
    | "@frozenset", .list xs => do return .set true (← xs.mapM (valueWithin n))
    | "@dict", .list ps => do
      let es ← ps.mapM fun p =>
        match p with
        | .list [k, v] => do return (← valueWithin n k, ← valueWithin n v)
        | _ => malformed "entry"
      return .dict (es.foldl (fun acc e => Value.setEntry e.1 e.2 acc) [])
    | "@enum", .list [.text id, .text name] => do
      require "member" (memberOf (← get).program id name)
    | "@new", .list (.text id :: rest) => do
      let args ← match rest with
        | .list xs :: _ => xs.mapM (valueWithin n)
        | _ => pure []
      let given ← match rest with
        | [_, .list ps] => ps.mapM (pairOf (valueWithin n))
        | _ => pure []
      let own ← require "class" ((← get).program.lookup id)
      let i ← serial
      lift ((← get).program.instantiate own args given i)
    | "@jsontype", .text w => do
      return (← require "JSON type" (JsonType.ofWord? w)).toValue
    | tag, _ => malformed tag

/-- **Read a value.** -/
def value (v : Value) : Reader Value := valueWithin v.height v

/-- Read a list of pairs of names and values. -/
def pairs (vs : List Value) : Reader (List (String × Value)) :=
  vs.mapM (pairOf value)

/-- Read the list of pairs at a key, empty if there is none. -/
def pairsAt (v : Value) (key : String) : Reader (List (String × Value)) := do
  return setKeys (← pairs (v.items key)) []

/-- Read the list of values at a key, empty if there is none. -/
def valuesAt (v : Value) (key : String) : Reader (List Value) :=
  (v.items key).mapM value

end Intake

end Schemata
