import Schemata.Text.Quoted
import Schemata.Value.Basic

/-!
# What plain values are made of

Numbers, dates, times, spans of time and identifiers have parts that can be asked for by
name: a date has a year, a complex number that happens to be real has an imaginary part of
zero.  `Value.part?` gives them.  Kinds that have a least and a greatest value, and a least
step between two of them, have these for parts as well.

What is computed from a value by calling something is no part of it.
-/

namespace Schemata

namespace Date

/-- The last day of the calendar. -/
def last : Date := ⟨9999, 12, 31⟩

/-- A part of a date. -/
def part? (d : Date) (name : String) : Option Nat :=
  match name with
  | "year" => some d.year
  | "month" => some d.month
  | "day" => some d.day
  | _ => none

end Date

namespace Clock

/-- The last time of a day. -/
def last : Clock := ⟨23, 59, 59, 999999, none⟩

/-- A part of a time of day.  A time that a clock shows twice is taken for the first. -/
def part? (t : Clock) (name : String) : Option Nat :=
  match name with
  | "hour" => some t.hour
  | "minute" => some t.minute
  | "second" => some t.second
  | "microsecond" => some t.micro
  | "fold" => some 0
  | _ => none

/-- How a distance from universal time describes itself. -/
def zoneText (offset : Int) : String :=
  if offset = 0 then "UTC" else "UTC" ++ offsetText offset

end Clock

namespace Duration

/-- The longest span that goes back. -/
def least : Duration := ofParts (-999999999) 0 0

/-- The longest span. -/
def greatest : Duration := ofParts 999999999 86399 999999

/-- A part of a span. -/
def part? (d : Duration) (name : String) : Option Int :=
  match name with
  | "days" => some d.parts.1
  | "seconds" => some d.parts.2.1
  | "microseconds" => some d.parts.2.2
  | _ => none

end Duration

namespace Value

/-- The bits of an identifier from a place on, up to a number of them. -/
def uuidBits (n place width : Nat) : Nat := n / Nat.pow 2 place % Nat.pow 2 width

/-- The bytes of an identifier, the most significant first. -/
def uuidBytes (n : Nat) : List UInt8 :=
  (List.range 16).map fun i => UInt8.ofNat (uuidBits n (8 * (15 - i)) 8)

/-- The words about the layout of an identifier. -/
def uuidVariant (n : Nat) : String :=
  let bits := uuidBits n 61 3
  if bits < 4 then "reserved for NCS compatibility"
  else if bits < 6 then "specified in RFC 4122"
  else if bits = 6 then "reserved for Microsoft compatibility"
  else "reserved for future definition"

/-- The fields of an identifier by name, the longest run of bits first. -/
def uuidFields (n : Nat) : List (String × Nat) :=
  [("time_low", uuidBits n 96 32), ("time_mid", uuidBits n 80 16),
   ("time_hi_version", uuidBits n 64 16), ("clock_seq_hi_variant", uuidBits n 56 8),
   ("clock_seq_low", uuidBits n 48 8), ("node", uuidBits n 0 48)]

/-- Whether the making of an identifier was safe, which is not known of one that is written
out. -/
def uuidSafety : Value :=
  .member { ident := "uuid.SafeUUID", name := "SafeUUID", mixed := false, shownByValue := false }
    "unknown" .null

/-- A part of an identifier. -/
def uuidPart? (n : Nat) (name : String) : Option Value :=
  match name with
  | "int" => some (.int n)
  | "hex" => some (.text (String.ofList (Text.hexText 32 n)))
  | "urn" => some (.text ("urn:uuid:" ++ uuidText n))
  | "bytes" => some (.bytes false (uuidBytes n))
  | "bytes_le" =>
    let bs := uuidBytes n
    let piece (i k : Nat) : List UInt8 := ((bs.drop i).take k).reverse
    some (.bytes false (piece 0 4 ++ piece 4 2 ++ piece 6 2 ++ bs.drop 8))
  | "fields" => some (.tuple ((uuidFields n).map fun f => .int f.2))
  | "time" =>
    let high := uuidBits n 64 12 * Nat.pow 2 48 + uuidBits n 80 16 * Nat.pow 2 32
    some (.int (high + uuidBits n 96 32 : Nat))
  | "clock_seq" => some (.int (uuidBits n 48 14))
  | "variant" => some (.text (uuidVariant n))
  | "version" => some (if uuidBits n 62 2 = 2 then .int (uuidBits n 76 4) else .null)
  | "is_safe" => some uuidSafety
  | name => ((uuidFields n).find? fun f => f.1 == name).map fun f => .int f.2

/-- A distance from universal time as a value, which is known by how it describes itself. -/
def zone (offset : Int) : Value :=
  .object
    { className := "timezone", qualifiedName := "datetime.timezone", form := .plain, serial := 0
      spoken := some (Clock.zoneText offset), failing := [] }
    none []

/-- A part of a whole number. -/
def wholePart? (n : Int) (name : String) : Option Value :=
  match name with
  | "real" | "numerator" => some (.int n)
  | "imag" => some (.int 0)
  | "denominator" => some (.int 1)
  | _ => none

/-- The least and the greatest value of a kind, and the least step. -/
def rangePart? (least greatest : Value) (step : Duration) (name : String) : Option Value :=
  match name with
  | "min" => some least
  | "max" => some greatest
  | "resolution" => some (.duration step)
  | _ => none

/-- The distance of a time from universal time, as a part of it. -/
def zonePart? (t : Clock) (name : String) : Option Value :=
  if name = "tzinfo" then some (ofOption (t.offset.map zone)) else none

/-- A part that is a number. -/
def numberPart (part : Option Nat) : Option Value := part.map fun n => .int n

/-- **A part of a plain value.** -/
def part? (v : Value) (name : String) : Option Value :=
  match v with
  | .bool b => wholePart? (if b then 1 else 0) name
  | .int n => wholePart? n name
  | .float x =>
    if name = "real" then some (.float x) else if name = "imag" then some (.float .zero) else none
  | .decimal d =>
    if name = "real" then some (.decimal d)
    else if name = "imag" then some (.decimal (.ofInt 0)) else none
  | .date d =>
    numberPart (d.part? name) <|> rangePart? (.date .first) (.date .last) (.ofParts 1 0 0) name
  | .moment m =>
    numberPart (m.date.part? name) <|> numberPart (m.clock.part? name) <|>
      zonePart? m.clock name <|>
      rangePart? (.moment .first) (.moment ⟨.last, .last⟩) (.ofParts 0 0 1) name
  | .clock t =>
    numberPart (t.part? name) <|> zonePart? t name <|>
      rangePart? (.clock .midnight) (.clock .last) (.ofParts 0 0 1) name
  | .duration d =>
    (d.part? name).map .int <|>
      rangePart? (.duration .least) (.duration .greatest) (.ofParts 0 0 1) name
  | .uuid n => uuidPart? n name
  | _ => none

end Value

end Schemata
