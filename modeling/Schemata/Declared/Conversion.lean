import Schemata.Declared.Builtin
import Schemata.Value.Whole

/-!
# What builtin types make of arguments

A builtin type can be called like a function: a text shows what it is given, a number
reads what is written, a date is put together from its parts, a collection walks through
its argument.  `Builtin.make` is that function for every type that has one, and it says
what is wrong with arguments that do not fit.

Two sorts of declaration go through it: a class that extends a builtin type, and an
enumeration that mixes one in.
-/

namespace Schemata

/-- A number of things, in the singular or the plural. -/
def countedText (n : Nat) (thing : String) : String :=
  toString n ++ " " ++ thing ++ (if n = 1 then "" else "s")

/-- Something is of the wrong kind. -/
def wrongKind {α : Type} (message : String) : Except Fault α := .error (.unfit .kind message)

/-- Something is out of range. -/
def outOfRange {α : Type} (message : String) : Except Fault α := .error (.unfit .range message)

namespace Value

/-- Everything a value can be walked through for: the characters of a text, the numbers of
bytes, the keys of a mapping, the elements of a collection. -/
def walk (v : Value) : Except Fault (List Value) :=
  match v.elements? with
  | some xs => .ok xs
  | none =>
    match v.core with
    | .text s => .ok (s.toList.map fun c => .text (String.ofList [c]))
    | .bytes _ bs => .ok (bs.map fun b => .int b.toNat)
    | .dict es => .ok (es.map (·.1))
    | _ => .error (.notIterable v.kindPath)

/-- Set an entry of a mapping whose keys are any values: an equal key stays. -/
def setEntry (k v : Value) : List (Value × Value) → List (Value × Value)
  | [] => [(k, v)]
  | (k', v') :: es =>
    if identical k k' || k'.same k then (k', v) :: es else (k', v') :: setEntry k v es

/-- Elements without those that match an earlier one. -/
def distinctElements (xs : List Value) : List Value :=
  xs.foldl (fun acc x => if (x.isAmong acc).toOption = some true then acc else acc ++ [x]) []

/-- A whole number where nothing else will do. -/
def index (v : Value) : Except Fault Int :=
  match v.integer? with
  | some n => .ok n
  | none => wrongKind ("'" ++ v.kindPath ++ "' object cannot be interpreted as an integer")

/-- A whole number of machine size. -/
def smallIndex (v : Value) : Except Fault Int := do
  let n ← v.index
  if n < -9223372036854775808 ∨ 9223372036854775807 < n then
    .error (.unfit .magnitude "Python int too large to convert to C long")
  else if 2147483647 < n then
    .error (.unfit .magnitude "signed integer is greater than maximum")
  else if n < -2147483648 then
    .error (.unfit .magnitude "signed integer is less than minimum")
  else return n

end Value

namespace Builtin

/-! ## Numbers of arguments -/

/-- At most one argument, of a type that counts its arguments itself. -/
def atMostOne (name : String) (args : List Value) : Except Fault (Option Value) :=
  match args with
  | [] => .ok none
  | [v] => .ok (some v)
  | _ => wrongKind (name ++ " expected at most 1 argument, got " ++ toString args.length)

/-- No more arguments than a function takes. -/
def atMost (function : String) (most : Nat) (noun : String) (args : List Value) :
    Except Fault Unit :=
  if most < args.length then
    wrongKind (function ++ " takes at most " ++ countedText most noun ++ " (" ++
      toString args.length ++ " given)")
  else .ok ()

/-! ## Texts and bytes -/

/-- A name of the encoding that is understood. -/
def isUtf8 (s : String) : Bool :=
  ["utf-8", "utf8", "utf_8"].contains (String.ofList (s.toList.map Char.toLower))

/-- The text of a named argument. -/
def textArgument (function name : String) (v : Value) : Except Fault String :=
  match v.text? with
  | some s => .ok s
  | none =>
    let given := if v matches .null then "None" else v.kindPath
    wrongKind (function ++ "() argument '" ++ name ++ "' must be str, not " ++ given)

/-- An encoding has no known name. -/
def unknownEncoding {α : Type} (name : String) : Except Fault α :=
  .error (.unfit .lookup ("unknown encoding: " ++ name))

/-- The encoding that arguments name, and whether it is known.  What they say about errors has
to be a text as well. -/
def encodingOf (function : String) (encoding : Value) (errors : Option Value) :
    Except Fault (String × Bool) := do
  let name ← textArgument function "encoding" encoding
  if let some v := errors then
    let _ ← textArgument function "errors" v
  return (name, isUtf8 name)

/-- A text: what a value is shown as, or bytes decoded. -/
def makeText (args : List Value) : Except Fault Value :=
  match args with
  | [] => .ok (.text "")
  | [v] => .ok (.text v.display)
  | v :: encoding :: rest => do
    atMost "str()" 3 "argument" (v :: encoding :: rest)
    let (name, known) ← encodingOf "str" encoding rest.head?
    match v.core with
    | .bytes _ bs =>
      if bs.isEmpty then return .text ""
      if !known then unknownEncoding name
      match Text.decodeUtf8 bs with
      | .ok s => return .text s
      | .error f => .error (.undecodableFile f)
    | .text _ => wrongKind "decoding str is not supported"
    | _ => wrongKind ("decoding to str: need a bytes-like object, " ++ v.kindPath ++ " found")

/-- A byte. -/
def byteOf (mutable : Bool) (v : Value) : Except Fault UInt8 := do
  let n ← v.index
  if 0 ≤ n ∧ n < 256 then return UInt8.ofNat n.toNat
  else outOfRange ((if mutable then "byte" else "bytes") ++ " must be in range(0, 256)")

/-- Bytes: given, counted, collected or encoded. -/
def makeBytes (mutable : Bool) (args : List Value) : Except Fault Value := do
  let name := if mutable then "bytearray" else "bytes"
  atMost (name ++ "()") 3 "argument" args
  match args with
  | [] => return .bytes mutable []
  | [v] =>
    match v.core with
    | .text _ => wrongKind "string argument without an encoding"
    | .bytes _ bs => return .bytes mutable bs
    | _ =>
      match v.integer?, v.walk with
      | some n, _ =>
        if n < 0 then outOfRange "negative count"
        else return .bytes mutable (List.replicate n.toNat 0)
      | none, .ok xs => return .bytes mutable (← xs.mapM (byteOf mutable))
      | none, .error _ =>
        wrongKind ("cannot convert '" ++ v.kindPath ++ "' object to " ++ name)
  | v :: encoding :: rest =>
    let (encodingName, known) ← encodingOf name encoding rest.head?
    match v.text? with
    | some s =>
      if !known then unknownEncoding encodingName
      return .bytes mutable s.toUTF8.toList
    | none => wrongKind "encoding without a string argument"

/-! ## Numbers -/

/-- An integer, perhaps written in a base. -/
def makeInteger (args : List Value) : Except Fault Value := do
  atMost "int()" 2 "argument" args
  match args with
  | [] => return .int 0
  | [v] => return .int (← v.whole)
  | v :: base :: _ => return .int (← v.wholeInBase (← base.index))

/-- Underscores stand between digits only. -/
def underscoresFit : List Char → Bool
  | [] => true
  | ['_'] => false
  | c :: '_' :: d :: r => c.isDigit && d.isDigit && underscoresFit (d :: r)
  | '_' :: _ => false
  | _ :: r => underscoresFit r

/-- The double a numeral denotes. -/
def doubleOfText? (cs : List Char) : Option Binary64 :=
  let cs := Text.numeralBody cs
  if !underscoresFit cs then none
  else match Decimal.ofText? (cs.filter (· != '_')) with
    | some (.nan negative false payload) =>
      if cs.any Char.isDigit then none
      else some (.ofDecimal (.nan negative false payload))
    | some (.nan ..) => none
    | some d => some (.ofDecimal d)
    | none => none

/-- A double. -/
def makeDouble (args : List Value) : Except Fault Value := do
  match ← atMostOne "float" args with
  | none => return .float .zero
  | some v =>
    match v.core with
    | .float x => return .float x
    | .decimal (.nan _ true _) => outOfRange "cannot convert signaling NaN to float"
    | .decimal d => return .float (.ofDecimal d)
    | .text _ | .bytes .. =>
      match v.numeralChars?.bind doubleOfText? with
      | some x => return .float x
      | none => outOfRange ("could not convert string to float: " ++ v.spelled)
    | _ =>
      match v.integer? with
      | none =>
        wrongKind ("float() argument must be a string or a real number, not '" ++ v.kindPath ++
          "'")
      | some n =>
        match Binary64.ofDecimal (.ofInt n) with
        | .infinite _ => .error (.unfit .magnitude "int too large to convert to float")
        | x => return .float x

/-- What follows the digits of a decimal: an exponent, or the mark of a value that is no
finite number. -/
def decimalOfDigits (negative : Bool) (last : Value) : Except Fault (Nat → Decimal) :=
  match last.integer?, last.text? with
  | some e, _ => .ok fun c => .finite negative c e
  | none, some "F" => .ok fun _ => .infinite negative
  | none, some "n" => .ok fun c => .nan negative false c
  | none, some "N" => .ok fun c => .nan negative true c
  | none, some _ => outOfRange "string argument in the third position must be 'F', 'n' or 'N'"
  | none, none => outOfRange "exponent must be an integer"

/-- A decimal from its sign, its digits and its exponent. -/
def decimalOfParts (parts : List Value) : Except Fault Value :=
  match parts with
  | [sign, digits, last] => do
    let negative ← match sign.integer? with
      | some 0 => pure false
      | some 1 => pure true
      | _ => outOfRange "sign must be an integer with the value 0 or 1"
    let make ← decimalOfDigits negative last
    let digit? (v : Value) : Option Nat :=
      v.integer?.bind fun n => if 0 ≤ n ∧ n < 10 then some n.toNat else none
    match digits.core with
    | .list ds | .tuple ds =>
      match ds.mapM digit? with
      | none => outOfRange "coefficient must be a tuple of digits"
      | some ds => return .decimal (make (ds.foldl (fun n d => n * 10 + d) 0))
    | _ => outOfRange "coefficient must be a tuple of digits"
  | _ => outOfRange "argument must be a sequence of length 3"

/-- A decimal. -/
def makeDecimal (args : List Value) : Except Fault Value := do
  atMost "function" 2 "argument" args
  if let [_, context] := args then
    if !(context matches .null) then wrongKind "optional argument must be a context"
  match args with
  | [] => return .decimal (.ofInt 0)
  | v :: _ =>
    match v.core with
    | .decimal d => return .decimal d
    | .float x => return .decimal x.toShortDecimal
    | .text s =>
      let cs := (Text.trim s.toList).filter (· != '_')
      match Decimal.ofText? (Text.foldDigits cs) with
      | some d => return .decimal d
      | none => .error (.unfit .arithmetic "[<class 'decimal.ConversionSyntax'>]")
    | .list parts | .tuple parts => decimalOfParts parts
    | _ =>
      match v.integer? with
      | some n => return .decimal (.ofInt n)
      | none => wrongKind ("conversion from " ++ v.kindPath ++ " to Decimal is not supported")

/-! ## Dates and times -/

/-- The parts of a date: year, month and day are all needed. -/
def dateParts : List (String × Nat) → List Value → Except Fault (List Int)
  | [], _ => .ok []
  | (name, place) :: _, [] =>
    wrongKind ("function missing required argument '" ++ name ++ "' (pos " ++ toString place ++
      ")")
  | _ :: ns, v :: vs => do return (← v.smallIndex) :: (← dateParts ns vs)

/-- The parts of a time, zero where they are not given. -/
def clockParts (vs : List Value) : Except Fault (List Int) := do
  let given ← (vs.take 4).mapM Value.smallIndex
  match vs[4]? with
  | none | some .null => return given ++ List.replicate (4 - given.length) 0
  | some zone =>
    wrongKind ("tzinfo argument must be None or of a tzinfo subclass, not type '" ++
      zone.kindPath ++ "'")

/-- A number between bounds. -/
def inBounds (n least greatest : Int) (name : String) : Except Fault Nat :=
  if least ≤ n ∧ n ≤ greatest then .ok n.toNat
  else outOfRange (name ++ " must be in " ++ toString least ++ ".." ++ toString greatest)

/-- A date of the calendar. -/
def dateOf (parts : List Int) : Except Fault Date :=
  match parts with
  | [year, month, day] => do
    if year < 1 ∨ 9999 < year then outOfRange ("year " ++ toString year ++ " is out of range")
    let m ← inBounds month 1 12 "month"
    if day < 1 ∨ (Date.daysIn year.toNat m : Int) < day then
      outOfRange "day is out of range for month"
    return ⟨year.toNat, m, day.toNat⟩
  | _ => outOfRange "day is out of range for month"

/-- A time of day. -/
def clockOf (parts : List Int) : Except Fault Clock :=
  match parts with
  | [hour, minute, second, micro] => do
    return ⟨← inBounds hour 0 23 "hour", ← inBounds minute 0 59 "minute",
      ← inBounds second 0 59 "second", ← inBounds micro 0 999999 "microsecond", none⟩
  | _ => .ok .midnight

/-- The arguments that a date needs, with their places. -/
def dateNames : List (String × Nat) := [("year", 1), ("month", 2), ("day", 3)]

/-- A date. -/
def makeDate (args : List Value) : Except Fault Value := do
  atMost "function" 3 "argument" args
  return .date (← dateOf (← dateParts dateNames args))

/-- A date with a time of day. -/
def makeMoment (args : List Value) : Except Fault Value := do
  atMost "function" 9 "argument" args
  atMost "function" 8 "positional argument" args
  let date ← dateParts dateNames args
  let clock ← clockParts (args.drop 3)
  return .moment ⟨← dateOf date, ← clockOf clock⟩

/-- A time of day. -/
def makeClock (args : List Value) : Except Fault Value := do
  atMost "function" 6 "argument" args
  atMost "function" 5 "positional argument" args
  return .clock (← clockOf (← clockParts args))

/-- The parts of a span with their lengths in microseconds, in the order in which they are
added up, and the place of each among the arguments. -/
def spanUnits : List (Nat × String × Nat) :=
  [(2, "microseconds", 1), (3, "milliseconds", 1000), (1, "seconds", 1000000),
   (4, "minutes", 60000000), (5, "hours", 3600000000), (0, "days", 86400000000),
   (6, "weeks", 604800000000)]

/-- A part of a span, in microseconds: whole ones, and the rest of a fraction as a
numerator and a denominator. -/
def spanPart (unit : String × Nat) (v : Value) : Except Fault (Int × Nat) :=
  match v.integer?, v.core with
  | some n, _ => .ok (n * unit.2, 1)
  | none, .float x =>
    match x with
    | .finite .. =>
      match x.toDecimal with
      | .finite negative c e =>
        let scaled := Decimal.signed negative (c * unit.2 * Nat.pow 10 e.toNat)
        .ok (scaled, Nat.pow 10 (-e).toNat)
      | _ => .ok (0, 1)
    | .infinite _ => .error (.infiniteInteger true)
    | .nan => .error (.undefinedInteger true)
  | none, _ =>
    wrongKind ("unsupported type for timedelta " ++ unit.1 ++ " component: " ++ v.kindPath)

/-- A fraction rounded to the nearest whole number, a half to the even one. -/
def roundedQuotient (numerator : Int) (denominator : Nat) : Int :=
  let q := numerator.fdiv denominator
  let r := numerator.fmod denominator
  if 2 * r < denominator then q
  else if (denominator : Int) < 2 * r then q + 1
  else if q % 2 = 0 then q else q + 1

/-- A span of time. -/
def makeDuration (args : List Value) : Except Fault Value := do
  atMost "__new__()" 7 "argument" args
  let given := spanUnits.filterMap fun u => (args[u.1]?).map fun v => (u.2, v)
  let parts ← given.mapM fun e => spanPart e.1 e.2
  let total : Int × Nat := parts.foldl (fun (acc : Int × Nat) (p : Int × Nat) =>
    (acc.1 * p.2 + p.1 * acc.2, acc.2 * p.2)) (0, 1)
  let span : Duration := ⟨roundedQuotient total.1 total.2⟩
  let days := span.parts.1
  if days < -2147483648 ∨ 2147483647 < days then
    .error (.unfit .magnitude "Python int too large to convert to C int")
  else if 999999999 < days.natAbs then
    .error (.unfit .magnitude
      ("days=" ++ toString days ++ "; must have magnitude <= 999999999"))
  else return .duration span

/-! ## Identifiers and collections -/

/-- A text without every occurrence of another. -/
def without (unwanted : List Char) (cs : List Char) : List Char :=
  String.toList (((String.ofList cs).splitOn (String.ofList unwanted)).foldl (· ++ ·) "")

/-- The value of hexadecimal digits. -/
def hexValue? (cs : List Char) : Option Nat :=
  cs.foldlM
    (fun n c => (Text.baseDigit? c).bind fun d => if d < 16 then some (n * 16 + d) else none)
    0

/-- An identifier from its digits. -/
def makeUuid (args : List Value) : Except Fault Value :=
  match args, (args.take 5).filterMap Value.nonNull? with
  | v :: _, [_] =>
    match v.text? with
    | none => .error (.unfit .absence ("'" ++ v.kindPath ++ "' object has no attribute 'replace'"))
    | some s =>
      let cs := without "uuid:".toList (without "urn:".toList s.toList)
      let isBrace (c : Char) : Bool := c = '\x7b' || c = '\x7d'
      let cs := ((cs.dropWhile isBrace).reverse.dropWhile isBrace).reverse
      let digits := cs.filter (· != '-')
      match decide (digits.length = 32), hexValue? digits with
      | true, some n => .ok (.uuid n)
      | true, none =>
        .error (.notInteger 16 (Text.quoted (String.ofList digits)))
      | false, _ => outOfRange "badly formed hexadecimal UUID string"
  | _, _ => wrongKind "one of the hex, bytes, bytes_le, fields, or int arguments must be given"

/-- What an optional argument is walked through for. -/
def walked (v : Option Value) : Except Fault (List Value) :=
  match v with
  | some v => v.walk
  | none => .ok []

/-- Elements that can all be keys, each once. -/
def elementSet (xs : List Value) : Except Fault (List Value) := do
  Value.checkKeys xs
  return Value.distinctElements xs

/-- The entries that pairs make. -/
def entriesOfPairs : Nat → List Value → Except Fault (List (Value × Value))
  | _, [] => .ok []
  | i, v :: vs => do
    match v.walk with
    | .ok [k, w] =>
      k.checkKey
      return (k, w) :: (← entriesOfPairs (i + 1) vs)
    | .ok xs =>
      outOfRange ("dictionary update sequence element #" ++ toString i ++ " has length " ++
        toString xs.length ++ "; 2 is required")
    | .error _ =>
      wrongKind ("cannot convert dictionary update sequence element #" ++ toString i ++
        " to a sequence")

/-- A mapping from another one, or from pairs. -/
def makeDict (v : Option Value) : Except Fault Value :=
  match v with
  | none => .ok (.dict [])
  | some v =>
    match v.entries? with
    | some es => .ok (.dict es)
    | none => do
      let es ← entriesOfPairs 0 (← v.walk)
      return .dict (es.foldl (fun acc e => Value.setEntry e.1 e.2 acc) [])

/-- **What a builtin type makes of arguments**, for a class that is derived from it.  Types
that make nothing of their own give no value. -/
def make (b : Builtin) (owner : String) (args : List Value) : Except Fault (Option Value) :=
  match b with
  | .text => do return some (← makeText args)
  | .truth => do return some (.bool ((← atMostOne "bool" args).any Value.truthy))
  | .integer => do return some (← makeInteger args)
  | .double => do return some (← makeDouble args)
  | .decimal => do return some (← makeDecimal args)
  | .bytes => do return some (← makeBytes false args)
  | .buffer => do return some (← makeBytes true args)
  | .date => do return some (← makeDate args)
  | .moment => do return some (← makeMoment args)
  | .clock => do return some (← makeClock args)
  | .duration => do return some (← makeDuration args)
  | .uuid => do return some (← makeUuid args)
  | .list => do return some (.list (← walked (← atMostOne "list" args)))
  | .tuple => do return some (.tuple (← walked (← atMostOne "tuple" args)))
  | .set => do return some (.set false (← elementSet (← walked (← atMostOne owner args))))
  | .frozenSet => do
    return some (.set true (← elementSet (← walked (← atMostOne owner args))))
  | .dict => do return some (← makeDict (← atMostOne "dict" args))
  | .orderedDict =>
    if 1 < args.length then
      wrongKind ("expected at most 1 arguments, got " ++ toString args.length)
    else do return some (← makeDict args.head?)
  | _ => .ok none

/-- Whether a value of the type is made first and filled afterwards, so that arguments that
do not fit are noticed only then. -/
def isFilledLater : Builtin → Bool
  | .list | .set | .dict | .buffer | .deque | .orderedDict => true
  | _ => false

end Builtin

end Schemata
