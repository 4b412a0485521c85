import Schemata.Temporal.Reader
import Schemata.Json.Reader

/-!
# TOML values without parts

Reading texts, numbers, dates and truth values of a TOML document.  Every reader
takes the rest of the document and gives what it read and what is left, or nothing
where the document is wrong.

Control characters are not allowed anywhere but the tab, and the line break where
a text runs over several lines.  Digits may have single underscores between them.
-/

namespace Schemata.Toml

/-- What is left of a document after something was read. -/
abbrev Rest := List Char

/-- A blank inside a line. -/
def isBlank (c : Char) : Bool := c = ' ' || c = '\t'

/-- The rest of a document without the blanks in front. -/
def skipBlanks (cs : Rest) : Rest := cs.dropWhile isBlank

/-- A character that may not stand in a text or a comment of one line. -/
def isIllegal (c : Char) : Bool :=
  c != '\t' && (c.toNat < 32 || c.toNat = 127)

/-- A character that may not stand in a text of several lines. -/
def isIllegalInLines (c : Char) : Bool :=
  c != '\n' && isIllegal c

/-- The rest after a given beginning. -/
def after? : List Char → Rest → Option Rest
  | [], cs => some cs
  | x :: xs, c :: cs => if x = c then after? xs cs else none
  | _ :: _, [] => none

/-- The rest without a comment in front, up to the end of the line. -/
def skipComment? : Rest → Option Rest
  | '#' :: cs =>
    if (cs.takeWhile (· != '\n')).any isIllegal then none else some (cs.dropWhile (· != '\n'))
  | cs => some cs

/-! ## Texts -/

/-- A character given by a number of hexadecimal digits. -/
def readCode? (digits : Nat) (cs : Rest) : Option (Char × Rest) := do
  let ds := cs.take digits
  if ds.length ≠ digits then none
  else
    let n ← Json.hexNumber? ds
    if n.isValidChar then some (Char.ofNat n, cs.drop digits) else none

/-- The rest after a backslash at the end of a line: blanks and line breaks are
skipped. -/
def skipLineEnd? (cs : Rest) : Option Rest :=
  match skipBlanks cs with
  | [] => some []
  | '\n' :: r => some (r.dropWhile fun c => isBlank c || c = '\n')
  | _ => none

/-- What an escape stands for, after its backslash. -/
def readEscape? (lines : Bool) : Rest → Option (List Char × Rest)
  | 'u' :: cs => (readCode? 4 cs).map fun r => ([r.1], r.2)
  | 'U' :: cs => (readCode? 8 cs).map fun r => ([r.1], r.2)
  | c :: cs =>
    if lines && (isBlank c || c = '\n') then (skipLineEnd? (c :: cs)).map fun r => ([], r)
    else if c = 'b' then some ([Char.ofNat 8], cs)
    else if c = 't' then some (['\t'], cs)
    else if c = 'n' then some (['\n'], cs)
    else if c = 'f' then some ([Char.ofNat 12], cs)
    else if c = 'r' then some (['\r'], cs)
    else if c = '"' || c = '\\' then some ([c], cs)
    else none
  | [] => none

/-- The rest of a text between double marks; `lines` where it runs over several lines
and ends with three marks. -/
def readBasic? (lines : Bool) : Nat → List Char → Rest → Option (List Char × Rest)
  | 0, _, _ => none
  | fuel + 1, acc, cs =>
    match cs with
    | [] => none
    | '\\' :: r =>
      match readEscape? lines r with
      | some (xs, r) => readBasic? lines fuel (xs.reverse ++ acc) r
      | none => none
    | '"' :: r =>
      if !lines then some (acc.reverse, r)
      else match after? ['"', '"'] r with
        | some r => some (acc.reverse, r)
        | none => readBasic? lines fuel ('"' :: acc) r
    | c :: r =>
      if (if lines then isIllegalInLines c else isIllegal c) then none
      else readBasic? lines fuel (c :: acc) r

/-- The rest of a text between single marks. -/
def readLiteral? (cs : Rest) : Option (List Char × Rest) :=
  let text := cs.takeWhile (· != '\x27')
  match cs.dropWhile (· != '\x27') with
  | _ :: r => if text.any isIllegal then none else some (text, r)
  | [] => none

/-- The rest of a text of several lines between three single marks. -/
def readLiteralLines? : List Char → Rest → Option (List Char × Rest)
  | acc, '\x27' :: '\x27' :: '\x27' :: r => some (acc.reverse, r)
  | acc, c :: r => if isIllegalInLines c then none else readLiteralLines? (c :: acc) r
  | _, [] => none

/-- Up to two marks directly after the end of a text of several lines belong to it. -/
def takeMarks (mark : Char) (text : List Char) (cs : Rest) : List Char × Rest :=
  match cs with
  | a :: b :: r =>
    if a = mark ∧ b = mark then (text ++ [mark, mark], r)
    else if a = mark then (text ++ [mark], b :: r)
    else (text, cs)
  | [a] => if a = mark then (text ++ [mark], []) else (text, cs)
  | [] => (text, cs)

/-- The rest of a text of several lines without the line break it starts with. -/
def dropFirstBreak : Rest → Rest
  | '\n' :: r => r
  | r => r

/-- A text in any of its four forms. -/
def readText? : Rest → Option (String × Rest)
  | '"' :: '"' :: '"' :: r => do
    let (text, r) ← readBasic? true (r.length + 1) [] (dropFirstBreak r)
    let (text, r) := takeMarks '"' text r
    return (String.ofList text, r)
  | '\x27' :: '\x27' :: '\x27' :: r => do
    let (text, r) ← readLiteralLines? [] (dropFirstBreak r)
    let (text, r) := takeMarks '\x27' text r
    return (String.ofList text, r)
  | '"' :: r => (readBasic? false (r.length + 1) [] r).map fun x => (String.ofList x.1, x.2)
  | '\x27' :: r => (readLiteral? r).map fun x => (String.ofList x.1, x.2)
  | _ => none

/-! ## Numbers -/

/-- Digits with single underscores between them, in front of the rest. -/
def takeDigits (isDigit : Char → Bool) : Nat → Rest → List Char × Rest
  | 0, cs => ([], cs)
  | fuel + 1, cs =>
    match cs with
    | c :: r =>
      if isDigit c then
        match r with
        | '_' :: d :: r' =>
          if isDigit d then
            let (ds, rest) := takeDigits isDigit fuel (d :: r')
            (c :: ds, rest)
          else ([c], r)
        | r =>
          let (ds, rest) := takeDigits isDigit fuel r
          (c :: ds, rest)
      else ([], cs)
    | [] => ([], [])

/-- All the digits in front of the rest. -/
def digits (isDigit : Char → Bool) (cs : Rest) : List Char × Rest :=
  takeDigits isDigit (cs.length + 1) cs

/-- A digit of a base up to sixteen. -/
def isDigitOf (base : Nat) (c : Char) : Bool :=
  match Json.hexDigit? c with
  | some d => d < base
  | none => false

/-- The number some digits denote in a base. -/
def numberOf (base : Nat) (ds : List Char) : Nat :=
  ds.foldl (fun n c => base * n + (Json.hexDigit? c).getD 0) 0

/-- An integer in another base than ten. -/
def readBased? (base : Nat) (cs : Rest) : Option (Value × Rest) :=
  match digits (isDigitOf base) cs with
  | ([], _) => none
  | (ds, r) => some (.int (numberOf base ds), r)

/-- The whole part of a number: no zero in front of other digits. -/
def readWhole? : Rest → Option (List Char × Rest)
  | '0' :: r => some (['0'], r)
  | cs =>
    match digits Char.isDigit cs with
    | ([], _) => none
    | r => some r

/-- A fraction, if there is one. -/
def readFraction : Rest → List Char × Rest
  | '.' :: cs =>
    match digits Char.isDigit cs with
    | ([], _) => ([], '.' :: cs)
    | (ds, r) => ('.' :: ds, r)
  | cs => ([], cs)

/-- A sign in front of the rest. -/
def readSign : Rest → List Char × Rest
  | '-' :: r => (['-'], r)
  | '+' :: r => (['+'], r)
  | r => ([], r)

/-- An exponent, if there is one. -/
def readExponent : Rest → List Char × Rest
  | c :: cs =>
    if c = 'e' || c = 'E' then
      let (sign, r) := readSign cs
      match digits Char.isDigit r with
      | ([], _) => ([], c :: cs)
      | (ds, r) => ('e' :: (sign ++ ds), r)
    else ([], c :: cs)
  | [] => ([], [])

/-- A decimal number, whole or not. -/
def readDecimal? (cs : Rest) : Option (Value × Rest) := do
  let (sign, r) := readSign cs
  let (whole, r) ← readWhole? r
  let (fraction, r) := readFraction r
  let (exponent, r) := readExponent r
  if fraction.isEmpty && exponent.isEmpty then
    return (.int (Decimal.signed (sign == ['-']) (Decimal.ofDigits whole)), r)
  else
    let x ← Binary64.ofText? (sign ++ whole ++ fraction ++ exponent)
    return (.float x, r)

/-- One of the doubles that have a word. -/
def readSpecial? (cs : Rest) : Option (Value × Rest) :=
  let (sign, r) := readSign cs
  match r with
  | 'i' :: 'n' :: 'f' :: r => some (.float (.infinite (sign == ['-'])), r)
  | 'n' :: 'a' :: 'n' :: r => some (.float .nan, r)
  | _ => none

/-- A number in any of its forms. -/
def readNumber? : Rest → Option (Value × Rest)
  | '0' :: 'x' :: r => (readBased? 16 r) <|> (readDecimal? ('0' :: 'x' :: r))
  | '0' :: 'b' :: r => (readBased? 2 r) <|> (readDecimal? ('0' :: 'b' :: r))
  | '0' :: 'o' :: r => (readBased? 8 r) <|> (readDecimal? ('0' :: 'o' :: r))
  | cs => (readDecimal? cs) <|> (readSpecial? cs)

/-! ## Dates and times -/

/-- A number of two digits within bounds. -/
def readPart? (least greatest : Nat) (cs : Rest) : Option (Nat × Rest) := do
  let (n, r) ← takeNumber? 2 cs
  if least ≤ n ∧ n ≤ greatest then some (n, r) else none

/-- The year, month and day in front of the rest, whether or not there is such a day. -/
def readDay? (cs : Rest) : Option (Nat × Nat × Nat × Rest) := do
  let (year, r) ← takeNumber? 4 cs
  let r ← after? ['-'] r
  let (month, r) ← readPart? 1 12 r
  let r ← after? ['-'] r
  let (day, r) ← readPart? 1 31 r
  return (year, month, day, r)

/-- A time of day in front of the rest. -/
def readClock? (cs : Rest) : Option (Clock × Rest) := do
  let (hour, r) ← readPart? 0 23 cs
  let r ← after? [':'] r
  let (minute, r) ← readPart? 0 59 r
  let r ← after? [':'] r
  let (second, r) ← readPart? 0 59 r
  match r with
  | '.' :: f =>
    let ds := f.takeWhile Char.isDigit
    if ds.isEmpty then return (⟨hour, minute, second, 0, none⟩, r)
    else
      return (⟨hour, minute, second, Clock.microsOf ds, none⟩, f.dropWhile Char.isDigit)
  | r => return (⟨hour, minute, second, 0, none⟩, r)

/-- A distance from universal time in front of the rest, in microseconds. -/
def readOffset? : Rest → Option (Int × Rest)
  | [] => none
  | c :: r =>
    if c = 'Z' || c = 'z' then some (0, r)
    else if c = '+' || c = '-' then do
      let (hours, r) ← readPart? 0 23 r
      let r ← after? [':'] r
      let (minutes, r) ← readPart? 0 59 r
      return (Decimal.signed (c = '-') ((hours * 60 + minutes) * 60000000), r)
    else none

/-- A date, with a time of day or without.  A day that does not exist makes the whole
document wrong, which is the outer `none`; the inner one says that this is no date. -/
def readDate? (cs : Rest) : Option (Option (Value × Rest)) :=
  match readDay? cs with
  | none => some none
  | some (year, month, day, r) =>
    if year = 0 ∨ Date.daysIn year month < day then none
    else
      let date : Date := ⟨year, month, day⟩
      let moment : Option (Value × Rest) :=
        match r with
        | c :: r =>
          if c = 'T' || c = 't' || c = ' ' then
            (readClock? r).map fun x =>
              match readOffset? x.2 with
              | some (o, r) => (.moment ⟨date, { x.1 with offset := some o }⟩, r)
              | none => (.moment ⟨date, x.1⟩, x.2)
          else none
        | [] => none
      some (some (moment.getD (.date date, r)))

end Schemata.Toml
