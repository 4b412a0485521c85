import Schemata.Toml.Scalar
import Schemata.Value.Literal

/-!
# TOML documents

`Toml.document?` reads a document as one table, or nothing where it is wrong.

What makes documents delicate is that a table can be written in several places, but
not in any: a table with a heading of its own has no second one, a table opened by a
dotted key is closed with the section it stands in, and arrays and tables written as
values are finished once they are written.  `Marks` keeps these facts beside the
table that grows.
-/

namespace Schemata.Toml

/-- A key with its dots: the way to an entry. -/
abbrev Path := List String

/-- What is known about a place in a document. -/
inductive Mark where
  /-- It has been written out, and nothing inside may change. -/
  | frozen
  /-- It has a heading, and gets no other. -/
  | headed
  deriving DecidableEq, Repr

/-- The marks of a document. -/
abbrev Marks := List (Path × Mark)

namespace Marks

/-- Whether a place is marked.  A frozen place freezes what is inside. -/
def has (ms : Marks) (path : Path) (mark : Mark) : Bool :=
  ms.any fun m => m.2 == mark &&
    (m.1 == path || (mark == .frozen && !m.1.isEmpty && m.1.isPrefixOf path))

/-- Forget a place and everything inside. -/
def forget (ms : Marks) (path : Path) : Marks :=
  ms.filter fun m => !path.isPrefixOf m.1

end Marks

/-- The entries of a table. -/
abbrev Table := List (String × Value)

/-- The entries of a value that is a table. -/
def tableOf? : Value → Option Table
  | .dict es => es.mapM fun e => e.1.text?.map fun k => (k, e.2)
  | _ => none

/-- Change the table at the end of a path; tables on the way are made where there are
none.  Where `lists` is set, a list of tables stands for its last one. -/
def changeAt? (lists : Bool) (f : Table → Option Table) : Path → Table → Option Table
  | [], t => f t
  | k :: path, t => do
    match (getKey? k t).getD (.dict []) with
    | .list vs =>
      if !lists then none
      else
        let inner ← vs.getLast?.bind tableOf?
        let inner ← changeAt? lists f path inner
        return setKey k (.list (vs.dropLast ++ [.ofFields inner])) t
    | v =>
      let inner ← changeAt? lists f path (← tableOf? v)
      return setKey k (.ofFields inner) t

/-- Add an entry that is not there yet. -/
def insertNew? (k : String) (v : Value) (t : Table) : Option Table :=
  if (getKey? k t).isSome then none else some (t ++ [(k, v)])

/-- Add an empty table to the list of tables at a key. -/
def addTable? (k : String) (t : Table) : Option Table :=
  match getKey? k t with
  | none => some (t ++ [(k, .list [.dict []])])
  | some (.list vs) => some (setKey k (.list (vs ++ [.dict []])) t)
  | some _ => none

/-! ## Keys -/

/-- A character of a key without marks. -/
def isKeyChar (c : Char) : Bool :=
  c.isAlphanum || c = '-' || c = '_'

/-- One part of a key. -/
def readKeyPart? (cs : Rest) : Option (String × Rest) :=
  match cs with
  | [] => none
  | c :: _ =>
    if isKeyChar c then some (String.ofList (cs.takeWhile isKeyChar), cs.dropWhile isKeyChar)
    else if c = '"' then
      (readBasic? false (cs.length + 1) [] cs.tail).map fun x => (String.ofList x.1, x.2)
    else if c = '\x27' then (readLiteral? cs.tail).map fun x => (String.ofList x.1, x.2)
    else none

/-- The parts of a key with dots between them. -/
def readKeyParts? : Nat → Rest → Option (Path × Rest)
  | 0, _ => none
  | fuel + 1, cs => do
    let (k, r) ← readKeyPart? cs
    match skipBlanks r with
    | '.' :: r =>
      let (ks, r) ← readKeyParts? fuel (skipBlanks r)
      return (k :: ks, r)
    | r => return ([k], r)

/-- A key. -/
def readKey? (cs : Rest) : Option (Path × Rest) :=
  readKeyParts? (cs.length + 1) cs

/-! ## Values -/

/-- The rest of an array without blanks, line breaks and comments in front. -/
def skipLines? : Nat → Rest → Option Rest
  | 0, cs => some cs
  | fuel + 1, cs =>
    match cs.dropWhile fun c => isBlank c || c = '\n' with
    | '#' :: r => (skipComment? ('#' :: r)).bind (skipLines? fuel)
    | r => some r

/-- Blanks, line breaks and comments, as many as there are. -/
def skipFiller? (cs : Rest) : Option Rest := skipLines? (cs.length + 1) cs

/-- Whether a value has parts. -/
def isWritten : Value → Bool
  | .dict _ => true
  | .list _ => true
  | _ => false

/-- A value without parts. -/
def readScalar? (cs : Rest) : Option (Value × Rest) :=
  match cs with
  | 't' :: 'r' :: 'u' :: 'e' :: r => some (.bool true, r)
  | 'f' :: 'a' :: 'l' :: 's' :: 'e' :: r => some (.bool false, r)
  | cs =>
    match readText? cs with
    | some (s, r) => some (.text s, r)
    | none =>
      if cs.head? == some '"' || cs.head? == some '\x27' then none
      else match readDate? cs with
        | none => none
        | some (some x) => some x
        | some none =>
          match readClock? cs with
          | some (t, r) => some (.clock t, r)
          | none => readNumber? cs

mutual

/-- A value. -/
def readValue? : Nat → Rest → Option (Value × Rest)
  | 0, _ => none
  | fuel + 1, cs =>
    match cs with
    | '[' :: r => do
      match ← skipFiller? r with
      | ']' :: r => return (.list [], r)
      | r =>
        let (vs, r) ← readItems? fuel r
        return (.list vs, r)
    | '\x7b' :: r =>
      match skipBlanks r with
      | '\x7d' :: r => some (.dict [], r)
      | r => (readEntries? fuel [] [] r).map fun x => (.ofFields x.1, x.2)
    | cs => readScalar? cs

/-- The items of an array up to its closing bracket. -/
def readItems? : Nat → Rest → Option (List Value × Rest)
  | 0, _ => none
  | fuel + 1, cs => do
    let (v, r) ← readValue? fuel cs
    match ← skipFiller? r with
    | ']' :: r => return ([v], r)
    | ',' :: r =>
      match ← skipFiller? r with
      | ']' :: r => return ([v], r)
      | r =>
        let (vs, r) ← readItems? fuel r
        return (v :: vs, r)
    | _ => none

/-- A key and its value. -/
def readPair? : Nat → Rest → Option (Path × Value × Rest)
  | 0, _ => none
  | fuel + 1, cs => do
    let (path, r) ← readKey? cs
    let r ← after? ['='] r
    let (v, r) ← readValue? fuel (skipBlanks r)
    return (path, v, r)

/-- The entries of a table written as a value, up to its closing brace. -/
def readEntries? : Nat → Marks → Table → Rest → Option (Table × Rest)
  | 0, _, _, _ => none
  | fuel + 1, marks, t, cs => do
    let (path, v, r) ← readPair? fuel cs
    if marks.has path .frozen then none
    let t ← changeAt? false (insertNew? (path.getLast?.getD "") v) path.dropLast t
    match skipBlanks r with
    | '\x7d' :: r => return (t, r)
    | ',' :: r =>
      readEntries? fuel (if isWritten v then (path, .frozen) :: marks else marks) t (skipBlanks r)
    | _ => none

end

/-! ## Documents -/

/-- A document that has been read in part. -/
structure Draft where
  table : Table := []
  marks : Marks := []
  /-- Tables opened by dotted keys in this section. -/
  pending : List Path := []
  /-- The heading of this section. -/
  header : Path := []

namespace Draft

/-- Close what the section has opened. -/
def closeSection (d : Draft) : Draft :=
  { d with marks := d.pending.map (fun p => (p, .headed)) ++ d.marks, pending := [] }

/-- A table with a heading. -/
def openTable? (d : Draft) (path : Path) : Option Draft := do
  if d.marks.has path .headed || d.marks.has path .frozen then none
  let t ← changeAt? true some path d.table
  return { d with table := t, marks := (path, .headed) :: d.marks, header := path }

/-- The next table of a list, with a heading. -/
def openItem? (d : Draft) (path : Path) : Option Draft := do
  if d.marks.has path .frozen then none
  let t ← changeAt? true (addTable? (path.getLast?.getD "")) path.dropLast d.table
  return { d with
    table := t
    marks := (path, .headed) :: d.marks.forget path
    header := path }

/-- An entry of the section. -/
def addPair? (d : Draft) (path : Path) (v : Value) : Option Draft := do
  let opened := (List.range path.length).filterMap fun i =>
    if i = 0 then none else some (d.header ++ path.take i)
  if opened.any fun p => d.marks.has p .headed then none
  let parent := d.header ++ path.dropLast
  if d.marks.has parent .frozen then none
  let t ← changeAt? true (insertNew? (path.getLast?.getD "") v) parent d.table
  let marks := if isWritten v then (d.header ++ path, Mark.frozen) :: d.marks else d.marks
  return { d with table := t, marks := marks, pending := d.pending ++ opened }

/-- One statement in front of the rest: a heading, an entry, or nothing. -/
def readStatement? (d : Draft) (cs : Rest) : Option (Draft × Rest) :=
  match cs with
  | '[' :: '[' :: r => do
    let (path, r) ← readKey? (skipBlanks r)
    let d ← d.closeSection.openItem? path
    return (d, skipBlanks (← after? [']', ']'] r))
  | '[' :: r => do
    let (path, r) ← readKey? (skipBlanks r)
    let d ← d.closeSection.openTable? path
    return (d, skipBlanks (← after? [']'] r))
  | '#' :: r => some (d, '#' :: r)
  | cs => do
    let (path, v, r) ← readPair? (2 * cs.length + 2) cs
    return (← d.addPair? path v, skipBlanks r)

/-- Every statement of the rest of a document. -/
def readAll? : Nat → Draft → Rest → Option Draft
  | 0, _, _ => none
  | fuel + 1, d, cs =>
    match skipBlanks cs with
    | [] => some d
    | '\n' :: r => readAll? fuel d r
    | r => do
      let (d, r) ← d.readStatement? r
      match ← skipComment? r with
      | [] => some d
      | '\n' :: r => readAll? fuel d r
      | _ => none

end Draft

/-- A document with every line break as one character. -/
def plainBreaks : List Char → List Char
  | '\r' :: '\n' :: r => '\n' :: plainBreaks r
  | c :: r => c :: plainBreaks r
  | [] => []

/-- **The table a document denotes.** -/
def document? (s : String) : Option Value :=
  let cs := plainBreaks s.toList
  (Draft.readAll? (cs.length + 1) {} cs).map fun d => .ofFields d.table

end Schemata.Toml
