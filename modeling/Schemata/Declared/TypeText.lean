import Schemata.Declared.TypeExpr

/-!
# Types written out in a text

A text in the place of a type is a type that is written out, to be looked up later: names,
types applied to arguments in brackets, unions with bars, and further texts in quotation
marks.  `TypeExpr.ofText?` reads one; it gives nothing for a text that is no expression.

A text is first cut into lexemes, which are then put together.  Reading consumes at least
one lexeme at every step, so that their number bounds the nesting.
-/

namespace Schemata

namespace TypeText

/-- A piece of a written type. -/
inductive Lexeme where
  | name (s : String)
  | quoted (s : String)
  | number (n : Nat)
  | dots
  /-- A bracket, a parenthesis, a comma, a bar or a dot. -/
  | mark (c : Char)
  deriving DecidableEq, Repr, Inhabited

/-- A character that a name may start with. -/
def startsName (c : Char) : Bool := c.isAlpha || c = '_' || 128 ≤ c.toNat

/-- A character that a name may go on with. -/
def continuesName (c : Char) : Bool := startsName c || c.isDigit

/-- A mark of its own. -/
def isMark (c : Char) : Bool := "[](),|".toList.contains c

/-- The lexemes of a text, at most as many as it has characters. -/
def lexemesWithin : Nat → List Char → Option (List Lexeme)
  | _, [] => some []
  | 0, _ => none
  | n + 1, c :: cs =>
    if c = ' ' || c = '\t' then lexemesWithin n cs
    else if isMark c then (lexemesWithin n cs).map (.mark c :: ·)
    else if startsName c then
      let rest := cs.dropWhile continuesName
      (lexemesWithin n rest).map (.name (String.ofList (c :: cs.takeWhile continuesName)) :: ·)
    else if c.isDigit then
      let rest := cs.dropWhile Char.isDigit
      (lexemesWithin n rest).map (.number (Decimal.ofDigits (c :: cs.takeWhile Char.isDigit)) :: ·)
    else if c = '\'' || c = '"' then
      match cs.dropWhile (· != c) with
      | [] => none
      | _ :: rest =>
        (lexemesWithin n rest).map (.quoted (String.ofList (cs.takeWhile (· != c))) :: ·)
    else match c, cs with
      | '.', '.' :: '.' :: rest => (lexemesWithin n rest).map (.dots :: ·)
      | '.', rest => (lexemesWithin n rest).map (.mark '.' :: ·)
      | _, _ => none

/-- The words that are no names. -/
def reserved : List String :=
  ["and", "as", "assert", "async", "await", "break", "class", "continue", "def", "del", "elif",
   "else", "except", "finally", "for", "from", "global", "if", "import", "in", "is", "lambda",
   "nonlocal", "not", "or", "pass", "raise", "return", "try", "while", "with", "yield"]

/-- What a name stands for by itself. -/
def ofName? (s : String) : Option TypeExpr :=
  match s with
  | "None" => some (.token .none)
  | "True" => some (.token (.value (.bool true)))
  | "False" => some (.token (.value (.bool false)))
  | s => if reserved.contains s then none else some (.name s)

/-- The parts of a type that follow it with dots in between. -/
def parts (t : TypeExpr) : List Lexeme → TypeExpr × List Lexeme
  | .mark '.' :: .name s :: ls => parts (.part t s) ls
  | ls => (t, ls)

mutual

/-- Types with bars between them. -/
def union : Nat → List Lexeme → Option (TypeExpr × List Lexeme)
  | 0, _ => none
  | n + 1, ls => do
    let (t, ls) ← single n ls
    let (ts, ls) ← alternatives n ls
    return (if ts.isEmpty then t else .pipe (t :: ts), ls)

/-- The further types of a union. -/
def alternatives : Nat → List Lexeme → Option (List TypeExpr × List Lexeme)
  | 0, _ => none
  | n + 1, ls =>
    match ls with
    | .mark '|' :: ls => do
      let (t, ls) ← single n ls
      let (ts, ls) ← alternatives n ls
      return (t :: ts, ls)
    | ls => some ([], ls)

/-- A type without bars. -/
def single : Nat → List Lexeme → Option (TypeExpr × List Lexeme)
  | 0, _ => none
  | n + 1, ls =>
    match ls with
    | .name s :: .mark '[' :: ls => do
      let (args, ls) ← arguments n ls
      return parts (.apply s args) ls
    | .name s :: ls => (ofName? s).map fun t => parts t ls
    | .quoted s :: ls => some (.token (.value (.text s)), ls)
    | .number k :: ls => some (.token (.value (.int k)), ls)
    | .dots :: ls => some (.ellipsis, ls)
    | .mark '(' :: ls => do
      match ← union n ls with
      | (t, .mark ')' :: ls) => some (t, ls)
      | _ => none
    | _ => none

/-- The arguments before a closing bracket. -/
def arguments : Nat → List Lexeme → Option (List TypeExpr × List Lexeme)
  | 0, _ => none
  | n + 1, ls => do
    match ← union n ls with
    | (t, .mark ']' :: ls) => some ([t], ls)
    | (t, .mark ',' :: .mark ']' :: ls) => some ([t], ls)
    | (t, .mark ',' :: ls) => do
      let (ts, ls) ← arguments n ls
      return (t :: ts, ls)
    | _ => none

end

end TypeText

/-- **The type that a text writes out.**  Blanks in front of it are not allowed. -/
def TypeExpr.ofText? (s : String) : Option TypeExpr := do
  if s.startsWith " " || s.startsWith "\t" then none
  let ls ← TypeText.lexemesWithin s.length s.toList
  match ← TypeText.union (4 * ls.length + 4) ls with
  | (t, []) => some t
  | _ => none

end Schemata
