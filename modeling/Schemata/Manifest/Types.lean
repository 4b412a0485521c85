import Schemata.Manifest.Annotations
import Schemata.Declared.Evaluation

/-!
# Types in JSON

A type is written as a name, or as an object whose keys say how it is made.  Some
types are descriptors made on the spot; each of them is a new one, added to the
program.
-/

namespace Schemata.Intake

/-- Add a descriptor made by hand, and give the token for it. -/
def craft (d : Descriptor) : Reader Token := fun i =>
  let p := i.program
  .ok (.crafted p.crafted.length)
    { i with program := { p with crafted := p.crafted ++ [d] } }

/-- The token an expression stands for outside any class. -/
def evaluated (e : TypeExpr) : Reader Token := do
  let i ← get
  match i.program.eval i.lookup e with
  | .ok t => return t
  | .error (.undefinedName name) => malformed ("type " ++ name)
  | .error f => throw f

/-- A descriptor around another type. -/
def wrapper? (p : Program) (maker : String) (inner : Token) (unique : Bool) : Option Descriptor :=
  let name := p.makerName inner
  match maker with
  | "nullable" => some { name := name ++ "?", shape := .nullable, inner := inner }
  | "array_of" =>
    some { name := name ++ "[]", shape := .array, inner := inner, uniqueItems := unique }
  | "map_of" => some { name := "Map[" ++ name ++ "]", shape := .map, inner := inner }
  | _ => none

/-- A kind by its word. -/
def kindOf (word : String) : Reader Kind :=
  match Kind.ofWord? word with
  | some k => return k
  | none => throw (.unknownKind (Text.quoted word))

/-- Read a type no deeper than a given nesting. -/
def typeWithin : Nat → Value → Reader TypeExpr
  | 0, _ => malformed "type"
  | n + 1, v => do
    match v with
    | .text s => return if s = "..." then .ellipsis else .name s
    | v =>
      if let some g := v.words? "g" then
        return .apply g (← (v.items "args").mapM (typeWithin n))
      else if let some t := v.field? "optional" then
        return .optional (← typeWithin n t)
      else if (v.present? "union").isSome then
        return .union (← (v.items "union").mapM (typeWithin n))
      else if (v.present? "pipe").isSome then
        return .pipe (← (v.items "pipe").mapM (typeWithin n))
      else if (v.present? "literal").isSome then
        return .literal (← valuesAt v "literal")
      else if (v.present? "annotated").isSome then
        match v.items "annotated" with
        | t :: ms => return .annotated (← typeWithin n t) (← ms.mapM metadata)
        | [] => malformed "type"
      else if let some t := v.field? "classvar" then
        return .classVar (← typeWithin n t)
      else if let some t := v.field? "initvar" then
        return .initVar (← typeWithin n t)
      else if let some name := v.words? "typevar" then
        return .token (.typeVar name)
      else if let some w := v.present? "token" then
        match ← value w with
        | .null => return .token .none
        | w => return .token (.value w)
      else if let some maker := v.words? "mk" then
        if maker = "primitive" then
          let kind ← kindOf (← require "kind" (v.words? "kind"))
          let name := match v.words? "name" with
            | some s => if s.isEmpty then kind.word else s
            | none => kind.word
          return .token (← craft { name := name, shape := .primitive, kind := some kind })
        else
          let inner ← evaluated (← typeWithin n ((v.field? "of").getD (.text "none")))
          let d := wrapper? (← get).program maker inner (v.flag "unique")
          return .token (← craft (← require "type" d))
      else malformed "type"

/-- Read a type as written. -/
def typeExpr (v : Value) : Reader TypeExpr := typeWithin v.height v

/-- **Read a type** outside any class. -/
def token (v : Value) : Reader Token := do
  evaluated (← typeExpr v)

end Schemata.Intake
