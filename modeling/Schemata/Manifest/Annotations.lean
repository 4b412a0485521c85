import Schemata.Manifest.Values
import Schemata.Declared.Signature
import Schemata.Annotation.Merge

/-!
# Annotations in JSON

A record is written with its name and arguments, or by the function that makes it,
or by the name of a ready-made one.  What is attached to a type may besides be a
bound, a length or the description of a field; anything else is carried as a note
and says nothing.
-/

namespace Schemata.Intake

/-! ## Records -/

/-- The functions that make a record of their arguments in order: the name of each, the
name of the record, and the parameters. -/
def recordMakers : List (String × String × List Parameter) :=
  let either (names : List String) : List Parameter := names.map fun n => ⟨n, false⟩
  [("value_range", "Range", either ["minimum", "maximum"]),
   ("length", "Length", either ["min_length", "max_length"]),
   ("count", "Count", either ["min_items", "max_items"]),
   ("pattern", "Pattern", [⟨"regex", true⟩]),
   ("example", "Example", [⟨"value", true⟩]),
   ("default", "Default", [⟨"value", true⟩]),
   ("description", "Description", [⟨"text", true⟩]),
   ("title", "Title", [⟨"text", true⟩]),
   ("extension", "Extension", [⟨"name", true⟩, ⟨"value", true⟩])]

/-- The record that a function makes of arguments; nothing where there is no such function. -/
def madeRecord? (function : String) (args : List Value) (named : List (String × Value)) :
    Except Fault (Option Record) := do
  let bare : Signature := { function := function, placed := [] }
  match function with
  | "prop" =>
    let _ ← bare.bind args []
    return some (.property named)
  | "required" =>
    let _ ← bare.bind [] named
    return some ⟨"Required", args, []⟩
  | "choices" =>
    let _ ← bare.bind [] named
    return some (.choices args)
  | _ =>
    match getKey? function recordMakers with
    | none => return none
    | some (name, parameters) =>
      return some ⟨name, ← { bare with placed := parameters }.arguments args named, []⟩

/-- **Read a record**; nothing for what is written in its place but is none. -/
def record? (v : Value) : Reader (Option Record) := do
  if (v.field? "junk").isSome then return none
  if let some c := v.words? "const" then
    return some (← require "record" (Record.readyMade? c))
  let args ← valuesAt v "args"
  let named ← pairsAt v "kwargs"
  if let some f := v.words? "fn" then
    return some (← require "record" (← lift (madeRecord? f args named)))
  return some ⟨← require "record" (v.words? "name"), args, named⟩

/-- Read some records, leaving out what is none. -/
def records (vs : List Value) : Reader (List Record) := do
  return (← vs.mapM record?).filterMap id

/-- Read a record that is one. -/
def record (v : Value) : Reader Record := do
  require "record" (← record? v)

/-! ## Bounds and lengths -/

/-- What makes a bound or a length; several bounds are given by name only. -/
def limitSignature (kind : String) (names : List String) (required : Bool) : Signature :=
  let parameters := names.map fun n => ⟨n, required⟩
  let byName := kind == "Interval"
  { function := kind ++ ".__init__"
    placed := if byName then [] else parameters
    named := if byName then parameters else []
    onObject := true }

/-- A bound or a length; nothing where there is no such kind. -/
def limit? (kind : String) (args : List Value) (named : List (String × Value)) :
    Except Fault (Option Limit) := do
  let one (name : String) (make : Value → Limit) : Except Fault (Option Limit) := do
    return ((← (limitSignature kind [name] true).arguments args named).head?).map make
  match kind with
  | "Ge" => one "ge" .atLeast
  | "Gt" => one "gt" .moreThan
  | "Le" => one "le" .atMost
  | "Lt" => one "lt" .lessThan
  | "MultipleOf" => one "multiple_of" .multipleOf
  | "MinLen" => one "min_length" .minLength
  | "MaxLen" => one "max_length" .maxLength
  | "Len" =>
    let given ← (limitSignature kind ["min_length", "max_length"] false).bind args named
    return some (.lengths ((getKey? "min_length" given).getD (.int 0))
      ((getKey? "max_length" given).getD .null))
  | "Interval" =>
    match ← (limitSignature kind ["gt", "ge", "lt", "le"] false).arguments args named with
    | [a, b, c, d] => return some (.interval a b c d)
    | _ => return none
  | _ => return none

/-! ## Descriptions of fields -/

/-- The bounds and lengths in the description of a field, in their fixed order. -/
def fieldLimits (named : List (String × Value)) : List Limit :=
  let given (key : String) (make : Value → Limit) : List Limit :=
    match (getKey? key named).bind Value.nonNull? with
    | some v => [make v]
    | none => []
  given "gt" .moreThan ++ given "ge" .atLeast ++ given "lt" .lessThan ++ given "le" .atMost ++
    given "multiple_of" .multipleOf ++ given "min_length" .minLength ++
    given "max_length" .maxLength

/-- The texts in the description of a field.  A field that goes by another name outside
is published under it, unless it has a name for that as well. -/
def fieldTexts (named : List (String × Value)) : FieldTexts :=
  let said (key : String) : Value := (getKey? key named).getD .null
  { title := said "title"
    description := said "description"
    samples := said "examples"
    deprecated := said "deprecated"
    otherName := said "alias"
    publishedName := ((said "serialization_alias").nonNull?).getD (said "alias")
    default := getKey? "default" named }

/-- Read the description of a field. -/
def fieldNote (pairs : List (String × Value)) : Reader FieldNote := do
  return {
    serial := ← serial, given := pairs, limits := fieldLimits pairs, texts := fieldTexts pairs }

/-- **Read what is attached to a type.** -/
def metadata (v : Value) : Reader Metadata := do
  if let some kind := v.words? "at" then
    let limit? ← lift (limit? kind (← valuesAt v "args") (← pairsAt v "kwargs"))
    return .limit (← require "limit" limit?)
  if (v.field? "field").isSome then
    return .field (← fieldNote (← pairsAt v "field"))
  match ← record? v with
  | some r => return .record r
  | none => return .note ((v.words? "junk").getD "")

end Schemata.Intake
