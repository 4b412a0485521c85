import Schemata.Schema.Node

/-!
# Rendering schemas

A node is rendered as an ordered mapping.  The keywords of a concrete node follow
its type and its parts in one fixed order, and vendor data comes last; a vendor
key that is also a keyword overwrites that keyword where it stands.

A keyword that is not set is left out, and so is an empty text.
-/

namespace Schemata

/-- An ordered mapping from keywords. -/
abbrev Rendered := List (Wording × Value)

/-- Where references to stored schemas point by default. -/
def defaultRefPrefix : String := "#/components/schemas/"

namespace Rendered

/-- An entry. -/
def entry (key : String) (value : Value) : Rendered := [(key, value)]

/-- An entry that is there only when it is set. -/
def optionalEntry (key : String) (value : Option Value) : Rendered :=
  match value with
  | some v => entry key v
  | none => []

/-- An entry for a text that is neither missing nor empty. -/
def textEntry (key : String) (s : Option Wording) : Rendered :=
  match s with
  | some s => if s.plain.isEmpty then [] else entry key (.ofWording s)
  | none => []

/-- An entry for a flag that is raised. -/
def flagEntry (key : String) (b : Bool) : Rendered :=
  if b then entry key (.bool true) else []

/-- An entry for a list that is not empty. -/
def listEntry (key : String) (xs : List Value) : Rendered :=
  if xs.isEmpty then [] else entry key (.list xs)

/-- An entry for a number. -/
def numberEntry (key : String) (n : Option Bound) : Rendered :=
  optionalEntry key (n.map (Carried.toValue Number.toValue))

/-- An entry for a count. -/
def countEntry (key : String) (n : Option Int) : Rendered :=
  optionalEntry key (n.map .int)

/-- An ordered mapping as a value. -/
def toValue (r : Rendered) : Value :=
  .dict (r.map fun e => (.ofWording e.1, e.2))

end Rendered

open Rendered

/-- The keyword for the type of a concrete node, null included when it is nullable. -/
def Keywords.typeEntry (k : Keywords) (t : Option JsonType) : Rendered :=
  match t with
  | none => []
  | some t =>
    if k.nullable && t != .null then entry "type" (.list [.text t.word, .text JsonType.null.word])
    else entry "type" (.text t.word)

/-- The keywords before vendor data. -/
def Keywords.ownEntries (k : Keywords) : Rendered :=
  textEntry "format" k.format ++ textEntry "title" k.title ++
    textEntry "description" k.description ++
    numberEntry (if k.exclusiveMinimum then "exclusiveMinimum" else "minimum") k.minimum ++
    numberEntry (if k.exclusiveMaximum then "exclusiveMaximum" else "maximum") k.maximum ++
    numberEntry "multipleOf" k.multipleOf ++
    countEntry "minLength" k.minLength ++ countEntry "maxLength" k.maxLength ++
    textEntry "pattern" k.pattern ++
    countEntry "minItems" k.minItems ++ countEntry "maxItems" k.maxItems ++
    flagEntry "uniqueItems" k.uniqueItems ++
    countEntry "minProperties" k.minProperties ++ countEntry "maxProperties" k.maxProperties ++
    listEntry "required" (k.required.map .ofWording) ++
    optionalEntry "unevaluatedProperties" (k.unevaluatedProperties.map .bool) ++
    flagEntry "readOnly" k.readOnly ++ flagEntry "writeOnly" k.writeOnly ++
    flagEntry "deprecated" k.deprecated ++
    listEntry "enum" k.choices ++ optionalEntry "default" k.default ++
    optionalEntry "example" k.sample ++
    listEntry "examples" k.samples

/-- The keywords of a concrete node after its own parts, vendor data last. -/
def Keywords.finish (k : Keywords) (parts : Rendered) : Rendered :=
  setKeys k.extensions (parts ++ k.ownEntries)

/-- The title and description of a node that carries nothing else. -/
def textEntries (title description : Option Wording) : Rendered :=
  textEntry "title" title ++ textEntry "description" description

namespace Node

mutual

/-- **A node as an ordered mapping**, references starting with `refPrefix`. -/
def entries (refPrefix : String) : Node → Rendered
  | .leaf k t => k.finish (k.typeEntry t)
  | .object k ps additional allowed =>
    let properties := propertyEntries refPrefix ps
    let rest :=
      match additionalEntry refPrefix additional with
      | some v => entry "additionalProperties" v
      | none => optionalEntry "additionalProperties" (allowed.map .bool)
    k.finish <|
      k.typeEntry (some .object) ++
        (if properties.isEmpty then [] else entry "properties" properties.toValue) ++ rest
  | .array k items =>
    k.finish (k.typeEntry (some .array) ++ entry "items" (entries refPrefix items).toValue)
  | .ref name t d => ("$ref", .text (refPrefix ++ name)) :: textEntries t d
  | .composition ns t d => ("allOf", .list (memberEntries refPrefix ns)) :: textEntries t d
  | .union ns t d => ("anyOf", .list (memberEntries refPrefix ns)) :: textEntries t d

/-- The rendered properties of an object. -/
def propertyEntries (refPrefix : String) : List (String × Node) → Rendered
  | [] => []
  | (name, n) :: ps => (name, (entries refPrefix n).toValue) :: propertyEntries refPrefix ps

/-- The rendered schema of further properties. -/
def additionalEntry (refPrefix : String) : Option Node → Option Value
  | none => none
  | some n => some (entries refPrefix n).toValue

/-- The rendered members of a composition or a union. -/
def memberEntries (refPrefix : String) : List Node → List Value
  | [] => []
  | n :: ns => (entries refPrefix n).toValue :: memberEntries refPrefix ns

end

/-- A node as a value. -/
def render (refPrefix : String) (n : Node) : Value :=
  (n.entries refPrefix).toValue

end Node

end Schemata
