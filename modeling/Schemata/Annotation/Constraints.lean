import Schemata.Schema.Node
import Schemata.Annotation.Record

/-!
# Constraints

What a list of annotations says about one declaration, as one set of constraints.
A constraint that is not set is `none`, `false` or an empty list.

`Constraints.fold` lays one set over another: of texts, numbers, counts, the
three-valued settings and the payloads the upper one wins where it is set, flags
are raised by either, choices and required names are collected without repeats in
the order met, and vendor data is set key by key.
-/

namespace Schemata

/-- A set of constraints. -/
structure Constraints where
  title : Option Wording := none
  description : Option Wording := none
  format : Option Wording := none
  type : Option JsonType := none
  minimum : Option Bound := none
  maximum : Option Bound := none
  exclusiveMinimum : Bool := false
  exclusiveMaximum : Bool := false
  multipleOf : Option Bound := none
  minLength : Option Int := none
  maxLength : Option Int := none
  pattern : Option Wording := none
  minItems : Option Int := none
  maxItems : Option Int := none
  uniqueItems : Bool := false
  minProperties : Option Int := none
  maxProperties : Option Int := none
  nullable : Bool := false
  readOnly : Bool := false
  writeOnly : Bool := false
  deprecated : Bool := false
  /-- The type is published as an array of itself. -/
  array : Bool := false
  notEmpty : Bool := false
  /-- The property is required. -/
  requiredProperty : Bool := false
  additionalAllowed : Option Bool := none
  unevaluatedProperties : Option Bool := none
  default : Option Value := none
  sample : Option Value := none
  samples : List Value := []
  choices : List Value := []
  required : List Wording := []
  extensions : List (Wording × Value) := []
  deriving Repr, Inhabited

namespace Constraints

/-- Whether anything is set that only an object can have. -/
def constrainsObjects (c : Constraints) : Bool :=
  c.minProperties.isSome || c.maxProperties.isSome || c.additionalAllowed.isSome ||
    c.unevaluatedProperties.isSome

/-- Whether nothing is set. -/
def isEmpty (c : Constraints) : Bool :=
  c.title.isNone && c.description.isNone && c.format.isNone && c.type.isNone &&
    c.minimum.isNone && c.maximum.isNone && !c.exclusiveMinimum && !c.exclusiveMaximum &&
    c.multipleOf.isNone && c.minLength.isNone && c.maxLength.isNone && c.pattern.isNone &&
    c.minItems.isNone && c.maxItems.isNone && !c.uniqueItems && c.minProperties.isNone &&
    c.maxProperties.isNone && !c.nullable && !c.readOnly && !c.writeOnly && !c.deprecated &&
    !c.array && !c.notEmpty && !c.requiredProperty && c.additionalAllowed.isNone &&
    c.unevaluatedProperties.isNone && c.default.isNone && c.sample.isNone && c.samples.isEmpty &&
    c.choices.isEmpty && c.required.isEmpty && c.extensions.isEmpty

/-- Add values that are not equal to one already there. -/
def appendUnique : List Value → List Value → Except Fault (List Value)
  | target, [] => .ok target
  | target, v :: vs => do
    if ← v.isAmong target then appendUnique target vs else appendUnique (target ++ [v]) vs

/-- Add names that are not there yet. -/
def appendNames (target names : List Wording) : List Wording :=
  names.foldl (fun acc n => if acc.contains n then acc else acc ++ [n]) target

/-- The upper of two lists where it is set. -/
def upperList {α : Type} (upper lower : List α) : List α :=
  if upper.isEmpty then lower else upper

/-- The upper of two texts where it is set to more than the empty text. -/
def upperText (upper lower : Option Wording) : Option Wording :=
  match upper with
  | some s => if s.plain.isEmpty then lower else some s
  | none => lower

/-- **Lay one set of constraints over another.**  Comparing choices is the only
step that can fail. -/
def fold (lower upper : Constraints) : Except Fault Constraints := do
  let choices ← appendUnique lower.choices upper.choices
  return {
    title := upperText upper.title lower.title
    description := upperText upper.description lower.description
    format := upperText upper.format lower.format
    type := upper.type <|> lower.type
    minimum := upper.minimum <|> lower.minimum
    maximum := upper.maximum <|> lower.maximum
    exclusiveMinimum := lower.exclusiveMinimum || upper.exclusiveMinimum
    exclusiveMaximum := lower.exclusiveMaximum || upper.exclusiveMaximum
    multipleOf := upper.multipleOf <|> lower.multipleOf
    minLength := upper.minLength <|> lower.minLength
    maxLength := upper.maxLength <|> lower.maxLength
    pattern := upperText upper.pattern lower.pattern
    minItems := upper.minItems <|> lower.minItems
    maxItems := upper.maxItems <|> lower.maxItems
    uniqueItems := lower.uniqueItems || upper.uniqueItems
    minProperties := upper.minProperties <|> lower.minProperties
    maxProperties := upper.maxProperties <|> lower.maxProperties
    nullable := lower.nullable || upper.nullable
    readOnly := lower.readOnly || upper.readOnly
    writeOnly := lower.writeOnly || upper.writeOnly
    deprecated := lower.deprecated || upper.deprecated
    array := lower.array || upper.array
    notEmpty := lower.notEmpty || upper.notEmpty
    requiredProperty := lower.requiredProperty || upper.requiredProperty
    additionalAllowed := upper.additionalAllowed <|> lower.additionalAllowed
    unevaluatedProperties := upper.unevaluatedProperties <|> lower.unevaluatedProperties
    default := upper.default <|> lower.default
    sample := upper.sample <|> lower.sample
    samples := upperList upper.samples lower.samples
    choices := choices
    required := appendNames lower.required upper.required
    extensions := setKeys upper.extensions lower.extensions }

end Constraints

end Schemata
