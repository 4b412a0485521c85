import Schemata.Annotation.Constraints

/-!
# Constraints on a schema node

`Constraints.apply` writes a set of constraints onto a node.  A node that is not
concrete takes a title and a description and nothing else; the rest belongs on
what it points at.

On an array, bounds on a length count its items: they become bounds on the number
of items, unless the constraints bound that number themselves.
-/

namespace Schemata

namespace Constraints

/-- The keywords after a set of constraints has been written onto them, as far as
that does not depend on the kind of node.  The `nullable` flag is raised by the
caller, who knows whether the node has a type. -/
def onKeywords (c : Constraints) (k : Keywords) : Keywords :=
  { k with
    title := upperText c.title k.title
    description := upperText c.description k.description
    format := upperText c.format k.format
    multipleOf := c.multipleOf <|> k.multipleOf
    maximum := c.maximum <|> k.maximum
    exclusiveMaximum := if c.maximum.isSome then c.exclusiveMaximum else k.exclusiveMaximum
    minimum := c.minimum <|> k.minimum
    exclusiveMinimum := if c.minimum.isSome then c.exclusiveMinimum else k.exclusiveMinimum
    minLength := c.minLength <|> k.minLength
    maxLength := c.maxLength <|> k.maxLength
    minItems := c.minItems <|> k.minItems
    maxItems := c.maxItems <|> k.maxItems
    minProperties := c.minProperties <|> k.minProperties
    maxProperties := c.maxProperties <|> k.maxProperties
    pattern := upperText c.pattern k.pattern
    uniqueItems := k.uniqueItems || c.uniqueItems
    readOnly := k.readOnly || c.readOnly
    writeOnly := k.writeOnly || c.writeOnly
    deprecated := k.deprecated || c.deprecated
    unevaluatedProperties := c.unevaluatedProperties <|> k.unevaluatedProperties
    default := c.default <|> k.default
    sample := c.sample <|> k.sample
    samples := upperList c.samples k.samples
    choices := upperList c.choices k.choices
    required := appendNames k.required c.required
    extensions := setKeys c.extensions k.extensions }

/-- A lower bound of at least one. -/
def atLeastOne (n : Option Int) : Option Int :=
  match n with
  | some n => if n < 1 then some 1 else some n
  | none => some 1

/-- A bound on a length in the place of a bound on the number of items, unless the
latter was given along with it. -/
def itemBound (given items length : Option Int) : Option Int :=
  match length with
  | some n => if given.isSome then items else some n
  | none => items

/-- The keywords of a leaf. -/
def onLeaf (c : Constraints) (k : Keywords) (type : Option JsonType) : Keywords :=
  let k := c.onKeywords k
  { k with
    nullable := k.nullable || (c.nullable && type.isSome)
    minLength :=
      if c.notEmpty && type == some .string then atLeastOne k.minLength else k.minLength }

/-- The keywords of an object. -/
def onObject (c : Constraints) (k : Keywords) : Keywords :=
  let k := c.onKeywords k
  { k with nullable := k.nullable || c.nullable }

/-- The keywords of an array. -/
def onArray (c : Constraints) (k : Keywords) : Keywords :=
  let k := c.onKeywords k
  let least := itemBound c.minItems k.minItems k.minLength
  { k with
    nullable := k.nullable || c.nullable
    minItems := if c.notEmpty then atLeastOne least else least
    maxItems := itemBound c.maxItems k.maxItems k.maxLength
    minLength := none
    maxLength := none }

/-- **Write constraints onto a node.** -/
def apply (c : Constraints) : Node → Node
  | .leaf k t =>
    let t := c.type <|> t
    .leaf (c.onLeaf k t) t
  | .object k ps additional allowed =>
    let additional := if c.additionalAllowed = some false then none else additional
    .object (c.onObject k) ps additional (c.additionalAllowed <|> allowed)
  | .array k items => .array (c.onArray k) items
  | n => n.withTexts (upperText c.title none) (upperText c.description none)

end Constraints

end Schemata
