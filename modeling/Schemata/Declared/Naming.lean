import Schemata.Declared.Program

/-!
# Names and spellings of types

A type has up to three texts.  Its *name* is short and is what schemas and
messages use: the name it is published under, or the one it was declared with, or
for the generic types that of their head.  Its *spelling* is the long one, with
modules and arguments, and stands in for the name of a type that has none.  Inside
brackets or a union a type is spelled as a *part*, where a class is its qualified
name and nothing more.

A descriptor is spelled with everything it holds, and one that is reached again
while it is being spelled by three dots.
-/

namespace Schemata

namespace Metadata

/-- Named parts of a spelling, each with its value. -/
def partTexts (parts : List (String × Value)) : List String :=
  parts.map fun e => e.1 ++ "=" ++ e.2.spelled

/-- The spelling of a bound or a length. -/
def limitText (l : Limit) : String :=
  l.parts.1 ++ "(" ++ commaList (partTexts l.parts.2) ++ ")"

/-- What descriptions of fields may say besides bounds and lengths, in the order in which
they are spelled. -/
def fieldParts : List String :=
  ["default", "default_factory", "alias", "alias_priority", "validation_alias",
   "serialization_alias", "title", "field_title_generator", "description", "examples", "exclude",
   "exclude_if", "discriminator", "deprecated", "json_schema_extra", "frozen",
   "validate_default", "repr", "init", "init_var", "kw_only"]

/-- The further rules that descriptions of fields may give, in the order in which they are
spelled. -/
def fieldRules : List String :=
  ["pattern", "coerce_numbers_to_str", "allow_inf_nan", "max_digits", "decimal_places",
   "union_mode"]

/-- What a description of a field says under a name.  Another name that the field goes by
counts in both directions unless they have names of their own, and has a rank. -/
def fieldPart? (given : List (String × Value)) (name : String) : Option Value :=
  let said (n : String) : Option Value := (getKey? n given).bind Value.nonNull?
  match name with
  | "validation_alias" => said name <|> said "alias"
  | "serialization_alias" => said name <|> ((said "alias").filter fun v => v.text?.isSome)
  | "alias_priority" =>
    let aliased := ["alias", "validation_alias", "serialization_alias"].any fun n => (said n).isSome
    if aliased then said name <|> some (.int 2) else none
  | "repr" => (said name).filter fun v => !(v matches .bool true)
  | "frozen" => (said name).filter fun v => !(v matches .bool false)
  | name => said name

/-- The rules of a description of a field. -/
def fieldRuleTexts (d : FieldNote) : List String :=
  let said (n : String) : Option Value := (getKey? n d.given).bind Value.nonNull?
  let marker (n name : String) : List String :=
    (said n).toList.map fun v => name ++ "(" ++ commaList (partTexts [(n, v)]) ++ ")"
  let rules := fieldRules.filterMap fun n => (said n).map fun v => (n, v)
  marker "strict" "Strict" ++ d.limits.map limitText ++ marker "fail_fast" "FailFast" ++
    if rules.isEmpty then []
    else ["_PydanticGeneralMetadata(" ++ commaList (partTexts rules) ++ ")"]

/-- The spelling of a description of a field. -/
def fieldText (d : FieldNote) : String :=
  let required := (getKey? "default" d.given).isNone
  let parts := fieldParts.filterMap fun n => (fieldPart? d.given n).map fun v => (n, v)
  let rules := fieldRuleTexts d
  "FieldInfo(annotation=NoneType, " ++
    commaList (partTexts (("required", .bool required) :: parts) ++
      if rules.isEmpty then [] else ["metadata=[" ++ commaList rules ++ "]"]) ++ ")"

/-- The spelling of metadata. -/
def spelled : Metadata → String
  | .record r => r.spelled
  | .limit l => limitText l
  | .field d => fieldText d
  | .note s => Text.quoted s

end Metadata

namespace Program

/-- The qualified name of a class. -/
def classText (p : Program) (i : Nat) : String :=
  match p.classes[i]? with
  | some c => c.qualifiedName
  | none => ""

/-- The name of a class. -/
def classNameText (p : Program) (i : Nat) : String :=
  match p.classes[i]? with
  | some c => c.name
  | none => ""

/-- The qualified name of a brand. -/
def brandText (p : Program) (i : Nat) : String :=
  match p.brands[i]? with
  | some b => b.qualifiedName
  | none => ""

/-- The qualified name of the head of a generic type. -/
def headText (p : Program) : Head → String
  | .builtin b => b.qualifiedName
  | .declared i => p.classText i

/-- A head with its arguments in brackets. -/
def bracketText (head : String) (args : List String) : String :=
  head ++ "[" ++ (if args.isEmpty then "()" else commaList args) ++ "]"

/-- A generic type; what is to be unpacked has a star in front. -/
def genericText (p : Program) (head : Head) (args : List String) : String :=
  if head = .builtin .unpack then "*" ++ commaList args else bracketText (p.headText head) args

/-- A union written with its name; one of a type and null has a name of its own. -/
def unionText (members : List Token) (texts : List String) : String :=
  match members, texts with
  | [a, b], [s, t] =>
    if a.isNothing then bracketText "typing.Optional" [t]
    else if b.isNothing then bracketText "typing.Optional" [s]
    else bracketText "typing.Union" [s, t]
  | _, texts => bracketText "typing.Union" texts

/-- A union written with bars, null by its value. -/
def pipeText (members : List Token) (texts : List String) : String :=
  " | ".intercalate
    ((members.zip texts).map fun m => if m.1.isNothing then "None" else m.2)

mutual

/-- A type as a part of another, given the spelling of descriptors made by hand. -/
def partText (p : Program) (craftedText : Nat → String) : Token → String
  | .none => "None"
  | .builtin b => b.qualifiedName
  | .declared i => p.classText i
  | .brand i => p.brandText i
  | .crafted i => craftedText i
  | .generic h args => p.genericText h (partTexts p craftedText args)
  | .ellipsis => "..."
  | .union piped ms =>
    let texts := partTexts p craftedText ms
    if piped then pipeText ms texts else unionText ms texts
  | .literal vs => "typing.Literal[" ++ commaList (vs.map Value.spelled) ++ "]"
  | .annotated t ms =>
    bracketText "typing.Annotated" (partText p craftedText t :: ms.map Metadata.spelled)
  | .classVar t => bracketText "typing.ClassVar" [partText p craftedText t]
  | .initVar t =>
    let text := match t with
      | .builtin b => if b.isClass then b.facts.name else b.qualifiedName
      | .declared i => p.classNameText i
      | t => partText p craftedText t
    bracketText "dataclasses.InitVar" [text]
  | .typeVar name => "~" ++ name
  | .forward s => "ForwardRef(" ++ Text.quoted s ++ ")"
  | .value v => v.spelled
termination_by structural t => t

/-- Some types as parts of another. -/
def partTexts (p : Program) (craftedText : Nat → String) : List Token → List String
  | [] => []
  | t :: ts => partText p craftedText t :: partTexts p craftedText ts
termination_by structural ts => ts

end

/-- A type on its own, given the spelling of descriptors made by hand. -/
def spellWith (p : Program) (craftedText : Nat → String) : Token → String
  | .builtin b =>
    if b == .anything || !b.isClass then b.qualifiedName
    else if b == .enumeration then Value.kindMark (Value.enumerationSort false) b.facts.name
    else Value.kindMark "class" b.qualifiedName
  | .declared i =>
    match p.classes[i]? with
    | some c =>
      match c.form with
      | .enumeration e => Value.kindMark (Value.enumerationSort e.label.bits.isSome) c.name
      | _ => Value.kindMark "class" c.qualifiedName
    | none => ""
  | .ellipsis => "Ellipsis"
  | t => p.partText craftedText t

/-- A truth value as spelled. -/
def truthText (b : Bool) : String := (Value.bool b).spelled

/-- An optional part as spelled. -/
def optionText {α : Type} (f : α → String) : Option α → String
  | some a => f a
  | none => "None"

/-- A constructor with named parts. -/
def constructorText (name : String) (parts : List (String × String)) : String :=
  name ++ "(" ++ commaList (parts.map fun e => e.1 ++ "=" ++ e.2) ++ ")"

/-- The spelling of a member of one of the library’s own enumerations. -/
def wordText (enumeration word : String) : String :=
  let member := String.ofList (word.toList.map fun c => if c = '-' then '_' else c.toUpper)
  "<" ++ enumeration ++ "." ++ member ++ ": " ++ Text.quoted word ++ ">"

/-- The spelling of a property. -/
def propertyText (spell : Token → String) (q : Property) : String :=
  constructorText "PropertyDescriptor"
    [("name", Text.quoted q.name), ("declared_type", spell q.type),
     ("annotations", "[" ++ commaList (q.annotations.map Record.spelled) ++ "]"),
     ("catch_all", truthText q.catchAll), ("required", truthText q.required),
     ("attribute", optionText Text.quoted q.accessor)]

/-- The spelling of a descriptor. -/
def descriptorText (spell : Token → String) (d : Descriptor) : String :=
  constructorText "TypeDescriptor"
    [("name", Text.quoted d.name), ("shape", wordText "TypeShape" d.shape.word),
     ("kind", optionText (fun k => wordText "PrimitiveKind" k.word) d.kind),
     ("inner", spell d.inner), ("base", optionText spell d.base),
     ("enum_members", "[" ++ commaList (d.members.map Text.quoted) ++ "]"),
     ("properties", "[" ++ commaList (d.properties.map (propertyText spell)) ++ "]"),
     ("annotations", "[" ++ commaList (d.annotations.map Record.spelled) ++ "]"),
     ("factory", optionText (fun _ => "<function>") d.factory),
     ("source", optionText spell d.source), ("unique_items", truthText d.uniqueItems)]

/-- The spelling of a descriptor made by hand, inside the spellings of others.  Every
step inwards opens another one, so their number bounds the depth. -/
def craftedTextWithin (p : Program) : Nat → List Nat → Nat → String
  | 0, _, _ => "..."
  | fuel + 1, opened, i =>
    if opened.contains i then "..."
    else match p.crafted[i]? with
      | some d => descriptorText (p.spellWith (p.craftedTextWithin fuel (i :: opened))) d
      | none => "..."

/-- The spelling of a descriptor made by hand. -/
def craftedText (p : Program) (i : Nat) : String :=
  p.craftedTextWithin (p.crafted.length + 1) [] i

/-- **The spelling of a type.** -/
def spell (p : Program) (t : Token) : String := p.spellWith p.craftedText t

/-- The plain spelling of a type: a value is written plainly. -/
def plainText (p : Program) : Token → String
  | .value v => v.display
  | t => p.spell t

/-- The name a type has of its own. -/
def bareName? (p : Program) : Token → Option String
  | .builtin b => some b.facts.name
  | .declared i => (p.classes[i]?).map Class.name
  | .brand i => (p.brands[i]?).map Brand.name
  | .generic (.builtin b) _ => some b.facts.name
  | .generic (.declared i) _ => (p.classes[i]?).map Class.name
  | .union false ms =>
    some (if ms.length = 2 ∧ ms.any Token.isNothing then "Optional" else "Union")
  | .literal _ => some "Literal"
  | .annotated .. => some "Annotated"
  | .classVar _ => some "ClassVar"
  | .typeVar name => some name
  | _ => none

/-- The name a declared type is published under instead of its own. -/
def publishedName? (p : Program) : Token → Option String
  | .declared i => (p.classes[i]?).bind Class.publishedName
  | .brand i => (p.brands[i]?).bind Brand.publishedName
  | _ => none

/-- The name of a type, or else its spelling. -/
def shortName (p : Program) (t : Token) : String :=
  match p.bareName? t with
  | some s => if s.isEmpty then p.plainText t else s
  | none => p.plainText t

/-- **The name of a type**: the one it is published under, or its own, or its
spelling. -/
def nameOf (p : Program) (t : Token) : String :=
  (p.publishedName? t).getD (p.shortName t)

/-- The name of a type as the makers of descriptors use it: a descriptor by its own. -/
def makerName (p : Program) : Token → String
  | .crafted i => ((p.crafted[i]?).map Descriptor.name).getD ""
  | t => p.shortName t

/-- The qualified name of a class or brand. -/
def qualifiedName? (p : Program) : Token → Option String
  | .builtin b => some b.qualifiedName
  | .declared i => (p.classes[i]?).map Class.qualifiedName
  | .brand i => (p.brands[i]?).map Brand.qualifiedName
  | _ => none

end Program

end Schemata
