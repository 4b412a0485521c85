import Schemata.Annotation.Constraints
import Schemata.Text.Blank
import Schemata.Text.Digit

/-!
# From records to constraints

`Record.layer?` reads one record as a set of constraints, and `Constraints.merge`
lays the layers of a list of records over one another.

Reading is lenient.  An argument of the wrong kind counts as not given: a text is
taken when it is not blank, a number when it is finite, a count when it is a whole
number and not negative, a flag only when it is exactly true.  Numbers may be
written out, in the digits of any script, with blanks around them and underscores
between the digits.

The one reading that can fail is that of a count: a written number too large for a
double and not whole has no integer part to compare with.
-/

namespace Schemata

/-- What a record is about. -/
inductive Topic where
  | group
  | required
  | requiredProperty
  | catchAll
  | range
  | length
  | count
  | pattern
  | choices
  | notEmpty
  | deprecated
  | sample
  | default
  | description
  | title
  | extension
  deriving DecidableEq, Repr

namespace Topic

/-- The topic of a record's name, in either case of letters. -/
def ofName? (name : String) : Option Topic :=
  match String.ofList (name.toList.map Char.toLower) with
  | "property" => some .group
  | "schema" => some .group
  | "required" => some .required
  | "requiredproperty" => some .requiredProperty
  | "additionalproperties" => some .catchAll
  | "range" => some .range
  | "length" => some .length
  | "count" => some .count
  | "pattern" => some .pattern
  | "choices" => some .choices
  | "notempty" => some .notEmpty
  | "deprecated" => some .deprecated
  | "example" => some .sample
  | "default" => some .default
  | "description" => some .description
  | "title" => some .title
  | "extension" => some .extension
  | _ => none

end Topic

namespace Value

/-- A text that is not blank. -/
def asText? (v : Value) : Option Wording :=
  v.wording?.filter fun s => !Text.isBlankText s.plain

/-- A decimal written out in a text. -/
def writtenDecimal? (s : String) : Option Decimal :=
  let cs := (Text.trim s.toList).filter (· != '_')
  Decimal.ofText? (Text.foldDigits cs)

/-- The number a finite decimal is: an integer if it is whole, else a double. -/
def numberOfDecimal? (d : Decimal) : Option Number :=
  match d with
  | .finite .. =>
    match d.toInt? with
    | some n => some (.int n)
    | none => some (.float (Binary64.ofDecimal d))
  | _ => none

/-- A finite number, possibly written out; a decimal is written out, too. -/
def asNumber? (v : Value) : Option Bound :=
  match v.core with
  | .int n => some (.given v (.int n))
  | .float x => if x.isFinite then some (.given v (.float x)) else none
  | .text _ | .decimal _ =>
    ((writtenDecimal? v.display).bind numberOfDecimal?).map fun n => ⟨n, none⟩
  | _ => none

/-- A whole number that is not negative. -/
def asCount? (v : Value) : Except Fault (Option Int) :=
  match v.asNumber?.map Carried.plain with
  | none => .ok none
  | some (.int n) => .ok (if n < 0 then none else some n)
  | some (.float (.finite neg m e)) =>
    match (Binary64.exactDecimal neg m e).toInt? with
    | some n => .ok (if n < 0 then none else some n)
    | none => .ok none
  | some (.float (.infinite _)) => .error (.infiniteInteger true)
  | some (.float .nan) => .error (.undefinedInteger true)

/-- Exactly true. -/
def asFlag (v : Value) : Bool :=
  match v with
  | .bool b => b
  | _ => false

/-- A truth value. -/
def asSwitch? (v : Value) : Option Bool :=
  match v with
  | .bool b => some b
  | _ => none

/-- The word for a JSON type, in either case of letters. -/
def asType? (v : Value) : Option JsonType :=
  match v.text? with
  | some s => JsonType.ofWord? (String.ofList ((Text.trim s.toList).map Char.toLower))
  | none => none

/-- A value as a list of values: null is none, a collection its elements, anything
else itself. -/
def asValues (v : Value) : List Value :=
  match v with
  | .null => []
  | v => v.elements?.getD [v]

/-- The texts among some values that are not empty. -/
def namesAmong (vs : List Value) : List Wording :=
  vs.filterMap fun v => v.wording?.filter fun s => !s.plain.isEmpty

end Value

/-- A vendor key: it starts with `x-`.  A name without is shown after it. -/
def vendorKey (name : Wording) : Wording :=
  if name.plain.startsWith "x-" then name
  else "x-" ++ (Value.ofWording name).display

namespace Constraints

/-- Set one named constraint, under either of its spellings.  Names that mean
nothing are ignored. -/
def assign (c : Constraints) (key : String) (v : Value) : Except Fault Constraints :=
  match key with
  | "title" => .ok { c with title := v.asText? }
  | "description" => .ok { c with description := v.asText? }
  | "format" => .ok { c with format := v.asText? }
  | "pattern" => .ok { c with pattern := v.asText? }
  | "minimum" => .ok { c with minimum := v.asNumber? }
  | "maximum" => .ok { c with maximum := v.asNumber? }
  | "multiple_of" | "multipleOf" => .ok { c with multipleOf := v.asNumber? }
  | "min_length" | "minLength" => do return { c with minLength := ← v.asCount? }
  | "max_length" | "maxLength" => do return { c with maxLength := ← v.asCount? }
  | "min_items" | "minItems" => do return { c with minItems := ← v.asCount? }
  | "max_items" | "maxItems" => do return { c with maxItems := ← v.asCount? }
  | "min_properties" | "minProperties" => do return { c with minProperties := ← v.asCount? }
  | "max_properties" | "maxProperties" => do return { c with maxProperties := ← v.asCount? }
  | "nullable" => .ok { c with nullable := v.asFlag }
  | "read_only" | "readOnly" => .ok { c with readOnly := v.asFlag }
  | "write_only" | "writeOnly" => .ok { c with writeOnly := v.asFlag }
  | "deprecated" => .ok { c with deprecated := v.asFlag }
  | "unique_items" | "uniqueItems" => .ok { c with uniqueItems := v.asFlag }
  | "exclusive_minimum" | "exclusiveMinimum" => .ok { c with exclusiveMinimum := v.asFlag }
  | "exclusive_maximum" | "exclusiveMaximum" => .ok { c with exclusiveMaximum := v.asFlag }
  | "array" => .ok { c with array := v.asFlag }
  | "not_empty" => .ok { c with notEmpty := v.asFlag }
  | "required_property" => .ok { c with requiredProperty := v.asFlag }
  | "additional_properties_allowed" | "additionalPropertiesAllowed" =>
    .ok { c with additionalAllowed := v.asSwitch? }
  | "unevaluated_properties" | "unevaluatedProperties" =>
    .ok { c with unevaluatedProperties := v.asSwitch? }
  | "default" => .ok { c with default := v.nonNull? }
  | "example" => .ok { c with sample := v.nonNull? }
  | "examples" => .ok { c with samples := v.asValues }
  | "type" => .ok { c with type := v.asType? }
  | "enum" => .ok { c with choices := v.asValues }
  | "required" | "requiredProperties" => .ok { c with required := Value.namesAmong v.asValues }
  | "extensions" =>
    match v.entries? with
    | some es =>
      .ok { c with extensions := setKeys (es.map fun e => (vendorKey e.1.display, e.2)) [] }
    | none => .ok c
  | _ => .ok c

/-- Set some named constraints in turn. -/
def assignAll (c : Constraints) : List (String × Value) → Except Fault Constraints
  | [] => .ok c
  | (key, v) :: r => do (← c.assign key v).assignAll r

end Constraints

namespace Record

/-- The vendor data a record gives: its first two arguments as key and value, and
every named argument. -/
def vendorData (r : Record) : List (Wording × Value) :=
  let first := match (r.arg 0).wording? with
    | some s => if s.plain.isEmpty then [] else [(vendorKey s, r.arg 1)]
    | none => []
  setKeys (r.named.map fun e => (vendorKey e.1, e.2)) first

/-- One record on a topic, as a set of constraints. -/
def layerOn (r : Record) : Topic → Except Fault Constraints
  | .group =>
    let base : Constraints :=
      if r.args.isEmpty then {} else { description := (r.arg 0).asText? }
    base.assignAll r.named
  | .required =>
    let named := ((getKey? "names" r.named).getD .null).asValues
    .ok { required := Value.namesAmong (r.args.flatMap Value.asValues ++ named) }
  | .requiredProperty => .ok { requiredProperty := true }
  | .catchAll => .ok {}
  | .range =>
    .ok { minimum := (r.namedOr "minimum" 0).asNumber?
          maximum := (r.namedOr "maximum" 1).asNumber? }
  | .length => do
    return { minLength := ← (r.namedOr "min_length" 0).asCount?
             maxLength := ← (r.namedOr "max_length" 1).asCount? }
  | .count => do
    return { minItems := ← (r.namedOr "min_items" 0).asCount?
             maxItems := ← (r.namedOr "max_items" 1).asCount? }
  | .pattern => .ok { pattern := (r.namedOr "pattern" 0).asText? }
  | .choices => .ok { choices := r.args.flatMap Value.asValues }
  | .notEmpty => .ok { notEmpty := true }
  | .deprecated => .ok { deprecated := true }
  | .sample => .ok { sample := (r.namedOr "value" 0).nonNull? }
  | .default => .ok { default := (r.namedOr "value" 0).nonNull? }
  | .description => .ok { description := (r.namedOr "text" 0).asText? }
  | .title => .ok { title := (r.namedOr "text" 0).asText? }
  | .extension => .ok { extensions := r.vendorData }

/-- **One record as a set of constraints**; nothing for a name without a topic. -/
def layer? (r : Record) : Except Fault (Option Constraints) :=
  match Topic.ofName? r.name with
  | some t => do return some (← r.layerOn t)
  | none => .ok none

end Record

namespace Constraints

/-- Lay the layers of some records over a set of constraints, in order. -/
def mergeOnto : Constraints → List Record → Except Fault Constraints
  | c, [] => .ok c
  | c, r :: rs => do
    match ← r.layer? with
    | some layer => (← c.fold layer).mergeOnto rs
    | none => c.mergeOnto rs

/-- **The constraints that some records amount to.** -/
def merge (rs : List Record) : Except Fault Constraints :=
  mergeOnto {} rs

end Constraints

end Schemata
