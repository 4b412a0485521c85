import Schemata.Schema.Render
import Mathlib.Algebra.Order.Field.Rat
import Mathlib.Tactic.FinCases

/-!
# What a published schema accepts

A rendered schema is an ordered mapping from keywords, and by itself it says nothing.  What it says
is agreed on elsewhere: every keyword is a condition on values, and the values that meet all
conditions are accepted.  This is written down here for mappings, not for nodes, so that what nodes
are rendered as can be held against it.

* A keyword may look at those beside it.  The properties that `additionalProperties` speaks of are
  those that no other keyword names, and `unevaluatedProperties` speaks of those that nothing else
  has looked at, in whatever schema that is combined with this one.  So a schema gives a `Verdict`:
  whether the value is accepted, and the properties that have been looked at.  No keyword looks at
  the `type` beside it.
* The values of keywords are schemas, lists of schemas, and mappings from names to schemas.  Which
  of these a value is to be read as depends on the keyword, so that it is read as all of them
  (`Sense`), and the keyword takes what it needs.
* What the library leaves to others is left open (`Dialect`): where patterns are found, what
  references lead to, and what the keywords mean that it never writes of its own accord.  Keywords
  that start with `x-` mean nothing, and neither do formats, titles, defaults and examples, which
  describe and do not demand.

The conditions are propositions, and numbers are compared as the rational numbers that they are:
what is accepted is defined, not computed.
-/

namespace Schemata

/-! ## Values as documents have them -/

/-- The rational number that a finite double is. -/
def Binary64.rational? : Binary64 → Option ℚ
  | .finite neg m e => some ((if neg then -1 else 1) * m * 2 ^ e)
  | _ => none

namespace Value

/-- The number that a value is.  Truth values are no numbers. -/
def rational? (v : Value) : Option ℚ :=
  match v.core with
  | .int n => some n
  | .float x => x.rational?
  | _ => none

mutual

/-- **Equality of values in a document.**  Numbers are equal if they are the same number, and
mappings if they have equal values at the same keys. -/
def Equals : Value → Value → Prop
  | .null, w => w = .null
  | .bool b, w => w = .bool b
  | .list xs, w => ∃ ys, w = .list ys ∧ EqualAll xs ys
  | .tuple xs, w => ∃ ys, w = .list ys ∧ EqualAll xs ys
  | .dict es, w => ∃ fs, w = .dict fs ∧ es.length = fs.length ∧ EntriesWithin es fs
  | v, w => (∃ s, v.text? = some s ∧ w.text? = some s) ∨
      ∃ x, v.rational? = some x ∧ w.rational? = some x
termination_by structural v => v

/-- Lists with equal elements in the same places. -/
def EqualAll : List Value → List Value → Prop
  | [], ys => ys = []
  | x :: xs, ys => ∃ y rest, ys = y :: rest ∧ Equals x y ∧ EqualAll xs rest
termination_by structural xs => xs

/-- Every entry has an equal one among others. -/
def EntriesWithin : List (Value × Value) → List (Value × Value) → Prop
  | [], _ => True
  | (k, x) :: es, fs => (∃ f ∈ fs, f.1.text? = k.text? ∧ Equals x f.2) ∧ EntriesWithin es fs
termination_by structural es => es

end

/-- The properties that a value has under their names. -/
def fields (v : Value) : List (String × Value) :=
  match v with
  | .dict es => es.filterMap fun e => e.1.text?.map fun name => (name, e.2)
  | _ => []

/-- A value has a type; a number without a fraction is an integer, however it is written. -/
def HasType (v : Value) : JsonType → Prop
  | .string => v.text?.isSome
  | .number => v.rational?.isSome
  | .integer => ∃ n : ℤ, v.rational? = some n
  | .boolean => ∃ b, v = .bool b
  | .object => ∃ es, v = .dict es
  | .array => ∃ xs, v = .list xs
  | .null => v = .null

/-- **What `type` says**: the value has the type that is given, or one of those that are. -/
def TypeTakes (type v : Value) : Prop :=
  match type with
  | .list words => ∃ w ∈ words, ∃ t : JsonType, w.text? = some t.word ∧ v.HasType t
  | word => ∃ t : JsonType, word.text? = some t.word ∧ v.HasType t

end Value

/-! ## Verdicts -/

/-- What is said about a value: whether it is accepted, and which of its properties have been looked
at if it is. -/
structure Verdict where
  accepted : Prop
  covers : String → Prop := fun _ => False

/-- What a value can be read as inside a schema. -/
structure Sense where
  /-- A schema.  What is none says nothing. -/
  schema : Value → Verdict := fun _ => ⟨True, fun _ => False⟩
  /-- A list of schemas. -/
  members : List (Value → Verdict) := []
  /-- Schemas under names. -/
  named : List (String × (Value → Verdict)) := []

/-- A keyword with its value. -/
structure Entry where
  key : String
  value : Value
  sense : Sense

namespace Entry

/-- What is demanded of a number, where the keyword gives a number. -/
def Bounds (e : Entry) (v : Value) (holds : ℚ → ℚ → Prop) : Prop :=
  ∀ b ∈ e.value.rational?, ∀ x ∈ v.rational?, holds b x

/-- What is demanded of the length of a text. -/
def BoundsLength (e : Entry) (v : Value) (holds : ℚ → ℚ → Prop) : Prop :=
  ∀ b ∈ e.value.rational?, ∀ s ∈ v.text?, holds b s.length

/-- What is demanded of the number of items. -/
def BoundsItems (e : Entry) (v : Value) (holds : ℚ → ℚ → Prop) : Prop :=
  ∀ b ∈ e.value.rational?, ∀ xs, v = .list xs → holds b xs.length

/-- What is demanded of the number of properties. -/
def BoundsProperties (e : Entry) (v : Value) (holds : ℚ → ℚ → Prop) : Prop :=
  ∀ b ∈ e.value.rational?, ∀ es, v = .dict es → holds b es.length

end Entry

/-- **What a reader of schemas brings along.** -/
structure Dialect where
  /-- A pattern is found in a text. -/
  Finds : String → String → Prop
  /-- The schema that a reference leads to. -/
  resolve : String → Value → Verdict
  /-- A keyword that the library does not write of its own accord, among those beside it. -/
  foreign : String → List (String × Value) → Value → Verdict

namespace Dialect

variable (D : Dialect)

/-! ## Keywords -/

/-- The properties that are named in keywords beside `additionalProperties`. -/
def Named (siblings : List Entry) (name : String) : Prop :=
  ∃ e ∈ siblings, (e.key = "properties" ∧ name ∈ e.sense.named.map (·.1)) ∨
    e.key = "patternProperties" ∧ ∃ f ∈ e.sense.named, D.Finds f.1 name

/-- How many items have schemas of their own, beside `items`. -/
def ownItems (siblings : List Entry) : Nat :=
  ((siblings.filter fun e => e.key == "prefixItems").map fun e => e.sense.members.length).sum

/-- **What a keyword says of a value**, given the keywords beside it.  What `type` and
`unevaluatedProperties` say is said in `Meets`. -/
def keyword (siblings : List Entry) (e : Entry) (v : Value) : Verdict :=
  match e.key with
  | "enum" => { accepted := ∀ xs, e.value = .list xs → ∃ x ∈ xs, x.Equals v }
  | "minimum" => { accepted := e.Bounds v (· ≤ ·) }
  | "exclusiveMinimum" => { accepted := e.Bounds v (· < ·) }
  | "maximum" => { accepted := e.Bounds v (· ≥ ·) }
  | "exclusiveMaximum" => { accepted := e.Bounds v (· > ·) }
  | "multipleOf" => { accepted := e.Bounds v fun m x => ∃ n : ℤ, x = n * m }
  | "minLength" => { accepted := e.BoundsLength v (· ≤ ·) }
  | "maxLength" => { accepted := e.BoundsLength v (· ≥ ·) }
  | "pattern" => { accepted := ∀ p ∈ e.value.text?, ∀ s ∈ v.text?, D.Finds p s }
  | "minItems" => { accepted := e.BoundsItems v (· ≤ ·) }
  | "maxItems" => { accepted := e.BoundsItems v (· ≥ ·) }
  | "uniqueItems" =>
    { accepted := e.value = .bool true → ∀ xs, v = .list xs → xs.Pairwise fun x y => ¬ x.Equals y }
  | "minProperties" => { accepted := e.BoundsProperties v (· ≤ ·) }
  | "maxProperties" => { accepted := e.BoundsProperties v (· ≥ ·) }
  | "required" =>
    { accepted := ∀ names, e.value = .list names → ∀ es, v = .dict es →
        ∀ n ∈ names, ∀ name ∈ n.text?, name ∈ v.fields.map (·.1) }
  | "properties" =>
    { accepted := ∀ f ∈ e.sense.named, ∀ x ∈ v.fields, x.1 = f.1 → (f.2 x.2).accepted
      covers := fun name => name ∈ e.sense.named.map (·.1) }
  | "patternProperties" =>
    { accepted := ∀ f ∈ e.sense.named, ∀ x ∈ v.fields, D.Finds f.1 x.1 → (f.2 x.2).accepted
      covers := fun name => ∃ f ∈ e.sense.named, D.Finds f.1 name }
  | "additionalProperties" =>
    { accepted := ∀ x ∈ v.fields, ¬ D.Named siblings x.1 → (e.sense.schema x.2).accepted
      covers := fun name => ¬ D.Named siblings name }
  | "prefixItems" =>
    { accepted := ∀ xs, v = .list xs → ∀ f ∈ e.sense.members.zip xs, (f.1 f.2).accepted }
  | "items" =>
    { accepted := ∀ xs, v = .list xs →
        ∀ x ∈ xs.drop (ownItems siblings), (e.sense.schema x).accepted }
  | "allOf" =>
    { accepted := ∀ s ∈ e.sense.members, (s v).accepted
      covers := fun name => ∃ s ∈ e.sense.members, (s v).covers name }
  | "anyOf" =>
    { accepted := ∃ s ∈ e.sense.members, (s v).accepted
      covers := fun name => ∃ s ∈ e.sense.members, (s v).accepted ∧ (s v).covers name }
  | "$ref" => D.resolve (e.value.text?.getD "") v
  | "title" | "description" | "format" | "default" | "example" | "examples" | "readOnly"
  | "writeOnly" | "deprecated" => { accepted := True }
  | key =>
    if key.startsWith "x-" then { accepted := True }
    else D.foreign key (siblings.map fun e => (e.key, e.value)) v

/-- The properties that some keywords look at. -/
def Covered (siblings : List Entry) (v : Value) (name : String) : Prop :=
  ∃ e ∈ siblings, e.key ≠ "unevaluatedProperties" ∧ (D.keyword siblings e v).covers name

/-- **A value meets a keyword**, given the keywords beside it. -/
def Meets (siblings : List Entry) (e : Entry) (v : Value) : Prop :=
  if e.key = "type" then e.value.TypeTakes v
  else if e.key = "unevaluatedProperties" then
    ∀ x ∈ v.fields, ¬ D.Covered siblings v x.1 → (e.sense.schema x.2).accepted
  else (D.keyword siblings e v).accepted

/-- **What some keywords say together.** -/
def verdict (entries : List Entry) (v : Value) : Verdict :=
  let siblings := entries.filter fun e => e.key != "type"
  { accepted := ∀ e ∈ entries, D.Meets siblings e v
    covers := fun name => D.Covered siblings v name ∨
      ∃ e ∈ siblings, e.key = "unevaluatedProperties" }

/-! ## Schemas -/

mutual

/-- What a value can be read as. -/
def sense : Value → Sense
  | .bool b => { schema := fun _ => { accepted := b = true } }
  | .list xs => { members := (senses xs).map Sense.schema }
  | .tuple xs => { members := (senses xs).map Sense.schema }
  | .dict es =>
    { schema := D.verdict (entries es)
      named := (entries es).map fun e => (e.key, e.sense.schema) }
  | _ => {}
termination_by structural v => v

/-- What some values can be read as. -/
def senses : List Value → List Sense
  | [] => []
  | x :: xs => sense x :: senses xs
termination_by structural xs => xs

/-- The entries of a mapping as keywords. -/
def entries : List (Value × Value) → List Entry
  | [] => []
  | (k, x) :: es => ⟨k.text?.getD "", x, sense x⟩ :: entries es
termination_by structural es => es

end

/-- **A schema accepts a value.** -/
def Accepts (schema v : Value) : Prop :=
  ((D.sense schema).schema v).accepted

variable {D} {v : Value}

@[simp] theorem entries_eq_map (es : List (Value × Value)) :
    D.entries es = es.map fun e => ⟨e.1.text?.getD "", e.2, D.sense e.2⟩ := by
  induction es with
  | nil => rfl
  | cons e es ih => rw [entries, ih, List.map_cons]

@[simp] theorem senses_eq_map (xs : List Value) : D.senses xs = xs.map D.sense := by
  induction xs with
  | nil => rfl
  | cons x xs ih => rw [senses, ih, List.map_cons]

/-- **A mapping accepts what meets all of its keywords.** -/
theorem accepts_dict {es : List (Value × Value)} : D.Accepts (.dict es) v ↔
    ∀ e ∈ D.entries es, D.Meets ((D.entries es).filter fun e => e.key != "type") e v :=
  Iff.rfl

/-- **A type is one more condition**, and nothing looks at it. -/
theorem accepts_type_cons (t : Value) (es : List (Value × Value)) :
    D.Accepts (.dict ((.text "type", t) :: es)) v ↔ t.TypeTakes v ∧ D.Accepts (.dict es) v := by
  rw [accepts_dict, accepts_dict]
  exact List.forall_mem_cons

/-- The keywords that describe a value and demand nothing of it. -/
def describing : List String :=
  ["title", "description", "format", "default", "example", "examples", "readOnly", "writeOnly",
   "deprecated"]

theorem meets_of_describing {siblings : List Entry} {e : Entry} (h : e.key ∈ describing) :
    D.Meets siblings e v := by
  obtain ⟨key, value, sense⟩ := e
  fin_cases h <;> simp [Meets, keyword]

/-- A keyword that starts with `x-` means nothing. -/
theorem meets_of_vendor {siblings : List Entry} {e : Entry} (h : e.key.startsWith "x-" = true) :
    D.Meets siblings e v := by
  obtain ⟨key, value, sense⟩ := e
  have htype : key ≠ "type" := by
    rintro rfl
    simp at h
  have hunevaluated : key ≠ "unevaluatedProperties" := by
    rintro rfl
    simp at h
  rw [Meets, if_neg htype, if_neg hunevaluated]
  unfold keyword
  dsimp only at h ⊢
  split <;> first | (simp at h; done) | trivial | simp [h]

/-- The keywords that speak of numbers only. -/
def onNumbers : List String :=
  ["minimum", "exclusiveMinimum", "maximum", "exclusiveMaximum", "multipleOf"]

/-- The keywords that speak of texts, lists or mappings only. -/
def onOthers : List String :=
  ["minLength", "maxLength", "pattern", "minItems", "maxItems", "uniqueItems", "minProperties",
   "maxProperties", "required", "properties", "additionalProperties", "items",
   "unevaluatedProperties"]

theorem meets_int {siblings : List Entry} {e : Entry} {n : Int} (h : e.key ∈ onOthers) :
    D.Meets siblings e (.int n) := by
  obtain ⟨key, value, sense⟩ := e
  fin_cases h <;> simp [Meets, keyword, Entry.BoundsLength, Entry.BoundsItems,
    Entry.BoundsProperties, Value.text?, Value.core, Value.fields]

theorem meets_null {siblings : List Entry} {e : Entry} (h : e.key ∈ onNumbers ++ onOthers) :
    D.Meets siblings e .null := by
  obtain ⟨key, value, sense⟩ := e
  fin_cases h <;> simp [Meets, keyword, Entry.Bounds, Entry.BoundsLength, Entry.BoundsItems,
    Entry.BoundsProperties, Value.rational?, Value.text?, Value.core, Value.fields]

end Dialect

end Schemata
