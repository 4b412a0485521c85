import Schemata.Declared.Evaluation
import Schemata.Temporal.Reader

/-!
# Values that are made to fit

A model looks at the values it is given and makes them fit the types of its fields: a numeral
becomes the number it writes, a whole number a double where a double is wanted, a list a set.
`Program.fit` says what a value becomes, and that some values cannot be made to fit.

## What fits a leaf type

Numbers and texts are told apart: no number becomes a text.  Of a number nothing may get
lost, so that a fraction is no whole number, and a moment is a date at midnight only.

## What fits a type made of others

A collection fits if all its items do.  Of the members of a union the first one counts that
takes the value as it is, or else the first that it can be made to fit.  A type which says
nothing about its values, or whose values are not looked into, takes every value as it is.

Declared classes and brands are not part of the type that mentions them.  What fits those is
given to `fit` as a function, so that here every step goes to a part of the type.
-/

namespace Schemata

namespace Builtin

/-- The words for the truth values, in lower case. -/
def truthWords : List (String × Bool) :=
  [("0", false), ("off", false), ("f", false), ("false", false), ("n", false), ("no", false),
   ("1", true), ("on", true), ("t", true), ("true", true), ("y", true), ("yes", true)]

/-- The value behind a member of an enumeration, mixed or not. -/
def behind (v : Value) : Value :=
  match v with
  | .member _ _ w => w.core
  | v => v.core

/-- A written whole number, perhaps with a fraction of zeros. -/
def wholeNumeral? (cs : List Char) : Option Int :=
  let cs := Text.numeralBody cs
  let fraction := (cs.dropWhile (· != '.')).drop 1
  if fraction.all (· == '0') then Text.wholeOfText? (cs.takeWhile (· != '.')) else none

/-- The whole number that a value is or writes. -/
def fittingInteger (v : Value) : Option Int :=
  let v := behind v
  match v.integer?, v.numeralChars?, v.whole with
  | some n, _, _ => some n
  | none, some cs, _ => wholeNumeral? cs
  | none, none, .ok n => if v.same (.int n) then some n else none
  | none, none, .error _ => none

/-- The text that a value is or encodes. -/
def fittingText (v : Value) : Option String :=
  match (behind v).text?, v.core with
  | some s, _ => some s
  | none, .bytes _ bs => (Text.decodeUtf8 bs).toOption
  | none, _ => none

/-- The truth value that a value is or writes. -/
def fittingTruth (v : Value) : Option Bool :=
  match v.core with
  | .bool b => some b
  | w =>
    match fittingText w with
    | some s => getKey? (String.ofList (s.toList.map Char.toLower)) truthWords
    | none =>
      if w.same (.int 0) then some false else if w.same (.int 1) then some true else none

/-- What a builtin type makes of one value. -/
def madeOf (b : Builtin) (v : Value) : Option Value :=
  (b.make b.facts.name [v]).toOption.join

/-- The decimal that a value is or writes; one that is not finite does not fit. -/
def fittingDecimal (v : Value) : Option Value :=
  let made := match v.core with
    | .bool _ => none
    | .float x => madeOf .decimal (.text x.text)
    | .int _ | .text _ | .decimal _ => madeOf .decimal v
    | _ => none
  made.filter fun d => match d with
    | .decimal (.finite ..) => true
    | _ => false

/-- **What a value becomes to fit a leaf type**, if it can be made to.  Brands over leaf types
look at values as these do. -/
def fit (b : Builtin) (v : Value) : Option Value :=
  match b, v.core with
  | .text, _ | .char, _ | .url, _ | .email, _ => (fittingText v).map .text
  | .truth, _ => (fittingTruth v).map .bool
  | .integer, _ | .int32, _ | .int64, _ | .uint32, _ | .uint64, _ => (fittingInteger v).map .int
  | .double, _ | .float32, _ | .float64, _ => madeOf .double (behind v)
  | .decimal, _ => fittingDecimal v
  | .date, .date d => some (.date d)
  | .date, .moment m => if m.clock == .midnight then some (.date m.date) else none
  | .date, .text s => (Date.ofText? s).map .date
  | .date, _ => none
  | .moment, .moment m => some (.moment m)
  | .moment, .date d => some (.moment ⟨d, .midnight⟩)
  | .moment, .text s => (Moment.ofText? s).map .moment
  | .moment, _ => none
  | .clock, .clock t => some (.clock t)
  | .clock, .text s => (Clock.ofText? s).map .clock
  | .clock, _ => none
  | .duration, .duration d => some (.duration d)
  | .duration, .int n => some (.duration (.ofParts 0 n 0))
  | .duration, _ => none
  | .bytes, .bytes _ bs => some (.bytes false bs)
  | .bytes, .text s => some (.bytes false s.toUTF8.toList)
  | .bytes, _ => none
  | .uuid, .uuid n => some (.uuid n)
  | .uuid, .text _ => madeOf .uuid v
  | .uuid, _ => none
  | .nothing, .null => some .null
  | .nothing, _ => none
  | _, _ => some v

/-- The items of a value that a collection can be made of. -/
def itemsFor (v : Value) : Option (List Value) :=
  match v.core with
  | .list xs | .tuple xs | .set _ xs => some xs
  | _ => none

/-- A collection of the given items; a collection of a kind that leaves the choice open stays
of the kind it is. -/
def collect (b : Builtin) (v : Value) (items : List Value) : Option Value :=
  match b.origin, v.core with
  | .list, _ => some (.list items)
  | .tuple, _ => some (.tuple items)
  | .set, _ => some (.set false (Value.distinctElements items))
  | .frozenSet, _ => some (.set true (Value.distinctElements items))
  | .sequence, .list _ | .mutableSequence, .list _ => some (.list items)
  | .sequence, .tuple _ => some (.tuple items)
  | _, _ => none

/-- Whether the items of a collection are looked into. -/
def isLookedInto (b : Builtin) : Bool :=
  match b.origin with
  | .list | .tuple | .set | .frozenSet | .sequence | .mutableSequence => true
  | _ => false

/-- What a value becomes to fit a collection of items of any kind. -/
def fitCollection (b : Builtin) (v : Value) : Option Value :=
  if b.isLookedInto then do b.collect v (← itemsFor v)
  else match b.origin with
    | .dict | .mapping | .mutableMapping => v.entries?.map fun _ => v
    | _ => b.fit v

end Builtin

namespace Token

/-- Of the outcomes of several types, the first one that leaves a value as it is, or else the
first. -/
def closest (v : Value) (outcomes : List Value) : Option Value :=
  (outcomes.find? v.sameKind) <|> outcomes.head?

mutual

/-- **What a value becomes to fit a type**, if it can be made to, given what fits declared
classes and brands. -/
def fit (declared : Token → Value → Option Value) : Token → Value → Option Value
  | .none, v => Builtin.nothing.fit v
  | .builtin b, v => b.fitCollection v
  | .declared i, v => declared (.declared i) v
  | .brand i, v => declared (.brand i) v
  | .generic (.builtin b) args, v =>
    if b.isLookedInto then do
      let items ← Builtin.itemsFor v
      b.collect v (← if b.origin = .tuple then fitTuple declared args items
        else fitItems declared args items)
    else match v.core with
      | .dict es => do return .dict (← fitEntries declared args es)
      | _ => some v
  | .union _ ts, v => closest v (fitEach declared ts v)
  | .literal ws, v => (ws.find? v.same).map fun w => if v.sameKind w then v else w
  | .annotated t _, v => fit declared t v
  | _, v => some v
termination_by structural t => t

/-- What a value becomes to fit each of some types that it can be made to fit. -/
def fitEach (declared : Token → Value → Option Value) : List Token → Value → List Value
  | [], _ => []
  | t :: ts, v => (fit declared t v).toList ++ fitEach declared ts v
termination_by structural ts => ts

/-- Items that are made to fit one type. -/
def fitItems (declared : Token → Value → Option Value) :
    List Token → List Value → Option (List Value)
  | [], vs => some vs
  | t :: _, vs => vs.mapM (fit declared t)
termination_by structural ts => ts

/-- The items of a tuple, each with a type of its own, or all with the one before dots. -/
def fitTuple (declared : Token → Value → Option Value) :
    List Token → List Value → Option (List Value)
  | [], [] => some []
  | [], _ :: _ => failure
  | t :: ts, vs =>
    if ts matches [.ellipsis] then vs.mapM (fit declared t)
    else match vs with
      | [] => failure
      | v :: vs => do return (← fit declared t v) :: (← fitTuple declared ts vs)
termination_by structural ts => ts

/-- Entries whose keys and values are made to fit two types. -/
def fitEntries (declared : Token → Value → Option Value) :
    List Token → List (Value × Value) → Option (List (Value × Value))
  | [], es => some es
  | t :: ts, es => do
    let keys ← es.mapM fun e => fit declared t e.1
    let values ← fitItems declared ts (es.map (·.2))
    return keys.zip values
termination_by structural ts => ts

end

end Token

end Schemata
