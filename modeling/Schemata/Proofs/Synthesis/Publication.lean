import Schemata.Proofs.Synthesis.Instances
import Schemata.Proofs.Schema.Mentions

/-!
# What a declaration is published as

A synthesis works on a session: it looks up what has been stored, waits for types that are being
visited, and fills objects step by step.  `Lexicon.publish` says what comes out of all this without
a session.  It asks of a lexicon what the types are, and is otherwise a function of the declaration.

* `Lexicon.standIn` is what stands for a type: a reference to its name if it is published under one,
  and otherwise what is put in its place.
* `Lexicon.member` is what an object shows for one of its properties, and `ObjectParts.holding` an
  object with all its members at once: properties in the order declared, the names that are
  required without repeats, and for the properties that take all undeclared ones nothing but what
  is accepted besides.
* `Lexicon.inPlace` is what is put in the place of a type that is not published under a name: a
  leaf, a wrapper, another name for its base, or an array of compositions.  An array whose own
  properties lead to it again is cut off there with an empty object, and for this the arrays that
  are open are passed along.

Here the lexicon is that of a session: the questions are put to one that has nothing but the
readings (`Environment.toldBy`).  Where a session settles the answer, this is the answer
(`told_eq_some`).  What the declarations say by themselves is another lexicon.
-/

namespace Schemata

open Environment (ObjectParts mapInner catchAllValue)

/-- **What a computation answers on the strength of some readings**, if it needs no others. -/
def Build.told {α : Type} (g : List (Token × Descriptor)) (x : Build α) : Option α :=
  match x ⟨{ readings := g }, []⟩ with
  | .ok a w => if w.session.readings.length = g.length then some a else none
  | .error _ _ => none

/-- **What there is to know about types**: what a token stands for, the kind of leaf that the bases
of a type end at, the schema of a type whose bases end at one, and whether defaults are published.
An answer may be missing. -/
structure Lexicon where
  describe : Token → Option Descriptor
  kind : Descriptor → Option (Option Kind)
  leaf : Descriptor → Kind → Option Node
  capturing : Bool

/-- What some readings tell about types. -/
def Environment.toldBy (env : Environment) (g : List (Token × Descriptor)) : Lexicon where
  describe t := Build.told g (env.describe t)
  kind d := Build.told g (env.primitiveKind d)
  leaf d k := Build.told g (env.namedLeaf d k)
  capturing := env.captureDefaults

/-- The annotations of some records laid on a node. -/
def Constraints.laid (records : List Record) (n : Node) : Option Node := do
  return (← (merge records).toOption).apply n

/-! ## Objects -/

/-- A property of an object with its constraints, and the node that is shown for it. -/
structure Member where
  property : Property
  constraints : Constraints
  node : Node

namespace Member

/-- Whether a member is shown under its name. -/
def isOwn (m : Member) : Bool :=
  !m.property.catchAll

/-- Whether an object must have a member. -/
def isRequired (m : Member) : Bool :=
  m.isOwn && (m.property.required || m.constraints.requiredProperty)

/-- What a member lets an object accept besides. -/
def rest? (m : Member) : Option Node :=
  if m.isOwn then none else (catchAllValue m.node).map m.constraints.apply

/-- Whether a member lets an object accept anything besides. -/
def takesAnything (m : Member) : Bool :=
  !m.isOwn && (catchAllValue m.node).isNone

end Member

/-- **An object with all its members.** -/
def Environment.ObjectParts.holding (o : ObjectParts) (ms : List Member) : ObjectParts where
  keywords :=
    let names := (ms.filter Member.isRequired).map fun m => (m.property.name : Wording)
    { o.keywords with required := Constraints.appendNames o.keywords.required names }
  properties := setKeys ((ms.filter Member.isOwn).map fun m => (m.property.name, m.node))
    o.properties
  additional := (ms.filterMap Member.rest?).getLast?.or o.additional
  additionalAllowed := if ms.any Member.takesAnything then some true else o.additionalAllowed

@[simp] theorem Environment.ObjectParts.holding_nil (o : ObjectParts) : o.holding [] = o := by
  unfold ObjectParts.holding
  rw [List.filterMap_nil, List.getLast?_nil, Option.none_or]
  rfl

/-- A member that takes all undeclared properties is added. -/
theorem Environment.ObjectParts.holding_cons_of_catchAll (o : ObjectParts) {m : Member}
    (ms : List Member) (h : m.property.catchAll = true) :
    o.holding (m :: ms) = (o.accepting m.constraints m.node).holding ms := by
  have hown : m.isOwn = false := by rw [Member.isOwn, h]; rfl
  have hrequired : m.isRequired = false := by rw [Member.isRequired, hown]; rfl
  unfold ObjectParts.holding
  rw [List.filter_cons_of_neg (by simp only [hrequired]; exact Bool.false_ne_true),
    List.filter_cons_of_neg (by simp only [hown]; exact Bool.false_ne_true),
    List.filterMap_cons, List.any_cons, Member.rest?, Member.takesAnything, hown]
  unfold ObjectParts.accepting
  cases catchAllValue m.node with
  | none =>
    simp only [Option.map_none, Bool.false_eq_true, Option.isNone_none, Bool.not_false,
      Bool.and_self, Bool.true_or, if_true, ite_self]
  | some value =>
    have hlast (o : Option Node) (vs : List Node) :
        (m.constraints.apply value :: vs).getLast?.or o =
          vs.getLast?.or (some (m.constraints.apply value)) := by
      rw [List.getLast?_cons]
      cases vs.getLast? <;> rfl
    simp only [Option.map_some, Bool.false_eq_true, if_false, Option.isNone_some, Bool.and_false,
      Bool.false_or, hlast]

/-- A member that is shown under its name is added. -/
theorem Environment.ObjectParts.holding_cons_of_own (o : ObjectParts) {m : Member}
    (ms : List Member) (h : m.property.catchAll = false) :
    o.holding (m :: ms) = (o.adding m.property m.constraints m.node).holding ms := by
  have hown : m.isOwn = true := by rw [Member.isOwn, h]; rfl
  have hrest : m.rest? = none := by rw [Member.rest?, hown]; rfl
  have hanything : m.takesAnything = false := by rw [Member.takesAnything, hown]; rfl
  unfold ObjectParts.holding ObjectParts.adding
  rw [List.filter_cons_of_pos hown, List.filterMap_cons, hrest, List.any_cons, hanything,
    Bool.false_or]
  cases hrequired : m.property.required || m.constraints.requiredProperty with
  | true =>
    rw [List.filter_cons_of_pos (by rw [Member.isRequired, hown, hrequired]; rfl)]
    rfl
  | false =>
    rw [List.filter_cons_of_neg
      (by rw [Member.isRequired, hown, hrequired]; exact Bool.false_ne_true)]
    rfl

/-! ## Types -/

namespace Lexicon

variable (L : Lexicon)

/-- Whether a type is published under its name. -/
def publishes? (d : Descriptor) : Option Bool :=
  if d.shape.isInline then some false
  else do
    if (← L.kind d).isSome then return false
    else if d.base.isNone then return true
    else if d.properties.isEmpty then return false
    else return !(← (Constraints.merge d.annotations).toOption).array

section

variable (place : Descriptor → Option Node)

/-- What stands for a type, given what is put in the place of types. -/
def standFor (d : Descriptor) : Option Node := do
  if ← L.publishes? d then return .refTo d.name else place d

/-- **What stands for the type of a token.** -/
def standIn (t : Token) : Option Node := do
  L.standFor place (← L.describe t)

/-- **What an object shows for a property.** -/
def member (d : Descriptor) (q : Property) : Option Member := do
  let c ← (Constraints.merge q.annotations).toOption
  let held ← L.standIn place q.type
  if q.catchAll then return ⟨q, c, held⟩
  else return ⟨q, c, ← (q.dressed L.capturing d.made c held).toOption⟩

/-- What an object shows for some of its properties. -/
def members (d : Descriptor) (qs : List Property) : Option (List Member) :=
  qs.mapM (L.member place d)

/-- A map to what stands for the type of its values. -/
def mapInPlace (d : Descriptor) : Option Node := do
  let value ← L.describe (mapInner d)
  if value.shape = .primitive ∧ value.kind = some .any then
    return .object {} [] none (some true)
  else
    return .object {} [] (some (← L.standFor place value)) none

end

/-- An array of compositions of a base and an object. -/
def compositions (c : Constraints) (base : Node) (o : ObjectParts) : Node :=
  Constraints.apply { c with required := [] } (.array {} (.composition [base, o.toNode] none none))

/-- What is put in the place of a type with a base, given what is put in the place of types while
some arrays are open. -/
def derivedInPlace (below : List Key → Descriptor → Option Node) (opened : List Key)
    (d : Descriptor) : Option Node := do
  match ← L.kind d with
  | some kind => L.leaf d kind
  | none =>
    let c ← (Constraints.merge d.annotations).toOption
    let base ← d.base
    if d.properties.isEmpty then
      let n ← L.standIn (below opened) base
      return c.apply (if c.array then .array {} n else n)
    else if d.key.isAmong opened then return .emptyObject
    else
      let n ← L.standIn (below opened) base
      let ms ← L.members (below (d.key :: opened)) d d.properties
      return compositions c n (((ObjectParts.ofNode .emptyObject).requiring c.required).holding ms)

/-- What is put in the place of a type, given what is put in the place of types below it. -/
def inPlaceOver (below : List Key → Descriptor → Option Node) (opened : List Key)
    (d : Descriptor) : Option Node :=
  match d.shape with
  | .nullable => return (← L.standIn (below opened) d.inner).makeNullable
  | .primitive => Constraints.laid d.annotations (d.kind.getD .any).schema
  | .unknown => Constraints.laid d.annotations .untyped
  | .array => do
    let items ← L.standIn (below opened) d.inner
    Constraints.laid d.annotations (.array { uniqueItems := d.uniqueItems } items)
  | .map => do Constraints.laid d.annotations (← L.mapInPlace (below opened) d)
  | .enum | .object => L.derivedInPlace below opened d

/-- **What is put in the place of a type** with no more than a number of types below one another,
while some arrays are open. -/
def inPlace : Nat → List Key → Descriptor → Option Node
  | 0 => fun _ _ => none
  | n + 1 => L.inPlaceOver (inPlace n)

/-- **What a declaration is published as**, with no more than a number of types below one another.
An enumeration is a text that is one of the names of its members.  An object has its members, and if
it has a base, then it is the composition of what stands for the base and of the object, which
leaves its title and its description to the whole. -/
def publish (levels : Nat) (d : Descriptor) : Option Node :=
  if d.shape = .enum then
    Constraints.laid d.annotations (.leaf { choices := d.members.map .text } (some .string))
  else do
    let place := L.inPlace levels []
    let c ← (Constraints.merge d.annotations).toOption
    let base ← d.base.mapM (L.standIn place)
    let ms ← L.members place d d.properties
    return ((ObjectParts.ofNode (c.apply .emptyObject)).holding ms).over base

end Lexicon

/-! ## Answers -/

variable {env : Environment} {s : Session} {d : Descriptor}

/-- **A settled answer is told** on the strength of the readings of the session. -/
theorem Build.Reads.told_eq_some {α : Type} {x : Build α} (hx : Build.Reads env x) {a : α} :
    Build.told s.readings x = some a ↔ s.Settles x a := by
  constructor
  · intro h
    unfold Build.told at h
    split at h
    next b w hrun =>
      split at h
      next hlength =>
        cases h
        have hbelow : s.Below w.session := (hx.learns.ok hrun).below
        have hreadings : s.readings = w.session.readings := hbelow.eq_of_length hlength.symm
        intro v hv
        refine hx.settles hrun v ?_
        rwa [Session.Below, ← hreadings]
      next => cases h
    next => cases h
  · intro h
    rw [Build.told, h ⟨{ readings := s.readings }, []⟩ (.refl s)]
    exact if_pos rfl

namespace Environment

open Build

theorem told_describe {t : Token} (h : s.Settles (env.describe t) d) :
    (env.toldBy s.readings).describe t = some d :=
  (reads_describe t).told_eq_some.mpr h

theorem told_kind {kind : Option Kind} (h : s.Settles (env.primitiveKind d) kind) :
    (env.toldBy s.readings).kind d = some kind :=
  (reads_primitiveKind d).told_eq_some.mpr h

end Environment

namespace Lexicon

variable {L : Lexicon}

theorem publishes?_of_inline (hshape : d.shape.isInline = true) : L.publishes? d = some false := by
  rw [publishes?, if_pos hshape]

/-- What is asked of a type that may be published by its shape. -/
theorem publishes?_of_kind {kind : Option Kind} (hshape : d.shape.isInline = false)
    (hkind : L.kind d = some kind) : L.publishes? d =
      if kind.isSome then some false
      else if d.base.isNone then some true
      else if d.properties.isEmpty then some false
      else (Constraints.merge d.annotations).toOption.map fun c => !c.array := by
  rw [publishes?, if_neg (by rw [hshape]; exact Bool.false_ne_true), hkind]
  cases kind with
  | some k => rfl
  | none =>
    dsimp only [bind, Option.bind]
    split
    · rfl
    split
    · rfl
    · cases (Constraints.merge d.annotations).toOption <;> rfl

theorem publishes?_of_leaf {kind : Kind} (hshape : d.shape.isInline = false)
    (hkind : L.kind d = some (some kind)) : L.publishes? d = some false :=
  publishes?_of_kind hshape hkind

theorem publishes?_of_root (hshape : d.shape.isInline = false) (hkind : L.kind d = some none)
    (hbase : d.base = none) : L.publishes? d = some true := by
  rw [publishes?_of_kind hshape hkind, hbase]
  rfl

/-- Another name for a base is not published under it. -/
theorem publishes?_of_renamed (hshape : d.shape.isInline = false) (hkind : L.kind d = some none)
    (hbase : d.base ≠ none) (hproperties : d.properties = []) : L.publishes? d = some false := by
  obtain ⟨t, ht⟩ := Option.ne_none_iff_exists'.mp hbase
  rw [publishes?_of_kind hshape hkind, ht, hproperties]
  rfl

/-- What is asked of a type with a base and properties whose bases do not end at a leaf. -/
theorem publishes?_of_merge {c : Constraints} (hshape : d.shape.isInline = false)
    (hkind : L.kind d = some none) (hbase : d.base ≠ none) (hproperties : d.properties ≠ [])
    (hmerge : Constraints.merge d.annotations = .ok c) : L.publishes? d = some !c.array := by
  obtain ⟨t, ht⟩ := Option.ne_none_iff_exists'.mp hbase
  rw [publishes?_of_kind hshape hkind, ht, hmerge,
    if_neg (by simp), if_neg (by simp), if_neg (by rwa [List.isEmpty_iff])]
  rfl

theorem members_cons {place : Descriptor → Option Node} {q : Property}
    {qs : List Property} {e : Member} {ms : List Member} (hq : L.member place d q = some e)
    (hqs : L.members place d qs = some ms) :
    L.members place d (q :: qs) = some (e :: ms) := by
  unfold members at hqs ⊢
  rw [List.mapM_cons, hq, hqs]
  rfl

theorem standFor_of_not {place : Descriptor → Option Node} (h : L.publishes? d = some false) :
    L.standFor place d = place d := by
  rw [standFor, h]
  rfl

theorem standFor_of_published (place : Descriptor → Option Node) (h : L.publishes? d = some true) :
    L.standFor place d = some (.refTo d.name) := by
  rw [standFor, h]
  rfl

end Lexicon

namespace Environment

open Build
open Lexicon (inPlaceOver derivedInPlace mapInPlace compositions)

theorem publishes?_of_published (h : Published env s d) :
    (env.toldBy s.readings).publishes? d = some true := by
  by_cases hbase : d.base = none
  · exact Lexicon.publishes?_of_root h.shape (told_kind h.kind) hbase
  · obtain ⟨hproperties, c, hmerge, harray⟩ := h.base.resolve_left hbase
    rw [Lexicon.publishes?_of_merge h.shape (told_kind h.kind) hbase hproperties hmerge, harray]
    rfl

theorem publishes?_of_arrayed (h : Arrayed env s d) :
    (env.toldBy s.readings).publishes? d = some false := by
  obtain ⟨c, hmerge, harray⟩ := h.array
  rw [Lexicon.publishes?_of_merge h.shape (told_kind h.kind) h.base h.properties hmerge, harray]
  rfl

/-! ## What is put in the place of a type -/

section

variable {n : Nat} {opened : List Key}

theorem inPlace_eq_derived (hshape : d.shape.isInline = false) :
    (env.toldBy s.readings).inPlace (n + 1) opened d =
      (env.toldBy s.readings).derivedInPlace ((env.toldBy s.readings).inPlace n) opened d := by
  rw [Lexicon.inPlace, inPlaceOver]
  cases h : d.shape with
  | enum | object => rfl
  | primitive | nullable | array | map | unknown =>
    rw [h] at hshape
    cases hshape

theorem laid_of_merge {records : List Record} {c : Constraints}
    (h : Constraints.merge records = .ok c) (m : Node) :
    Constraints.laid records m = some (c.apply m) := by
  rw [Constraints.laid, h]
  rfl

theorem standIn_of_describe (place : Descriptor → Option Node) {t : Token}
    (h : s.Settles (env.describe t) d) :
    (env.toldBy s.readings).standIn place t = (env.toldBy s.readings).standFor place d := by
  rw [Lexicon.standIn, told_describe h]
  rfl

/-- A leaf is put in its own place. -/
theorem inPlace_of_plain {m : Node} (h : Plain env s d m) :
    (env.toldBy s.readings).publishes? d = some false ∧
      (env.toldBy s.readings).inPlace (n + 1) opened d = some m := by
  cases h with
  | primitive hshape hmerge =>
    refine ⟨Lexicon.publishes?_of_inline (by rw [hshape]; rfl), ?_⟩
    rw [Lexicon.inPlace, inPlaceOver, hshape]
    exact laid_of_merge hmerge _
  | unknown hshape hmerge =>
    refine ⟨Lexicon.publishes?_of_inline (by rw [hshape]; rfl), ?_⟩
    rw [Lexicon.inPlace, inPlaceOver, hshape]
    exact laid_of_merge hmerge _
  | @named kind _ hshape hkind hleaf =>
    refine ⟨Lexicon.publishes?_of_leaf hshape (told_kind hkind), ?_⟩
    rw [inPlace_eq_derived hshape, derivedInPlace, told_kind hkind]
    exact (reads_namedLeaf d kind).told_eq_some.mpr hleaf

/-- A wrapper is put in its own place, around what stands for the type inside it. -/
theorem inPlace_of_wraps {inner : Descriptor} {t : Token} {m node : Node}
    (h : Wraps env s d t m node)
    (hvalue : d.shape = .map → ¬ (inner.shape = .primitive ∧ inner.kind = some .any))
    (hinner : s.Settles (env.describe t) inner)
    (hm : (env.toldBy s.readings).standFor
      ((env.toldBy s.readings).inPlace n opened) inner = some m) :
    (env.toldBy s.readings).publishes? d = some false ∧
      (env.toldBy s.readings).inPlace (n + 1) opened d = some node := by
  have hstand := (standIn_of_describe ((env.toldBy s.readings).inPlace n opened) hinner).trans hm
  cases h with
  | nullable hshape =>
    refine ⟨Lexicon.publishes?_of_inline (by rw [hshape]; rfl), ?_⟩
    rw [Lexicon.inPlace, inPlaceOver, hshape]
    dsimp only
    rw [hstand]
    rfl
  | array hshape hmerge =>
    refine ⟨Lexicon.publishes?_of_inline (by rw [hshape]; rfl), ?_⟩
    rw [Lexicon.inPlace, inPlaceOver, hshape]
    dsimp only
    rw [hstand]
    exact laid_of_merge hmerge _
  | map hshape hmerge =>
    refine ⟨Lexicon.publishes?_of_inline (by rw [hshape]; rfl), ?_⟩
    rw [Lexicon.inPlace, inPlaceOver, hshape]
    dsimp only
    rw [mapInPlace, told_describe hinner]
    dsimp only [bind, Option.bind]
    rw [if_neg (hvalue hshape), hm]
    exact laid_of_merge hmerge _
  | renamed hshape hbase hkind hmerge hproperties =>
    refine ⟨Lexicon.publishes?_of_renamed hshape (told_kind hkind) (by rw [hbase]; exact nofun)
      hproperties, ?_⟩
    rw [inPlace_eq_derived hshape, derivedInPlace, told_kind hkind, hmerge, hbase, hproperties]
    dsimp only [bind, Option.bind, Except.toOption]
    rw [if_pos List.isEmpty_nil, hstand]
    rfl

/-- A map to values of any kind. -/
theorem inPlace_of_anyMap {inner : Descriptor} {c : Constraints} (hshape : d.shape = .map)
    (hinner : s.Settles (env.describe (mapInner d)) inner)
    (hany : inner.shape = .primitive ∧ inner.kind = some .any)
    (hmerge : Constraints.merge d.annotations = .ok c) :
    (env.toldBy s.readings).publishes? d = some false ∧
      (env.toldBy s.readings).inPlace (n + 1) opened d =
        some (c.apply (.object {} [] none (some true))) := by
  refine ⟨Lexicon.publishes?_of_inline (by rw [hshape]; rfl), ?_⟩
  rw [Lexicon.inPlace, inPlaceOver, hshape]
  dsimp only
  rw [mapInPlace, told_describe hinner]
  dsimp only [bind, Option.bind]
  rw [if_pos hany]
  exact laid_of_merge hmerge _

/-- An array of compositions that is open is cut off. -/
theorem inPlace_of_opened (h : Arrayed env s d) (hopened : d.key.isAmong opened = true) :
    (env.toldBy s.readings).inPlace (n + 1) opened d = some .emptyObject := by
  obtain ⟨c, hmerge, -⟩ := h.array
  obtain ⟨t, hbase⟩ := Option.ne_none_iff_exists'.mp h.base
  rw [inPlace_eq_derived h.shape, derivedInPlace,
    told_kind h.kind, hmerge, hbase]
  dsimp only [bind, Option.bind, Except.toOption]
  rw [if_neg (by rw [List.isEmpty_iff]; exact h.properties), if_pos hopened]
  rfl

/-- An array of compositions that is not open is opened. -/
theorem inPlace_of_derived {b : Descriptor} {base : Token} {c : Constraints} {m : Node}
    {ms : List Member} (h : Derived env s d base c) (hopened : d.key.isAmong opened = false)
    (hdescribe : s.Settles (env.describe base) b)
    (hm : (env.toldBy s.readings).standFor ((env.toldBy s.readings).inPlace n opened) b = some m)
    (hms : (env.toldBy s.readings).members
      ((env.toldBy s.readings).inPlace n (d.key :: opened)) d d.properties = some ms) :
    (env.toldBy s.readings).inPlace (n + 1) opened d =
      some (compositions c m
        (((ObjectParts.ofNode .emptyObject).requiring c.required).holding ms)) := by
  have hstand := (standIn_of_describe ((env.toldBy s.readings).inPlace n opened) hdescribe).trans hm
  rw [inPlace_eq_derived h.shape, derivedInPlace,
    told_kind h.kind, h.merge, h.base]
  dsimp only [bind, Option.bind, Except.toOption]
  rw [if_neg (by rw [List.isEmpty_iff]; exact h.properties),
    if_neg (by rw [hopened]; exact Bool.false_ne_true), hstand, hms]
  rfl

theorem publish_of_enum {c : Constraints} (hshape : d.shape = .enum)
    (hmerge : Constraints.merge d.annotations = .ok c) :
    (env.toldBy s.readings).publish env.levels d =
      some (c.apply (.leaf { choices := d.members.map .text } (some .string))) := by
  rw [Lexicon.publish, if_pos hshape]
  exact laid_of_merge hmerge _

theorem publish_of_object {base : Option Node} {c : Constraints} {ms : List Member}
    (hshape : d.shape ≠ .enum) (hmerge : Constraints.merge d.annotations = .ok c)
    (hbase : d.base.mapM ((env.toldBy s.readings).standIn
      ((env.toldBy s.readings).inPlace env.levels [])) = some base)
    (hms : (env.toldBy s.readings).members
      ((env.toldBy s.readings).inPlace env.levels []) d d.properties = some ms) :
    (env.toldBy s.readings).publish env.levels d =
      some (((ObjectParts.ofNode (c.apply .emptyObject)).holding ms).over base) := by
  rw [Lexicon.publish, if_neg hshape, hmerge]
  dsimp only [bind, Option.bind, Except.toOption]
  rw [hbase, hms]
  rfl

end

end Environment

end Schemata
