import Schemata.Value.Equality
import Schemata.Value.Spelling

/-!
# The published form of a value

`Value.jsonForm` turns a value into what a document can carry: truth values,
integers, doubles, texts, lists and mappings from texts.  Everything with an
agreed text becomes that text (dates, spans, identifiers, decimals, bytes), every
collection a list, every record a mapping, a member of an enumeration its value,
and an object nothing is known about the text it describes itself with.

A double stays a double, even an infinite one; whether the document can be
written is decided where it is written.

The keys of a mapping become texts by `Value.keyText`.  Where two keys become one
text, the later value stands, at the place of the earlier key.
-/

namespace Schemata

/-- Set a key of an ordered mapping: in place when it is there, at the end when it
is not.  The key that is there stays. -/
def setKey {κ α : Type} [BEq κ] (k : κ) (v : α) : List (κ × α) → List (κ × α)
  | [] => [(k, v)]
  | (k', v') :: r => if k' == k then (k', v) :: r else (k', v') :: setKey k v r

/-- Set several keys in turn. -/
def setKeys {κ α : Type} [BEq κ] (entries : List (κ × α)) (m : List (κ × α)) : List (κ × α) :=
  entries.foldl (fun m e => setKey e.1 e.2 m) m

/-- The value at a key. -/
def getKey? {κ α : Type} [BEq κ] (k : κ) : List (κ × α) → Option α
  | [] => none
  | (k', v) :: r => if k' == k then some v else getKey? k r

namespace Value

/-- The published name of a field of a model. -/
def aliasOf (form : ObjectForm) (field : String) : String :=
  match form with
  | .model aliases => (getKey? field aliases).getD field
  | _ => field

mutual

/-- **The text of a mapping key.** -/
def keyText : Value → Except Fault String
  | .null => .ok "None"
  | .bool b => .ok (if b then "true" else "false")
  | .text s => .ok s
  | .bytes _ bs =>
    match Text.decodeUtf8 bs with
    | .ok s => .ok s
    | .error f => .error (.undecodable f)
  | .date d => .ok d.isoText
  | .moment m => .ok m.wireText
  | .clock t => .ok t.wireText
  | .duration d => .ok d.periodText
  | .tuple xs => do return ",".intercalate (← keyTexts xs)
  | .list _ => .error (.invalidKey "list")
  | .dict _ => .error (.invalidKey "dict")
  | .set frozen _ => .error (.invalidKey (if frozen then "frozenset" else "set"))
  | .member _ _ v => keyText v
  | .object label (some v) attributes =>
    if label.form == .plain then keyText v else .ok (display (.object label (some v) attributes))
  | v => .ok (display v)
termination_by structural v => v

/-- The texts of the parts of a composite key. -/
def keyTexts : List Value → Except Fault (List String)
  | [] => .ok []
  | x :: xs => do return (← keyText x) :: (← keyTexts xs)
termination_by structural xs => xs

end

mutual

/-- **The published form of a value.** -/
def jsonForm : Value → Except Fault Value
  | .null => .ok .null
  | .bool b => .ok (.bool b)
  | .int n => .ok (.int n)
  | .float x => .ok (.float x)
  | .decimal d => .ok (.text d.text)
  | .text s => .ok (.text s)
  | .bytes _ bs =>
    match Text.decodeUtf8 bs with
    | .ok s => .ok (.text s)
    | .error f => .error (.undecodable f)
  | .date d => .ok (.text d.isoText)
  | .moment m => .ok (.text m.wireText)
  | .clock t => .ok (.text t.wireText)
  | .duration d => .ok (.text d.periodText)
  | .uuid n => .ok (.text (uuidText n))
  | .list xs => do return .list (← jsonForms xs)
  | .tuple xs => do return .list (← jsonForms xs)
  | .set _ xs => do return .list (← jsonForms xs)
  | .dict es => do return .ofFields (setKeys (← jsonEntries es) [])
  | .member _ _ v => jsonForm v
  | .object label (some v) attributes =>
    if label.form == .plain then jsonForm v
    else do return .ofFields (setKeys (← jsonFields label.form attributes) [])
  | .object label none attributes =>
    if label.form == .plain then .ok (.text (display (.object label none attributes)))
    else do return .ofFields (setKeys (← jsonFields label.form attributes) [])
termination_by structural v => v

/-- The published forms of some values. -/
def jsonForms : List Value → Except Fault (List Value)
  | [] => .ok []
  | x :: xs => do return (← jsonForm x) :: (← jsonForms xs)
termination_by structural xs => xs

/-- The published forms of entries under the texts of their keys. -/
def jsonEntries : List (Value × Value) → Except Fault (List (String × Value))
  | [] => .ok []
  | (k, v) :: es => do return (← keyText k, ← jsonForm v) :: (← jsonEntries es)
termination_by structural es => es

/-- The published forms of fields under their published names. -/
def jsonFields (form : ObjectForm) :
    List (String × Value) → Except Fault (List (String × Value))
  | [] => .ok []
  | (n, v) :: fs => do return (aliasOf form n, ← jsonForm v) :: (← jsonFields form fs)
termination_by structural fs => fs

end

end Value

end Schemata
