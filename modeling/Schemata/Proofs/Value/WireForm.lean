import Schemata.Proofs.Declared.FieldType
import Schemata.Proofs.Descriptor.Reading
import Schemata.Value.Default

/-!
# What a schema wants a default to look like

Schemas are made from types and defaults from values, and neither looks at the other.  An
enumeration is published as the names of its members and a decimal as a number, wherever it stands
in a type.  So a default that is to fit its schema has names for the members that it is made of and
numbers for its decimals, wherever they stand in it: that is its *wire form* (`Value.wireForm`).

## Where the published form is another

`Value.literal` is what is published.  It takes this care of the value itself and leaves all that
is inside to `Value.jsonForm`, which has texts for decimals, since no digit is lost that way, and
the values of members rather than their names.  So a list of decimals is published as a list of
texts, under a schema that says that they are numbers.

`Value.isFaithful` says when that does not matter: there are no decimals inside the value, and every
member inside it has its own name for its value.  For values of the ordinary types of fields, what
is published is the wire form exactly in this case (`literal_eq_wireForm_iff`).
-/

namespace Schemata

namespace Value

mutual

/-- **What the schema of its type wants a value to look like.** -/
def wireForm : Value → Value
  | .decimal d =>
    match literalDecimal d with
    | .ok w => w
    | .error _ => .decimal d
  | .member _ name _ => .text name
  | .list xs => .list (wireForms xs)
  | .dict es => .dict (wireEntries es)
  | v => v
termination_by structural v => v

/-- The wire forms of some values. -/
def wireForms : List Value → List Value
  | [] => []
  | x :: xs => x.wireForm :: wireForms xs
termination_by structural xs => xs

/-- The wire forms of entries. -/
def wireEntries : List (Value × Value) → List (Value × Value)
  | [] => []
  | (k, v) :: es => (k, v.wireForm) :: wireEntries es
termination_by structural es => es

end

mutual

/-- Whether a value inside another is published in its wire form: it has no decimals, and the
members in it have their own names for their values. -/
def isFaithfulInside : Value → Bool
  | .decimal _ => false
  | .member _ name v =>
    match v.jsonForm with
    | .ok (.text s) => s == name
    | _ => false
  | .list xs => areFaithful xs
  | .dict es => haveFaithful es
  | _ => true
termination_by structural v => v

/-- Whether some values inside another are published in their wire forms. -/
def areFaithful : List Value → Bool
  | [] => true
  | x :: xs => x.isFaithfulInside && areFaithful xs
termination_by structural xs => xs

/-- Whether the values of entries are published in their wire forms. -/
def haveFaithful : List (Value × Value) → Bool
  | [] => true
  | (_, v) :: es => v.isFaithfulInside && haveFaithful es
termination_by structural es => es

end

/-- **Whether a default is published in its wire form**: a member and a decimal are, and any other
value is if what is inside it is. -/
def isFaithful : Value → Bool
  | .decimal _ => true
  | .member _ _ _ => true
  | v => v.isFaithfulInside

@[simp] theorem wireForms_eq_map (xs : List Value) : wireForms xs = xs.map wireForm := by
  induction xs with
  | nil => rfl
  | cons x xs ih => rw [wireForms, ih, List.map_cons]

@[simp] theorem wireForm_ofFields (es : List (String × Value)) :
    (ofFields es).wireForm = ofFields (es.map fun e => (e.1, e.2.wireForm)) := by
  have hentries : wireEntries (es.map fun e => (.text e.1, e.2)) =
      (es.map fun e => (e.1, e.2.wireForm)).map fun e => (.text e.1, e.2) := by
    induction es with
    | nil => rfl
    | cons e es ih => rw [List.map_cons, wireEntries, ih]; rfl
  show Value.dict (wireEntries _) = _
  rw [hentries]
  rfl

end Value

/-! ## Setting keys that are distinct -/

section Keys

variable {κ α : Type} [BEq κ] [LawfulBEq κ]

theorem setKey_of_not_mem {k : κ} {v : α} {m : List (κ × α)} (h : k ∉ m.map (·.1)) :
    setKey k v m = m ++ [(k, v)] := by
  induction m with
  | nil => rfl
  | cons e m ih =>
    obtain ⟨hne, hm⟩ := not_or.mp (List.mem_cons.not.mp h)
    rw [setKey, if_neg fun heq => hne (beq_iff_eq.mp heq).symm, ih hm, List.cons_append]

/-- Keys that are distinct and new are set behind those that are there. -/
theorem setKeys_of_nodup {es m : List (κ × α)} (h : ((m ++ es).map (·.1)).Nodup) :
    setKeys es m = m ++ es := by
  induction es generalizing m with
  | nil => exact (List.append_nil m).symm
  | cons e es ih =>
    have hnew : e.1 ∉ m.map (·.1) := by
      rw [List.map_append, List.nodup_append] at h
      exact fun hmem => h.2.2 e.1 hmem e.1 List.mem_cons_self rfl
    rw [setKeys, List.foldl_cons, setKey_of_not_mem hnew, ← setKeys, ih (by simpa using h)]
    simp

end Keys

/-! ## What is published -/

namespace Value

variable {v w : Value} {xs ws : List Value}

/-- Some values are published in their wire forms exactly if each of them is. -/
theorem jsonForms_eq_wireForms_iff (hxs : ∀ x ∈ xs, ∀ w, x.jsonForm = .ok w →
    (w = x.wireForm ↔ x.isFaithfulInside = true)) (h : jsonForms xs = .ok ws) :
    ws = wireForms xs ↔ areFaithful xs = true := by
  induction xs generalizing ws with
  | nil =>
    cases h
    exact ⟨fun _ => rfl, fun _ => rfl⟩
  | cons x xs ih =>
    obtain ⟨w, hw, h⟩ := exists_of_bind_eq_ok h
    obtain ⟨ws', hws, h⟩ := exists_of_bind_eq_ok h
    cases h
    have hhead := hxs x List.mem_cons_self w hw
    have htail := ih (fun y hy => hxs y (List.mem_cons_of_mem _ hy)) hws
    rw [wireForms, areFaithful, List.cons_eq_cons, Bool.and_eq_true, hhead, htail]

/-- Entries are published under their keys, and in their wire forms exactly if each of them is. -/
theorem jsonEntries_eq_wireForms_iff {es fs : List (String × Value)} (hes : ∀ e ∈ es, ∀ w,
    e.2.jsonForm = .ok w → (w = e.2.wireForm ↔ e.2.isFaithfulInside = true))
    (h : jsonEntries (es.map fun e => (.text e.1, e.2)) = .ok fs) :
    fs.map (·.1) = es.map (·.1) ∧ (fs = es.map (fun e => (e.1, e.2.wireForm)) ↔
      haveFaithful (es.map fun e => (.text e.1, e.2)) = true) := by
  induction es generalizing fs with
  | nil =>
    cases h
    exact ⟨rfl, fun _ => rfl, fun _ => rfl⟩
  | cons e es ih =>
    obtain ⟨k, hk, h⟩ := exists_of_bind_eq_ok h
    obtain ⟨w, hw, h⟩ := exists_of_bind_eq_ok h
    obtain ⟨fs', hfs, h⟩ := exists_of_bind_eq_ok h
    cases h
    cases hk
    obtain ⟨hnames, htail⟩ := ih (fun f hf => hes f (List.mem_cons_of_mem _ hf)) hfs
    have hhead := hes e List.mem_cons_self w hw
    refine ⟨congrArg (e.1 :: ·) hnames, ?_⟩
    rw [List.map_cons, List.map_cons, haveFaithful, List.cons_eq_cons, Bool.and_eq_true, ← hhead,
      ← htail, Prod.mk.injEq]
    exact and_congr_left fun _ => ⟨fun h => h.2, fun h => ⟨rfl, h⟩⟩

@[simp] theorem ofFields_inj {es fs : List (String × Value)} :
    ofFields es = ofFields fs ↔ es = fs := by
  constructor
  · intro h
    have hmap : es.map (fun f => (Value.text f.1, f.2)) = fs.map fun f => (.text f.1, f.2) :=
      Value.dict.inj h
    refine List.map_injective_iff.mpr (fun e f hef => ?_) hmap
    obtain ⟨hkey, hvalue⟩ := Prod.mk.inj hef
    exact Prod.ext (Value.text.inj hkey) hvalue
  · rintro rfl
    rfl

theorem literalDecimal_of_isNumber {d : Decimal} (h : d.IsNumber) :
    ∃ w, literalDecimal d = .ok w ∧
      ((∃ n, w = .int n) ∨ ∃ x, w = .float x ∧ x.isFinite = true) := by
  obtain ⟨⟨negative, coefficient, exponent, rfl⟩, hnumber⟩ := h
  unfold literalDecimal
  dsimp only
  cases hint : (Decimal.finite negative coefficient exponent).toInt? with
  | some n => exact ⟨_, rfl, .inl ⟨n, rfl⟩⟩
  | none =>
    rw [hint] at hnumber
    exact ⟨_, rfl, .inr ⟨_, rfl, hnumber.resolve_left Bool.false_ne_true⟩⟩

/-- **The published form of a value is its wire form** exactly if the value is faithful, for values
of ordinary types inside others. -/
theorem jsonForm_eq_wireForm_iff {p : Program} {t : FieldType} (hv : t.Takes p v)
    (h : v.jsonForm = .ok w) : w = v.wireForm ↔ v.isFaithfulInside = true := by
  induction t generalizing v w with
  | integer | text | truth =>
    obtain ⟨_, rfl⟩ := hv
    cases h
    exact ⟨fun _ => rfl, fun _ => rfl⟩
  | decimal =>
    obtain ⟨d, rfl, hd⟩ := hv
    cases h
    obtain ⟨w, hw, hnumber⟩ := literalDecimal_of_isNumber hd
    rw [wireForm, hw]
    rcases hnumber with ⟨n, rfl⟩ | ⟨x, rfl, -⟩ <;> exact ⟨nofun, nofun⟩
  | enumeration i =>
    obtain ⟨c, e, label, name, u, -, -, rfl, -, -⟩ := hv
    have hu : u.jsonForm = .ok w := h
    rw [wireForm, isFaithfulInside, hu]
    cases w with
    | text s => exact ⟨fun heq => beq_iff_eq.mpr (Value.text.inj heq), fun heq => by
        rw [beq_iff_eq.mp heq]⟩
    | _ => exact ⟨nofun, nofun⟩
  | optional _ _ t ih =>
    rcases hv with rfl | hv
    · cases h
      exact ⟨fun _ => rfl, fun _ => rfl⟩
    · exact ih hv h
  | list _ t ih =>
    obtain ⟨xs, rfl, hxs⟩ := hv
    obtain ⟨ws, hws, h⟩ := exists_of_bind_eq_ok h
    cases h
    rw [wireForm, isFaithfulInside, Value.list.injEq]
    exact jsonForms_eq_wireForms_iff (fun x hx _ hw => ih (hxs x hx) hw) hws
  | dict _ t ih =>
    obtain ⟨es, rfl, hnodup, hes⟩ := hv
    obtain ⟨fs, hfs, h⟩ := exists_of_bind_eq_ok h
    cases h
    obtain ⟨hnames, hiff⟩ := jsonEntries_eq_wireForms_iff (fun e he _ hw => ih (hes e he) hw) hfs
    rw [setKeys_of_nodup (by rw [List.nil_append, hnames]; exact hnodup), List.nil_append,
      wireForm_ofFields, ofFields_inj]
    exact hiff

/-- **A default is published in its wire form exactly if it is faithful.** -/
theorem literal_eq_wireForm_iff {p : Program} {t : FieldType} (hv : t.Takes p v)
    (h : v.literal = .ok w) : w = v.wireForm ↔ v.isFaithful = true := by
  induction t generalizing v w with
  | integer | text | truth =>
    obtain ⟨_, rfl⟩ := hv
    cases h
    exact ⟨fun _ => rfl, fun _ => rfl⟩
  | decimal =>
    obtain ⟨d, rfl, -⟩ := hv
    have hw : literalDecimal d = .ok w := h
    rw [wireForm, hw]
    exact ⟨fun _ => rfl, fun _ => rfl⟩
  | enumeration i =>
    obtain ⟨c, e, label, name, u, -, -, rfl, -, -⟩ := hv
    cases h
    exact ⟨fun _ => rfl, fun _ => rfl⟩
  | optional _ _ t ih =>
    rcases hv with rfl | hv
    · cases h
      exact ⟨fun _ => rfl, fun _ => rfl⟩
    · exact ih hv h
  | list aliased t =>
    obtain ⟨xs, rfl, hxs⟩ := hv
    exact jsonForm_eq_wireForm_iff (t := .list aliased t) ⟨xs, rfl, hxs⟩ h
  | dict aliased t =>
    obtain ⟨es, rfl, hes⟩ := hv
    exact jsonForm_eq_wireForm_iff (t := .dict aliased t) ⟨es, rfl, hes⟩ h

end Value

end Schemata
