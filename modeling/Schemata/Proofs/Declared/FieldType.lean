import Schemata.Declared.Program
import Mathlib.Data.List.Basic

/-!
# Ordinary types of fields

The types that fields mostly have are built from a few leaves --- whole numbers, texts, truth
values, decimals and enumerations --- with lists, mappings from texts, and unions with null.  A
`FieldType` is the syntax of such a type and `FieldType.token` the token that it is written as;
`FieldType.Takes` says which values are of the type.

A token is read once, and tokens that are the same share the reading of the first.  So what has to
be known about an ordinary type is known of all tokens that are the same as its own.  Their heads
are those of the type and their arguments are again the same as ordinary types (`same_list`,
`same_dict`).  A union is a set, though, and of a token that is the same as a union with null no
more can be said than that each of its two members is the one or the other (`same_optional`).

## Which values a type takes

Values are taken as they are declared: a truth value is no whole number here, although it can stand
for one, and neither is a member of an enumeration that mixes numbers in.  Of the decimals those are
taken that are a number for every reader: whole ones, and those with a fraction that lie in the
range of doubles.  Of the members of an enumeration those are taken that it lists; a set of several
bits is not among them.
-/

namespace Schemata

/-- **The ordinary types of fields.**  Each of the ways to write the same type is a type of its own:
a union with null can be written in two notations and two orders, and a collection has an alias. -/
inductive FieldType where
  | integer
  | text
  | truth
  | decimal
  /-- A declared enumeration, by its place among the declarations. -/
  | enumeration (index : Nat)
  | optional (piped nullFirst : Bool) (of : FieldType)
  | list (aliased : Bool) (of : FieldType)
  /-- A mapping from texts. -/
  | dict (aliased : Bool) (of : FieldType)

/-- A decimal that is a number for every reader. -/
def Decimal.IsNumber (d : Decimal) : Prop :=
  (∃ negative coefficient exponent, d = .finite negative coefficient exponent) ∧
    (d.toInt?.isSome ∨ (Binary64.ofDecimal d).isFinite)

namespace FieldType

/-- The token that a type is written as. -/
def token : FieldType → Token
  | integer => .builtin .integer
  | text => .builtin .text
  | truth => .builtin .truth
  | decimal => .builtin .decimal
  | enumeration i => .declared i
  | optional piped nullFirst t =>
    .union piped (if nullFirst then [.builtin .nothing, t.token] else [t.token, .builtin .nothing])
  | list aliased t => .generic (.builtin (if aliased then .listAlias else .list)) [t.token]
  | dict aliased t =>
    .generic (.builtin (if aliased then .dictAlias else .dict)) [.builtin .text, t.token]

/-- **A value is of a type**, in a program. -/
def Takes (p : Program) : FieldType → Value → Prop
  | integer, v => ∃ n, v = .int n
  | text, v => ∃ s, v = .text s
  | truth, v => ∃ b, v = .bool b
  | decimal, v => ∃ d, v = .decimal d ∧ d.IsNumber
  | enumeration i, v => ∃ c e label name w, p.classes[i]? = some c ∧ c.form = .enumeration e ∧
      v = .member label name w ∧ v ∈ e.members.map (·.2) ∧ name ∈ e.listed
  | optional _ _ t, v => v = .null ∨ t.Takes p v
  | list _ t, v => ∃ xs, v = .list xs ∧ ∀ x ∈ xs, t.Takes p x
  | dict _ t, v => ∃ es, v = .ofFields es ∧ (es.map (·.1)).Nodup ∧ ∀ e ∈ es, t.Takes p e.2

end FieldType

/-! ## Tokens that are the same -/

namespace Token

variable {a b : Token} {h : Head} {piped : Bool} {ts : List Token}

/-- What is the same as a builtin type is that type. -/
theorem eq_of_same_builtin {b : Builtin} (hsame : a.same (.builtin b) = true) :
    a = .builtin b := by
  cases a with
  | builtin b' => rw [eq_of_beq (show (b' == b) = true from hsame)]
  | _ => cases hsame

/-- What is the same as a declared class is that class. -/
theorem eq_of_same_declared {i : Nat} (hsame : a.same (.declared i) = true) : a = .declared i := by
  cases a with
  | declared j => rw [eq_of_beq (show (j == i) = true from hsame)]
  | _ => cases hsame

/-- What is the same as a generic type has its head, and as many arguments. -/
theorem same_generic : a.same (.generic h ts) = true ↔
    ∃ us, a = .generic h us ∧ us.length = ts.length ∧ sameAll us ts = true := by
  constructor
  · intro hsame
    cases a with
    | generic h' us =>
      have hall : ((h' == h) && us.length == ts.length && sameAll us ts) = true := hsame
      rw [Bool.and_eq_true, Bool.and_eq_true] at hall
      obtain ⟨⟨hhead, hlength⟩, hargs⟩ := hall
      rw [eq_of_beq hhead]
      exact ⟨us, rfl, eq_of_beq hlength, hargs⟩
    | _ => cases hsame
  · rintro ⟨us, rfl, hlength, hargs⟩
    show ((h == h) && us.length == ts.length && sameAll us ts) = true
    rw [hlength, hargs, beq_self_eq_true, beq_self_eq_true]
    rfl

/-- What is the same as a union has as many members, and each is among its members. -/
theorem same_union : a.same (.union piped ts) = true ↔
    ∃ piped' us, a = .union piped' us ∧ us.length = ts.length ∧ allAmong us ts = true := by
  constructor
  · intro hsame
    cases a with
    | union piped' us =>
      have hall : (us.length == ts.length && allAmong us ts) = true := hsame
      rw [Bool.and_eq_true] at hall
      exact ⟨piped', us, rfl, eq_of_beq hall.1, hall.2⟩
    | _ => cases hsame
  · rintro ⟨piped', us, rfl, hlength, hmembers⟩
    show (us.length == ts.length && allAmong us ts) = true
    rw [hlength, hmembers, beq_self_eq_true]
    rfl

end Token

namespace FieldType

variable {a b : Token} {aliased piped nullFirst : Bool} {t : FieldType}

theorem same_list : a.same (list aliased t).token = true ↔ ∃ u,
    a = .generic (.builtin (if aliased then .listAlias else .list)) [u] ∧
      u.same t.token = true := by
  refine Token.same_generic.trans ⟨?_, ?_⟩
  · rintro ⟨us, rfl, hlength, hargs⟩
    obtain ⟨u, rfl⟩ := List.length_eq_one_iff.mp hlength
    exact ⟨u, rfl, (Bool.and_eq_true _ _ ▸ hargs).1⟩
  · rintro ⟨u, rfl, hu⟩
    exact ⟨[u], rfl, rfl, Bool.and_eq_true _ _ ▸ ⟨hu, rfl⟩⟩

theorem same_dict : a.same (dict aliased t).token = true ↔ ∃ u,
    a = .generic (.builtin (if aliased then .dictAlias else .dict)) [.builtin .text, u] ∧
      u.same t.token = true := by
  refine Token.same_generic.trans ⟨?_, ?_⟩
  · rintro ⟨us, rfl, hlength, hargs⟩
    obtain ⟨k, u, rfl⟩ := List.length_eq_two.mp hlength
    obtain ⟨hk, hu⟩ := Bool.and_eq_true _ _ ▸ hargs
    obtain ⟨hu, -⟩ := Bool.and_eq_true _ _ ▸ hu
    rw [Token.eq_of_same_builtin hk]
    exact ⟨u, rfl, hu⟩
  · rintro ⟨u, rfl, hu⟩
    exact ⟨_, rfl, rfl, Bool.and_eq_true _ _ ▸ ⟨rfl, Bool.and_eq_true _ _ ▸ ⟨hu, rfl⟩⟩⟩

/-- A member of a union with null: the same as the other type, or null. -/
def Optionally (t : FieldType) (u : Token) : Prop :=
  u.same t.token = true ∨ u = .builtin .nothing

theorem same_optional : a.same (optional piped nullFirst t).token = true ↔ ∃ piped' u v,
    a = .union piped' [u, v] ∧ t.Optionally u ∧ t.Optionally v := by
  have hmember (u : Token) : ((if nullFirst then [.builtin .nothing, t.token]
      else [t.token, .builtin .nothing]).any (Token.same u)) = true ↔ t.Optionally u := by
    have hnothing : Token.same u (.builtin .nothing) = true ↔ u = .builtin .nothing :=
      ⟨Token.eq_of_same_builtin, by rintro rfl; rfl⟩
    cases nullFirst
    · simp [Optionally, hnothing]
    · simp [Optionally, hnothing, or_comm]
  have hlength : (if nullFirst then [.builtin .nothing, t.token]
      else [t.token, .builtin .nothing]).length = 2 := by
    cases nullFirst <;> rfl
  refine Token.same_union.trans ⟨?_, ?_⟩
  · rintro ⟨piped', us, rfl, hus, hmembers⟩
    obtain ⟨u, v, rfl⟩ := List.length_eq_two.mp (hus.trans hlength)
    obtain ⟨hu, hv⟩ := Bool.and_eq_true _ _ ▸ hmembers
    obtain ⟨hv, -⟩ := Bool.and_eq_true _ _ ▸ hv
    exact ⟨piped', u, v, rfl, (hmember u).mp hu, (hmember v).mp hv⟩
  · rintro ⟨piped', u, v, rfl, hu, hv⟩
    refine ⟨piped', [u, v], rfl, hlength.symm, ?_⟩
    exact Bool.and_eq_true _ _ ▸
      ⟨(hmember u).mpr hu, Bool.and_eq_true _ _ ▸ ⟨(hmember v).mpr hv, rfl⟩⟩

/-- The token of a type is the same as itself. -/
theorem same_token (t : FieldType) : t.token.same t.token = true := by
  induction t with
  | integer | text | truth | decimal => rfl
  | enumeration i => exact beq_self_eq_true i
  | optional piped nullFirst t ih =>
    rw [same_optional]
    cases nullFirst with
    | true => exact ⟨piped, _, _, rfl, .inr rfl, .inl ih⟩
    | false => exact ⟨piped, _, _, rfl, .inl ih, .inr rfl⟩
  | list aliased t ih => exact same_list.mpr ⟨_, rfl, ih⟩
  | dict aliased t ih => exact same_dict.mpr ⟨_, rfl, ih⟩

/-- The token of a type carries no metadata. -/
@[simp] theorem metadata_token (t : FieldType) : t.token.metadata = [] := by
  cases t <;> rfl

/-- **What is the same as a token that is the same as an ordinary type** is the same as that
type. -/
theorem same_trans (hab : a.same b = true) (hb : b.same t.token = true) :
    a.same t.token = true := by
  induction t generalizing a b with
  | integer | text | truth | decimal => rwa [Token.eq_of_same_builtin hb] at hab
  | enumeration i => rwa [Token.eq_of_same_declared hb] at hab
  | optional piped nullFirst t ih =>
    obtain ⟨piped', u, v, rfl, hu, hv⟩ := same_optional.mp hb
    obtain ⟨piped'', us, rfl, hlength, hmembers⟩ := Token.same_union.mp hab
    obtain ⟨x, y, rfl⟩ := List.length_eq_two.mp hlength
    have hmember {x : Token} (hx : [u, v].any (Token.same x) = true) : t.Optionally x := by
      obtain ⟨y, hy, hsame⟩ := List.any_eq_true.mp hx
      have hy' : t.Optionally y := by
        rcases List.mem_cons.mp hy with rfl | hy
        · exact hu
        · exact List.mem_singleton.mp hy ▸ hv
      rcases hy' with hy' | rfl
      · exact .inl (ih hsame hy')
      · exact .inr (Token.eq_of_same_builtin hsame)
    obtain ⟨hx, hy⟩ := Bool.and_eq_true _ _ ▸ hmembers
    obtain ⟨hy, -⟩ := Bool.and_eq_true _ _ ▸ hy
    exact same_optional.mpr ⟨piped'', x, y, rfl, hmember hx, hmember hy⟩
  | list aliased t ih =>
    obtain ⟨u, rfl, hu⟩ := same_list.mp hb
    obtain ⟨us, rfl, hlength, hargs⟩ := Token.same_generic.mp hab
    obtain ⟨x, rfl⟩ := List.length_eq_one_iff.mp hlength
    exact same_list.mpr ⟨x, rfl, ih (Bool.and_eq_true _ _ ▸ hargs).1 hu⟩
  | dict aliased t ih =>
    obtain ⟨u, rfl, hu⟩ := same_dict.mp hb
    obtain ⟨us, rfl, hlength, hargs⟩ := Token.same_generic.mp hab
    obtain ⟨k, x, rfl⟩ := List.length_eq_two.mp hlength
    obtain ⟨hk, hx⟩ := Bool.and_eq_true _ _ ▸ hargs
    obtain ⟨hx, -⟩ := Bool.and_eq_true _ _ ▸ hx
    rw [Token.eq_of_same_builtin hk]
    exact same_dict.mpr ⟨x, rfl, ih hx hu⟩

/-- What is the same as an ordinary type is a type in its own right: it is not null, it carries no
metadata, and it is not made by hand. -/
theorem plain_of_same (h : a.same t.token = true) : a.isNothing = false ∧ a.bare = a ∧
    a.asType = a ∧ ∀ i, a ≠ .crafted i := by
  cases t with
  | integer | text | truth | decimal =>
    rw [Token.eq_of_same_builtin h]
    exact ⟨rfl, rfl, rfl, nofun⟩
  | enumeration i =>
    rw [Token.eq_of_same_declared h]
    exact ⟨rfl, rfl, rfl, nofun⟩
  | optional piped nullFirst t =>
    obtain ⟨piped', u, v, rfl, -⟩ := same_optional.mp h
    exact ⟨rfl, rfl, rfl, nofun⟩
  | list aliased t =>
    obtain ⟨u, rfl, -⟩ := same_list.mp h
    exact ⟨rfl, rfl, rfl, nofun⟩
  | dict aliased t =>
    obtain ⟨u, rfl, -⟩ := same_dict.mp h
    exact ⟨rfl, rfl, rfl, nofun⟩

end FieldType

end Schemata
