import Schemata.Annotation.Apply
import Schemata.Proofs.Annotation.Merging

/-!
# Writing constraints a second time

Constraints that have been written onto a node can be written onto it again, and nothing changes
(`apply_apply`).  For most keywords this is seen one by one, since what is written depends on what
was there in one of a few ways: it takes its place, it is put behind it, or it raises a flag.  Each
of these, done twice, is done once.

Two keywords depend on others.  Whether a leaf is flagged as nullable, and has a least length of
one, is a matter of its type, which the same constraints may set; but the type is set first, and the
second time it is the same.  On an array, bounds on a length move to the number of items.  The node
has no bounds on a length any more when it is written onto again, so that what is moved the second
time is what the constraints themselves say; and the bound that was raised to one for an array that
must not be empty is raised already (`raised_itemBound`).
-/

namespace Schemata

namespace Constraints

/-! ## The ways to write a keyword -/

section

variable {α : Type}

theorem orElse_again (a b : Option α) : (a <|> (a <|> b)) = (a <|> b) := by
  cases a <;> rfl

@[simp] theorem upperText_again (a b : Option Wording) :
    upperText a (upperText a b) = upperText a b := by
  cases a with
  | none => rfl
  | some s => by_cases h : s.plain.isEmpty <;> simp [upperText, h]

@[simp] theorem upperList_again (a b : List α) : upperList a (upperList a b) = upperList a b := by
  cases a <;> simp [upperList]

@[simp] theorem appendNames_again (target names : List Wording) :
    appendNames (appendNames target names) names = appendNames target names := by
  simp only [appendNames_eq_collect]
  exact collect_again fun _ _ => ReflBEq.rfl

/-- A keyword that is written only along with another one. -/
theorem ite_again (p : Prop) [Decidable p] (a b : α) :
    (if p then a else if p then a else b) = if p then a else b := by
  by_cases h : p <;> simp [h]

end

/-! ## Bounds on the number of items -/

/-- A least number of at least one, where it is asked for. -/
def raised (notEmpty : Bool) (n : Option Int) : Option Int :=
  if notEmpty then atLeastOne n else n

@[simp] theorem atLeastOne_again (n : Option Int) : atLeastOne (atLeastOne n) = atLeastOne n := by
  cases n with
  | none => rfl
  | some n => by_cases h : n < 1 <;> simp [atLeastOne, h]

@[simp] theorem raised_again (notEmpty : Bool) (n : Option Int) :
    raised notEmpty (raised notEmpty n) = raised notEmpty n := by
  cases notEmpty with
  | true => exact atLeastOne_again n
  | false => rfl

/-- **A bound on the number of items that is written twice.**  The second time there is no length
but the one that is given. -/
theorem raised_itemBound (notEmpty : Bool) (given items length length' : Option Int) :
    raised notEmpty (itemBound given
        (given <|> raised notEmpty (itemBound given (given <|> items) (length <|> length')))
        (length <|> none)) =
      raised notEmpty (itemBound given (given <|> items) (length <|> length')) := by
  cases length with
  | some n => cases given <;> rfl
  | none =>
    cases given with
    | none => exact raised_again notEmpty _
    | some g => cases length' <;> rfl

/-! ## Concrete nodes -/

variable (c : Constraints) (k : Keywords)

@[simp] theorem onKeywords_again : c.onKeywords (c.onKeywords k) = c.onKeywords k := by
  simp only [onKeywords, orElse_again, upperText_again, upperList_again, appendNames_again,
    setKeys_again, ite_again, Bool.or_assoc, Bool.or_self]

@[simp] theorem onObject_again : c.onObject (c.onObject k) = c.onObject k := by
  calc c.onObject (c.onObject k)
      = { c.onKeywords (c.onKeywords k) with
          nullable := (k.nullable || c.nullable) || c.nullable } := rfl
    _ = c.onObject k := by
        rw [onKeywords_again, Bool.or_assoc, Bool.or_self]
        rfl

@[simp] theorem onLeaf_again (type : Option JsonType) :
    c.onLeaf (c.onLeaf k type) type = c.onLeaf k type := by
  -- both times, what the constraints ask of an absent length is asked of the length of the first
  have least : ∀ p : Bool,
      raised p (c.minLength <|> raised p (c.minLength <|> k.minLength)) =
        raised p (c.minLength <|> k.minLength) := by
    intro p
    cases c.minLength with
    | none => exact raised_again p k.minLength
    | some n => rfl
  calc c.onLeaf (c.onLeaf k type) type
      = { c.onKeywords (c.onKeywords k) with
          nullable := (k.nullable || (c.nullable && type.isSome)) || (c.nullable && type.isSome)
          minLength := raised (c.notEmpty && type == some .string)
            (c.minLength <|> raised (c.notEmpty && type == some .string)
              (c.minLength <|> k.minLength)) } := rfl
    _ = c.onLeaf k type := by
        rw [onKeywords_again, Bool.or_assoc, Bool.or_self, least]
        rfl

@[simp] theorem onArray_again : c.onArray (c.onArray k) = c.onArray k := by
  calc c.onArray (c.onArray k)
      = { c.onKeywords (c.onKeywords k) with
          nullable := (k.nullable || c.nullable) || c.nullable
          minItems := raised c.notEmpty (itemBound c.minItems
            (c.minItems <|> raised c.notEmpty
              (itemBound c.minItems (c.minItems <|> k.minItems) (c.minLength <|> k.minLength)))
            (c.minLength <|> none))
          maxItems := raised false (itemBound c.maxItems
            (c.maxItems <|> raised false
              (itemBound c.maxItems (c.maxItems <|> k.maxItems) (c.maxLength <|> k.maxLength)))
            (c.maxLength <|> none))
          minLength := none
          maxLength := none } := rfl
    _ = c.onArray k := by
        rw [onKeywords_again, Bool.or_assoc, Bool.or_self,
          raised_itemBound c.notEmpty, raised_itemBound false]
        rfl

/-- **Constraints that are written onto a node twice are written onto it once.** -/
theorem apply_apply (n : Node) : c.apply (c.apply n) = c.apply n := by
  cases n with
  | leaf k t => simp only [apply, orElse_again, onLeaf_again]
  | object k ps additional allowed =>
    simp only [apply, orElse_again, onObject_again, ite_again]
  | array k items => simp [apply]
  | ref name t d => simp only [apply, Node.withTexts, orElse_again]
  | composition ns t d => simp only [apply, Node.withTexts, orElse_again]
  | union ns t d => simp only [apply, Node.withTexts, orElse_again]

end Constraints

end Schemata
