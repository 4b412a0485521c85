import Schemata.Text.Blank

/-!
# Selectors

A target of a run is a source of types, a module or a file, and perhaps the name of
one type in it after the last colon.  Blanks around either part do not count, and an
empty name is none.
-/

namespace Schemata

/-- What a target selects. -/
structure Selector where
  source : String
  name : Option String
  deriving DecidableEq, Repr, Inhabited

namespace Selector

/-- The characters before and after the last occurrence of one. -/
def splitLast? (mark : Char) : List Char → Option (List Char × List Char)
  | [] => none
  | c :: cs =>
    match splitLast? mark cs with
    | some (front, back) => some (c :: front, back)
    | none => if c = mark then some ([], cs) else none

/-- **Read a target.** -/
def ofText (raw : String) : Selector :=
  match splitLast? ':' raw.toList with
  | none => ⟨Text.trimmed raw, none⟩
  | some (source, name) =>
    let name := Text.trim name
    ⟨String.ofList (Text.trim source), if name.isEmpty then none else some (String.ofList name)⟩

/-- Characters that cannot be split have no mark in them. -/
theorem not_mem_of_splitLast? {mark : Char} {cs : List Char} (h : splitLast? mark cs = none) :
    mark ∉ cs := by
  induction cs with
  | nil => exact List.not_mem_nil
  | cons c cs ih =>
    unfold splitLast? at h
    split at h
    next => cases h
    next hcs =>
      split at h
      next => cases h
      next hc =>
        intro hmem
        rcases List.mem_cons.mp hmem with rfl | hmem
        · exact hc rfl
        · exact ih hcs hmem

/-- What comes after the last mark has none in it, and the parts make up the whole. -/
theorem splitLast?_eq_some {mark : Char} {cs front back : List Char}
    (h : splitLast? mark cs = some (front, back)) :
    cs = front ++ mark :: back ∧ mark ∉ back := by
  induction cs generalizing front with
  | nil => cases h
  | cons c cs ih =>
    unfold splitLast? at h
    split at h
    next front' back' hcs =>
      cases h
      obtain ⟨rfl, hback⟩ := ih hcs
      exact ⟨rfl, hback⟩
    next hcs =>
      split at h
      next hc =>
        cases h
        exact ⟨by rw [hc]; rfl, not_mem_of_splitLast? hcs⟩
      next => cases h

end Selector

end Schemata
