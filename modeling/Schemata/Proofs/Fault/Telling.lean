import Schemata.Fault.Report
import Schemata.Proofs.Annotation.Json
import Schemata.Proofs.Value.Writing

/-!
# Faults that are told

A fault that comes with a report is told as JSON, and for this it must be possible to write the
report.  Reports are made of texts and numbers.  There is one place where they hold what somebody
else has given: the names that a type requires in vain are told as they stand in its annotations,
where anything may stand that stands for a text.  Such a thing is written as the text that it stands
for (`Constraints.isText_required`).  And there is one number in a report, the depth that types may
nest to, which can be too long to be written out.  Apart from this, every report can be written
(`Fault.isTold_of_report`).
-/

namespace Schemata

namespace Constraints

variable {c c' : Constraints} {v : Value} {key : String} {rs : List Record}

theorem isText_required_assign (hc : ∀ w ∈ c.required, w.IsText) (h : c.assign key v = .ok c') :
    ∀ w ∈ c'.required, w.IsText := by
  unfold assign at h
  split at h
  -- two names set the names that are required, and all others leave them as they are
  all_goals first
    | cases h
      first
        | exact hc
        | exact fun _ => Value.isText_of_mem_namesAmong
    | obtain ⟨n, -, h⟩ := exists_of_bind_eq_ok h
      cases h
      exact hc
    | skip
  next =>
    split at h <;> cases h <;> exact hc

theorem isText_required_assignAll {named : List (String × Value)}
    (hc : ∀ w ∈ c.required, w.IsText) (h : c.assignAll named = .ok c') :
    ∀ w ∈ c'.required, w.IsText := by
  induction named generalizing c with
  | nil =>
    cases h
    exact hc
  | cons e named ih =>
    obtain ⟨c₁, h₁, h⟩ := exists_of_bind_eq_ok h
    exact ih (isText_required_assign hc h₁) h

theorem isText_required_layer {r : Record} (h : r.layer? = .ok (some c)) :
    ∀ w ∈ c.required, w.IsText := by
  unfold Record.layer? at h
  split at h
  next t _ =>
    obtain ⟨c', hread, h⟩ := exists_of_bind_eq_ok h
    cases h
    cases t with
    | group =>
      refine isText_required_assignAll ?_ hread
      split <;> exact List.forall_mem_nil _
    | required =>
      cases hread
      exact fun _ => Value.isText_of_mem_namesAmong
    | length | count =>
      obtain ⟨_, -, hread⟩ := exists_of_bind_eq_ok hread
      obtain ⟨_, -, hread⟩ := exists_of_bind_eq_ok hread
      cases hread
      exact List.forall_mem_nil _
    | _ =>
      cases hread
      exact List.forall_mem_nil _
  next => cases h

/-- **Names that are required are texts**, or stand for them. -/
theorem isText_required (h : merge rs = .ok c) : ∀ w ∈ c.required, w.IsText := by
  refine mergeOnto_induction (P := fun c => ∀ w ∈ c.required, w.IsText) (c := {})
    (fun lower upper c hlower hupper hfold => ?_) (fun r _ layer => isText_required_layer)
    (List.forall_mem_nil _) h
  obtain ⟨choices, -, hc⟩ := exists_of_bind_eq_ok hfold
  cases hc
  exact Content.forall_appendNames hlower hupper

end Constraints

namespace Fault

variable {e : Fault} {r : Report}

/-- **A fault that is told**: it has a report, which can be written unless it is that of a depth
that is too long to be spelled. -/
def IsTold (e : Fault) : Prop :=
  ∃ r, e.report? = some r ∧ (r.render.IsWritable ∨
    ∃ subject limit, e = .tooDeep subject limit ∧ (Value.int limit).isSpelled = false)

theorem isWritable_render (h : ∀ f ∈ r.details, f.2.IsWritable) : r.render.IsWritable := by
  have hsuggestion : (Value.ofOption (r.suggestion.map Suggestion.render)).IsWritable := by
    cases r.suggestion with
    | none => exact ⟨rfl, rfl⟩
    | some s =>
      refine Value.isWritable_ofFields.mpr ?_
      simp only [List.forall_mem_cons, List.not_mem_nil, false_imp_iff, implies_true, and_true]
      refine ⟨Value.isWritable_text _, Value.isWritable_text _, ?_⟩
      cases s.sample <;> exact ⟨rfl, rfl⟩
  refine Value.isWritable_ofFields.mpr ?_
  simp only [List.forall_mem_cons, List.not_mem_nil, false_imp_iff, implies_true, and_true]
  exact ⟨Value.isWritable_text _, Value.isWritable_text _, Value.isWritable_text _, hsuggestion,
    Value.isWritable_ofFields.mpr h⟩

theorem isWritable_configuration {message code : String} {subject : Option String}
    {suggestion : Option Suggestion} {details : List (String × Value)}
    (h : ∀ f ∈ details, f.2.IsWritable) :
    (Report.configuration message code subject suggestion details).render.IsWritable := by
  refine isWritable_render ?_
  unfold Report.configuration
  dsimp only [Report.general]
  split
  · exact List.forall_mem_append.mpr ⟨h, List.forall_mem_singleton.mpr (Value.isWritable_text _)⟩
  · exact h

theorem isWritable_ofTexts (xs : List String) : (Value.ofTexts xs).IsWritable :=
  Value.isWritable_list.mpr (List.forall_mem_map.mpr fun x _ => Value.isWritable_text x)

/-- **A fault with a report is told**, if the names are texts that the report tells of. -/
theorem isTold_of_report (h : e.report?.isSome = true)
    (hnames : ∀ type missing, e = .unknownRequired type missing → ∀ w ∈ missing, w.IsText) :
    e.IsTold := by
  obtain ⟨r, hr⟩ := Option.isSome_iff_exists.mp h
  refine ⟨r, hr, ?_⟩
  have htext (key s : String) : ∀ f ∈ [(key, Value.text s)], f.2.IsWritable :=
    List.forall_mem_singleton.mpr (Value.isWritable_text s)
  cases e with
  | unknownRequired type missing =>
    cases hr
    refine .inl (isWritable_configuration (List.forall_mem_singleton.mpr ?_))
    exact Value.isWritable_list.mpr (List.forall_mem_map.mpr fun w hw =>
      Value.isWritable_of_text? (hnames type missing rfl w hw))
  | missingSchema name requester =>
    cases hr
    exact .inl (isWritable_configuration (htext "name" name))
  | inheritanceConflict type catchAll =>
    cases hr
    exact .inl (isWritable_configuration
      (List.forall_mem_singleton.mpr (isWritable_ofTexts catchAll)))
  | duplicateName name first second =>
    cases hr
    exact .inl (isWritable_configuration (List.forall_mem_cons.mpr
      ⟨Value.isWritable_text _, List.forall_mem_singleton.mpr (isWritable_ofTexts _)⟩))
  | tooDeep subject limit =>
    cases hr
    cases hlimit : (Value.int limit).isSpelled with
    | true => exact .inl (isWritable_configuration (List.forall_mem_singleton.mpr ⟨rfl, hlimit⟩))
    | false => exact .inr ⟨subject, limit, rfl, hlimit⟩
  | unsupportedRelease | invalidDepth =>
    cases hr
    exact .inl (isWritable_configuration (List.forall_mem_nil _))
  | unresolvedName type name =>
    cases hr
    exact .inl (isWritable_render (htext "type" type))
  | _ => cases hr

end Fault

end Schemata
