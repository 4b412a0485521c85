import Schemata.Proofs.CommandLine.Course
import Schemata.Proofs.Settings
import Schemata.Proofs.Value.Writing

/-!
# Are all schemas shown?

A run that is to show the schemas of its targets notes each under the name of its type, and a schema
that is noted under a name takes the place of what was noted there before.  So a schema is shown
unless another type of that name is requested later and has another schema
(`Surroundings.run_displays`).

The name is that which a class or a brand has of its own, or else the type as it is spelled.  But a
collection of items goes by the name of the collection, whatever its items are
(`displayName_collection`): of a list of numbers and a list of texts, only the one that is requested
last is shown (`listings_overwrites`).
-/

namespace Schemata

namespace Compiler

/-- Each of some types is shown with its schema, under its name. -/
def ShowsAll (c : Compiler) (es : List (Token × Node)) : Prop :=
  ∀ e ∈ es, getKey? (c.displayName e.1) (c.noted es) = some (c.render e.2)

/-- No two of some types go by one name and have schemas that are rendered differently. -/
def TellsApart (c : Compiler) (es : List (Token × Node)) : Prop :=
  ∀ e ∈ es, ∀ e' ∈ es, c.displayName e.1 = c.displayName e'.1 → c.render e.2 = c.render e'.2

/-- Whether the schemas of some types can be written. -/
def areWritable (c : Compiler) (es : List (Token × Node)) : Bool :=
  es.all fun e => (c.render e.2).isJson && (c.render e.2).isSpelled

/-- A collection goes by its own name, whatever its items are. -/
theorem displayName_collection (c : Compiler) (b : Builtin) (items : List Token) :
    c.displayName (.generic (.builtin b) items) = b.facts.name :=
  rfl

/-- Two collections of one sort whose items have different schemas are not told apart. -/
theorem not_tellsApart_of_collections {c : Compiler} {es : List (Token × Node)} {b : Builtin}
    {items items' : List Token} {n n' : Node} (h : (.generic (.builtin b) items, n) ∈ es)
    (h' : (.generic (.builtin b) items', n') ∈ es) (hne : c.render n ≠ c.render n') :
    ¬ c.TellsApart es :=
  fun happart => hne (happart _ h _ h' rfl)

end Compiler

namespace Surroundings

/-- **Which schemas are shown.**  When a run that shows the schemas of its targets succeeds, it
prints one object, with no name twice.  What stands under a name is the schema of the last type of
that name among those that are requested.  So all types that are requested are shown, each with its
own schema under its own name, if and only if no two of one name have different schemas. -/
theorem run_displays {w : Surroundings} {words : List String} {i : Invocation} {text : String}
    (hwords : Command.ofWords words = .build i) (hinlined : i.inlined = true)
    (hrun : w.run words = .printed text) :
    ∃ c es s t, w.Completes i c es s ∧ Json.document (.ofFields (c.noted es)) = .ok t ∧
      text = t ++ "\n" ∧ KeysApart (c.noted es) ∧
      (∀ name v, getKey? name (c.noted es) = some v ↔
        ∃ e, LastOf (fun e => c.displayName e.1 = name) es e ∧ c.render e.2 = v) ∧
      (c.ShowsAll es ↔ c.TellsApart es) := by
  obtain ⟨i', v, t, hwords', hresult, hdocument, htext⟩ := run_eq_printed.mp hrun
  cases hwords.symm.trans hwords'
  obtain ⟨c, es, s, hcompletes, rfl⟩ := result_eq_ok.mp hresult
  rw [if_pos hinlined] at hdocument
  exact ⟨c, es, s, t, hcompletes, hdocument, htext, keysApart_setKeys _,
    fun _ _ => getKey?_setKeys_map_iff, forall_getKey?_iff⟩

/-- A module that exports a list of numbers and another type. -/
def listings (other : Token) : Surroundings where
  modules := [⟨"m", [(Module.exportsName, .types [numbers, other])]⟩]
where
  numbers : Token := .generic (.builtin .list) [.builtin .int32]
  texts : Token := .generic (.builtin .list) [.builtin .text]
  textSet : Token := .generic (.builtin .set) [.builtin .text]
  /-- The compiler that default settings describe. -/
  bench : Compiler :=
    { environment := { program := {}, maxDepth := 64, captureDefaults := true }
      refPrefix := .ok defaultRefPrefix
      release := "3.1.0" }
  words : List String := ["build", "--inline", "m"]
  invocation : Invocation := { targets := ["m"], inlined := true }

open listings

theorem ofWords_listings : Command.ofWords words = .build invocation := by
  decide +kernel

/-- A run for the listings gets to the end, where both types have schemas that can be printed. -/
theorem listings_completes {other : Token}
    (h : yields ([numbers, other].mapM (bench.supply true)) {} fun es _ => bench.areWritable es) :
    ∃ n n' s text, (listings other).Completes invocation bench [(numbers, n), (other, n')] s ∧
      (listings other).run words = .printed text := by
  have hcompiler : (listings other).compiler = .ok bench := by
    have hrelease : Settings.defaults.release = .ok "3.1.0" :=
      Settings.release_of_supported rfl (Settings.isSupported_iff.mpr (.inr ⟨"0", rfl⟩))
    exact Settings.ofSettings_eq_ok hrelease rfl
  have htypes : (listings other).requested ["m"] = .ok [numbers, other] := by
    with_unfolding_all rfl
  obtain ⟨es, s, hes, hwritable⟩ := exists_of_yields h
  rw [Compiler.areWritable, List.all_eq_true] at hwritable
  have hcompletes : (listings other).Completes invocation bench es s :=
    ⟨hcompiler, by rw [Compiler.supply_eq_ok hes]; exact htypes,
      by rw [Compiler.supply_eq_ok hes]; exact hes, .inr ⟨_, rfl⟩⟩
  have hnoted : (Value.ofFields (bench.noted es)).IsWritable := by
    refine Value.isWritable_ofFields.mpr fun f hf => ?_
    refine (forall_setKeys (P := fun _ => True) (Q := Value.IsWritable) ?_
      (List.forall_mem_nil _) f hf).2
    exact List.forall_mem_map.mpr fun e he => ⟨trivial, Bool.and_eq_true_iff.mp (hwritable e he)⟩
  obtain ⟨t, ht⟩ := Json.exists_document hnoted
  have hrun := run_eq_printed.mpr
    ⟨invocation, _, t, ofWords_listings, result_eq_ok.mpr ⟨_, _, _, hcompletes, rfl⟩, ht, rfl⟩
  obtain ⟨⟨_, n⟩, es, rfl, rfl, hrest⟩ := List.map_eq_cons_iff.mp (Compiler.supply_eq_ok hes)
  obtain ⟨⟨_, n'⟩, es, rfl, rfl, hnil⟩ := List.map_eq_cons_iff.mp hrest
  obtain rfl := List.map_eq_nil_iff.mp hnil
  exact ⟨n, n', s, _, hcompletes, hrun⟩

/-- A list of numbers and a set of texts are both shown. -/
theorem listings_displays : (Command.ofWords words = .build invocation ∧
      invocation.inlined = true ∧ ∃ text, (listings textSet).run words = .printed text) ∧
    ∃ es s, (listings textSet).Completes invocation bench es s ∧
      es.map (·.1) = [numbers, textSet] ∧ bench.ShowsAll es := by
  have hyields : yields ([numbers, textSet].mapM (bench.supply true)) {}
      fun es _ => bench.areWritable es := by decide +kernel
  obtain ⟨n, n', s, text, hcompletes, hrun⟩ := listings_completes hyields
  obtain ⟨c, es, s', t, hcompletes', -, -, -, -, hshows⟩ :=
    run_displays ofWords_listings rfl hrun
  obtain ⟨rfl, rfl, rfl⟩ := hcompletes.unique hcompletes'
  have happart : bench.displayName numbers ≠ bench.displayName textSet := by decide +kernel
  refine ⟨⟨ofWords_listings, rfl, text, hrun⟩, _, s, hcompletes, rfl, hshows.mpr ?_⟩
  intro e he e' he' hname
  simp only [List.mem_cons, List.not_mem_nil, or_false] at he he'
  rcases he with rfl | rfl <;> rcases he' with rfl | rfl
  · rfl
  · exact absurd hname happart
  · exact absurd hname.symm happart
  · rfl

/-- **A schema is overwritten.**  A run is asked to show a list of numbers and a list of texts, and
succeeds.  Their schemas are rendered differently, and that of the first is not shown under any
name. -/
theorem listings_overwrites : ∃ n n' s text,
    (listings texts).run words = .printed text ∧
    (listings texts).Completes invocation bench [(numbers, n), (texts, n')] s ∧
    bench.render n ≠ bench.render n' ∧
    ∀ name, getKey? name (bench.noted [(numbers, n), (texts, n')]) ≠ some (bench.render n) := by
  have hyields : yields ([numbers, texts].mapM (bench.supply true)) {}
      fun es _ => bench.areWritable es := by decide +kernel
  obtain ⟨n, n', s, text, hcompletes, hrun⟩ := listings_completes hyields
  have hne : bench.render n ≠ bench.render n' := by
    have hapart : yields ([numbers, texts].mapM (bench.supply true)) {} fun es _ =>
        (es.map fun e => (Json.document (bench.render e.2)).toOption).Nodup := by decide +kernel
    obtain ⟨es, s', hes, hnodup⟩ := exists_of_yields hapart
    cases hcompletes.schemas.symm.trans hes
    intro heq
    simp [heq] at hnodup
  refine ⟨n, n', s, text, hrun, hcompletes, hne, fun name h => hne ?_⟩
  -- both are noted under the name of the collection, and the second stays
  have hnoted : bench.noted [(numbers, n), (texts, n')] = [("list", bench.render n')] := rfl
  rw [hnoted, getKey?] at h
  split at h
  · exact (Option.some.inj h).symm
  · cases h

end Surroundings

end Schemata
