import Schemata.Proofs.Compiler.Run
import Schemata.Proofs.Synthesis.Handmade
import Schemata.Proofs.Synthesis.Required

/-!
# Is what is required there?

A document has to have the properties that its schema requires.  If an object required a name that
is declared neither by its type nor by a base of it, then nothing would tell what to put there.
After any number of calls no stored object does so (`run_required`): each name that it requires is
one of its type's own properties or one of those of the objects among the bases, and is required
once.

The names that would be required in vain are told to the author of the type instead.  This is done
whenever an object has been given its properties, so that it does not matter whether the object is
then stored or becomes part of an array.
-/

namespace Schemata

variable {env : Environment} {s s' S : Session} {σ : Scene}

/-- At the end of a call claims are forgotten, but none on a name that is stored. -/
theorem Scene.Owns.resting {d : Descriptor} (h : σ.Owns d) (hstored : d.name ∈ σ.names) :
    σ.resting.Owns d := by
  obtain ⟨k, hk, hsame⟩ := h
  refine ⟨k, ?_, hsame⟩
  have hfilter : getKey? d.name σ.resting.claims =
      if σ.registry.contains d.name then getKey? d.name σ.claims else none :=
    getKey?_filter (p := fun name => σ.registry.contains name)
  rw [hfilter, if_pos (Registry.contains_iff.mpr hstored), hk]

theorem Scene.Required.resting (h : σ.Required env s) : σ.resting.Required env s := by
  intro e he k hk
  obtain ⟨hnodup, d, bases, hd, hpub, hname, howns, hknown⟩ := h e he k hk
  have hstored : d.name ∈ σ.names := by
    rw [hname]
    exact List.mem_map_of_mem (f := Prod.fst) he
  exact ⟨hnodup, d, bases, hd, hpub, hname, howns.resting hstored, hknown⟩

namespace Compiler

variable {c : Compiler} {t : Token} {n : Node}

theorem required_of_ensure (hS : S.WellRead c.environment)
    (hs : s.scene.Required c.environment S) (h : c.ensure t s = .ok n s') (hbelow : s'.Below S) :
    s'.scene.Required c.environment S := by
  obtain ⟨d, w, w', hd, hcourse, hstart, -, hend⟩ :=
    course_of_ensure h hbelow (List.prefix_refl _)
  rw [hend]
  exact (required_of_course hS hcourse (.refers hd) (hstart ▸ hs)).resting

/-- **Whatever is required is there.**  After any number of calls, whether they succeed or fail, the
own object of every entry requires no name twice, and every name that it requires is known of the
type that is stored under the name of the entry: a property of the type is shown under it, or one of
an object among the bases of the type.

Of the names that the annotations of a type require, those that are unknown are told.  Let an object
be filled that is to be stored or to be part of an array, wherever the synthesis has got to.  If its
properties can be added and the bases of its type be gone through, then the type is refused exactly
if there are such names, with all of them in order; if not, then for the reason why not. -/
theorem run_required (c : Compiler) (calls : List Call) :
    (∀ e ∈ (c.run calls).registry.entries, ∀ k, e.2.ownObject? = some k →
      (k.required.map Carried.plain).Nodup ∧
      ∃ d bases, (c.run calls).Describes c.environment d ∧
        Published c.environment (c.run calls) d ∧ d.name = e.1 ∧ (c.run calls).scene.Owns d ∧
        (c.run calls).Settles (c.environment.baseChain d) bases ∧
        ∀ w ∈ k.required, w.plain ∈ d.knownNames bases) ∧
    ∀ (builder : Descriptor → Build Built) (d : Descriptor) (k : Constraints)
      (o : Environment.ObjectParts), Constraints.merge d.annotations = .ok k → o.Opens k →
      ∀ w, c.environment.populate builder d o w =
        match c.environment.addProperties builder d o d.properties w with
        | .error e w₁ => .error e w₁
        | .ok o' w₁ => match c.environment.baseChain d w₁ with
          | .error e w₂ => .error e w₂
          | .ok bases w₂ => match d.unknownNames bases k.required with
            | [] => .ok o' w₂
            | unknown => .error (.unknownRequired d.name unknown) w₂ := by
  have hS := (tidy_run c calls).wellRead
  have hrequired : (c.run calls).scene.Required c.environment (c.run calls) := by
    refine run_induction_below (P := fun s => s.scene.Required c.environment (c.run calls))
      nofun (fun hs hlearns => ?_) (fun _ hs h hbelow => required_of_ensure hS hs h hbelow) calls
      (.refl _)
    rw [hlearns.scene]
    exact hs
  refine ⟨fun e he k hk => ?_, fun builder d k o hmerge hopens w =>
    Environment.populate_eq builder hmerge hopens w⟩
  obtain ⟨hnodup, hknown⟩ := hrequired e he k hk
  exact ⟨hnodup, hknown⟩

/-- A compiler that knows of the people of a house: a member of the staff is a person, who has a
name, and has been there since some day; a visitor has a name as well, or so it is said. -/
def residence : Compiler where
  environment :=
    { program :=
        { crafted :=
            [{ name := "Text", shape := .primitive, kind := some .text },
             { name := "Person"
               shape := .object
               properties :=
                 [{ name := "name", type := .crafted 0 },
                  { name := "rest", type := .crafted 0, catchAll := true }] },
             { name := "Staff"
               shape := .object
               base := some (.crafted 1)
               annotations :=
                 [.property [("requiredProperties", .list [.text "since", .text "name"])]]
               properties := [{ name := "since", type := .crafted 0, required := true }] },
             { name := "Visitor"
               shape := .object
               annotations :=
                 [.property [("requiredProperties", .list [.text "name", .text "host"])]]
               properties := [{ name := "host", type := .crafted 2 }] }] }
      maxDepth := 8
      captureDefaults := true }
  refPrefix := .ok "#/components/schemas/"
  release := "3.1.0"

/-- The name of a person is required of a member of the staff, and no visitor is let in whose name
is not there. -/
theorem residence_required :
    (∃ n k, ("Staff", n) ∈ (residence.run [.ensure (.crafted 2)]).registry.entries ∧
      n.ownObject? = some k ∧ k.required = ["since", "name"] ∧
      (k.required.map Carried.plain).Nodup ∧ ∃ d bases, d.name = "Staff" ∧
        (residence.run [.ensure (.crafted 2)]).Settles (residence.environment.baseChain d) bases ∧
        "name" ∈ d.knownNames bases) ∧
    ∃ w', residence.environment.populate (residence.environment.build 8)
        (residence.environment.handmade 3)
        (.ofNode (Constraints.apply { required := ["name", "host"] } .emptyObject))
        ⟨residence.run [.ensure (.crafted 2)], []⟩ =
      .error (.unknownRequired "Visitor" ["name"]) w' := by
  obtain ⟨hentries, hpopulate⟩ := run_required residence [.ensure (.crafted 2)]
  constructor
  · obtain ⟨n, k, hmem, hk, hrequired⟩ : ∃ n k,
        ("Staff", n) ∈ (residence.run [.ensure (.crafted 2)]).registry.entries ∧
          n.ownObject? = some k ∧ k.required = ["since", "name"] :=
      ⟨_, _, List.mem_cons_of_mem _ (List.mem_singleton_self _), rfl, rfl⟩
    obtain ⟨hnodup, d, bases, -, -, hname, -, hbases, hknown⟩ := hentries _ hmem k hk
    refine ⟨n, k, hmem, hk, hrequired, hnodup, d, bases, hname, hbases, hknown "name" ?_⟩
    rw [hrequired]
    exact List.mem_cons_of_mem _ List.mem_cons_self
  · have hmerge : Constraints.merge (residence.environment.handmade 3).annotations =
        .ok { required := ["name", "host"] } := rfl
    exact ⟨_, (hpopulate _ _ _ _ hmerge .stored _).trans rfl⟩

end Compiler

end Schemata
