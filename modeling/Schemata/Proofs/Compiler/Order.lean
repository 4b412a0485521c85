import Schemata.Proofs.Compiler.Publication
import Schemata.Proofs.Compiler.Reachability
import Schemata.Proofs.Synthesis.Seclusion

/-!
# The order of calls

A host publishes one type after the other, and the order in which it does so should not show in what
is stored.

`ensureAll_perm` says that it does not, for descriptors made by hand.  What is stored is what the
declarations of types are published as (`canonical_run`), and the types are all that the published
ones lead to (`Ensured.mem_names`); neither depends on the order.  Two sorts of types are left
out, as they are there: a derived type whose base leads back to it, and a type
composed in place whose own properties lead to a type that is published by name and leads back to
it.  With the latter the order does show (`depot_ensureAll_ne`): the array is cut off where it is
taken up again inside itself, and the type that leads back to it is stored the way it is first seen.

The calls are looked at in the environment where every declaration is a leaf, in which it is enough
that descriptors made by hand have distinct keys.
-/

namespace Schemata

open Environment (ObjectParts)

namespace Compiler

variable {c : Compiler} {s s' : Session} {i : Nat} {roots roots' : List Nat} {ns ns' : List Node}

/-- **Publish descriptors made by hand** one after the other, until one fails. -/
def ensureAll (c : Compiler) (roots : List Nat) : Request (List Node) :=
  roots.mapM fun i => c.ensure (.crafted i)

/-- The compiler for which every declaration is a leaf. -/
def secluded (c : Compiler) : Compiler :=
  { c with environment := c.environment.secluded }

/-! ## Calls on descriptors made by hand -/

theorem ensure_handmade (c : Compiler) (i : Nat) : c.ensure (.crafted i) =
    Session.pruning (Registry.transaction
      (Session.run (c.environment.referRoot (c.environment.handmade i)))) :=
  rfl

section

variable (hlinked : c.environment.Linked) (hi : i < c.environment.size)
include hlinked hi

theorem ensure_secluded : c.secluded.ensure (.crafted i) = c.ensure (.crafted i) := by
  rw [ensure_handmade, ensure_handmade]
  have hagree := hlinked.agree_referRoot c.environment.program.leaves hi
  exact congrArg (fun x => Session.pruning (Registry.transaction (Session.run x))) hagree.eq.symm

/-- Publishing a descriptor made by hand reads nothing. -/
theorem readings_after_ensure (s : Session) :
    (after (c.ensure (.crafted i)) s).readings = s.readings := by
  have hunread := (hlinked.agree_referRoot c.environment.program.leaves hi).unread
    ⟨Registry.within Registry.open_ s, []⟩
  rw [ensure_handmade]
  unfold after Session.pruning Registry.transaction Session.run at *
  cases hr : c.environment.referRoot (c.environment.handmade i)
      ⟨Registry.within Registry.open_ s, []⟩ with
  | ok n w =>
    rw [hr] at hunread
    exact hunread
  | error e w =>
    rw [hr] at hunread
    exact hunread

end

theorem readings_run (hlinked : c.environment.Linked)
    (hroots : ∀ i ∈ roots, i < c.environment.size) :
    (c.run (roots.map fun i => .ensure (.crafted i))).readings = [] := by
  refine c.run_induction (P := fun s => s.readings = []) _ rfl fun s call hcall hs => ?_
  obtain ⟨i, hi, rfl⟩ := List.mem_map.mp hcall
  exact (readings_after_ensure hlinked (hroots i hi) s).trans hs

/-! ## Calls that all succeed -/

/-- What it comes to when some descriptors have been published after some calls. -/
structure Ensured (c : Compiler) (before : List Call) (roots : List Nat) (s : Session) : Prop where
  run : s = c.run (before ++ roots.map fun i => .ensure (.crafted i))
  grows : (c.run before).Grows c.environment s
  calls : ∀ i ∈ roots, ∃ earlier n s₁, c.ensure (.crafted i) (c.run earlier) = .ok n s₁ ∧
    s₁.Grows c.environment s

theorem ensured_of_mapM {before : List Call}
    (h : roots.mapM (fun i => c.ensure (.crafted i)) (c.run before) = .ok ns s) :
    c.Ensured before roots s := by
  induction roots generalizing before ns with
  | nil =>
    obtain ⟨-, rfl⟩ := pure_eq_ok.mp h
    exact ⟨by rw [List.map_nil, List.append_nil], .refl _, nofun⟩
  | cons i roots ih =>
    rw [List.mapM_cons] at h
    obtain ⟨n, s₁, hfirst, h⟩ := bind_eq_ok.mp h
    obtain ⟨ns', s₂, hothers, h⟩ := bind_eq_ok.mp h
    obtain ⟨-, rfl⟩ := pure_eq_ok.mp h
    have hnext : s₁ = c.run (before ++ [.ensure (.crafted i)]) := by
      rw [run_append]
      exact (after_of_ok hfirst).symm
    rw [hnext] at hothers
    obtain ⟨hrun, hgrows, hcalls⟩ := ih hothers
    rw [← hnext] at hgrows
    refine ⟨?_, (grows_of_ensure (tidy_run c before) hfirst).1.trans hgrows, ?_⟩
    · rw [hrun, List.append_assoc]
      rfl
    · rintro j hj
      rcases List.mem_cons.mp hj with rfl | hj
      · exact ⟨before, n, s₁, hfirst, hgrows⟩
      · exact hcalls j hj

theorem ensured_of_ensureAll (h : c.ensureAll roots {} = .ok ns s) : c.Ensured [] roots s :=
  ensured_of_mapM h

/-- Requests that are the same one by one are the same in turn. -/
theorem mapM_congr {f g : Nat → Request Node} (h : ∀ i ∈ roots, f i = g i) :
    roots.mapM f = roots.mapM g := by
  induction roots with
  | nil => rfl
  | cons i roots ih =>
    obtain ⟨hi, hroots⟩ := List.forall_mem_cons.mp h
    rw [List.mapM_cons, List.mapM_cons, hi, ih hroots]

theorem ensureAll_secluded (hlinked : c.environment.Linked)
    (hroots : ∀ i ∈ roots, i < c.environment.size) :
    c.secluded.ensureAll roots = c.ensureAll roots :=
  mapM_congr fun i hi => ensure_secluded hlinked (hroots i hi)

/-- **All that the published types lead to is stored**, if it is published by name. -/
theorem Ensured.mem_names (h : c.Ensured [] roots s) (hkeys : c.environment.KeysDistinct)
    (hi : i ∈ roots) {x : Descriptor}
    (hx : Reaches c.environment s (c.environment.handmade i) x)
    (hpub : Published c.environment s x) : x.name ∈ s.registry.names := by
  have hS : s.WellRead c.environment := h.run ▸ (tidy_run c _).wellRead
  obtain ⟨earlier, n, s₁, hensure, hgrows⟩ := h.calls i hi
  have htidy := tidy_run c earlier
  obtain ⟨E, hE⟩ := charted_run hkeys hS earlier
    ((grows_of_ensure htidy hensure).1.below.trans hgrows.below)
  obtain ⟨d, σ, E', hd, -, hexplores, hE'⟩ :=
    explores_of_ensure hkeys hS htidy hE hensure hgrows.below
  obtain ⟨rfl, -⟩ := pure_eq_ok.mp (hd ⟨s, []⟩ (.refl s))
  have hx' : E' x := Hereditary.of_reaches hE'.hereditary hexplores.reached hx
  exact hgrows.names_subset (hE'.stored hx' x.apart_nil hpub)

/-! ## What is stored, whatever the order -/

/-- A descriptor made by hand that some others lead to and that is published by name. -/
structure Shown (env : Environment) (roots : List Nat) (j : Nat) : Prop where
  made : j < env.size
  published : Published env {} (env.handmade j)
  reached : ∃ i ∈ roots, Reaches env {} (env.handmade i) (env.handmade j)

section

variable (hlinked : c.environment.Linked) (hdistinct : c.environment.Distinct)
  (hroots : ∀ i ∈ roots, i < c.environment.size)
include hlinked hdistinct hroots

theorem mem_names_of_shown (h : c.ensureAll roots {} = .ok ns s) {j : Nat}
    (hj : Shown c.environment roots j) : (c.environment.handmade j).name ∈ s.registry.names := by
  obtain ⟨i, hi, hreaches⟩ := hj.reached
  rw [← ensureAll_secluded hlinked hroots] at h
  obtain ⟨-, -, -, hreaches⟩ := hlinked.reaches_withKinds c.environment.program.leaves s
    (hroots i hi) hreaches
  exact (ensured_of_ensureAll h).mem_names (Environment.keysDistinct_secluded hdistinct) hi hreaches
    (hlinked.published_withKinds _ s hj.made hj.published)

/-- What is stored when some descriptors have been published: the publications of those that they
lead to. -/
theorem exists_shown_of_mem_entries (h : c.ensureAll roots {} = .ok ns s)
    (hbased : ∀ i ∈ roots, ∀ x, Reaches c.environment {} (c.environment.handmade i) x →
      Published c.environment {} x → ¬ SelfBased c.environment {} x)
    (hheld : ∀ i ∈ roots, ∀ x, Reaches c.environment {} (c.environment.handmade i) x →
      ¬ SelfHeld c.environment {} x) {e : String × Node} (he : e ∈ s.registry.entries) :
    ∃ j, Shown c.environment roots j ∧ (c.environment.handmade j).name = e.1 ∧
      (c.environment.secluded.toldBy []).publish c.environment.levels
        (c.environment.handmade j) = some e.2 := by
  rw [← ensureAll_secluded hlinked hroots] at h
  have hrun := (ensured_of_ensureAll h).run
  rw [List.nil_append] at hrun
  generalize hcalls : roots.map (fun i => Call.ensure (.crafted i)) = calls at hrun
  have hreadings : s.readings = [] := by
    rw [hrun, ← hcalls]
    exact readings_run (c := c.secluded) hlinked hroots
  -- what is known of the secluded graph is known of the graph itself
  have hlinked' : c.secluded.environment.Linked := hlinked
  have hrequested {x : Descriptor} (hx : Requested c.secluded.environment s calls x) :
      ∃ i ∈ roots, ∃ j, j < c.environment.size ∧ x = c.environment.handmade j ∧
        Reaches c.environment {} (c.environment.handmade i) x := by
    obtain ⟨call, hcall, t, d, ht, hd, hx⟩ := hx
    rw [← hcalls] at hcall
    obtain ⟨i, hi, rfl⟩ := List.mem_map.mp hcall
    cases ht
    obtain ⟨rfl, -⟩ := pure_eq_ok.mp (hd ⟨s, []⟩ (.refl s))
    obtain ⟨j, hj, rfl, hreaches⟩ :=
      hlinked'.reaches_withKinds c.environment.kinds {} (hroots i hi) hx
    exact ⟨i, hi, j, hj, rfl, hreaches⟩
  have hcanonical := canonical_run (c := c.secluded) (Environment.keysDistinct_secluded hdistinct)
    calls
  rw [← hrun] at hcanonical
  have hentries := hcanonical
    (fun x hx hpub hself => by
      obtain ⟨i, hi, j, hj, rfl, hreaches⟩ := hrequested hx
      exact hbased i hi _ hreaches (hlinked'.published_withKinds c.environment.kinds {} hj hpub)
        (hlinked'.selfBased_withKinds c.environment.kinds {} hj hself))
    (fun x hx hself => by
      obtain ⟨i, hi, j, hj, rfl, hreaches⟩ := hrequested hx
      exact hheld i hi _ hreaches (hlinked'.selfHeld_withKinds c.environment.kinds {} hj hself))
  obtain ⟨x, k, hx, hpub, hname, -, -, hpublish⟩ := hentries e he
  obtain ⟨i, hi, j, hj, rfl, hreaches⟩ := hrequested hx
  rw [hreadings] at hpublish
  exact ⟨j, ⟨hj, hlinked'.published_withKinds c.environment.kinds {} hj hpub, i, hi, hreaches⟩,
    hname, hpublish⟩

/-- What is stored in one order is stored in the other. -/
theorem get?_of_ensureAll (hsub : roots ⊆ roots')
    (hbased : ∀ i ∈ roots', ∀ x, Reaches c.environment {} (c.environment.handmade i) x →
      Published c.environment {} x → ¬ SelfBased c.environment {} x)
    (hheld : ∀ i ∈ roots', ∀ x, Reaches c.environment {} (c.environment.handmade i) x →
      ¬ SelfHeld c.environment {} x)
    (hroots' : ∀ i ∈ roots', i < c.environment.size) (h : c.ensureAll roots {} = .ok ns s)
    (h' : c.ensureAll roots' {} = .ok ns' s') {name : String} {n : Node}
    (hn : s.registry.get? name = some n) : s'.registry.get? name = some n := by
  obtain ⟨j, hj, hname, hpublish⟩ := exists_shown_of_mem_entries hlinked hdistinct hroots h
    (fun i hi => hbased i (hsub hi)) (fun i hi => hheld i (hsub hi)) (mem_of_getKey? hn)
  obtain ⟨i, hi, hreaches⟩ := hj.reached
  have hstored := mem_names_of_shown hlinked hdistinct hroots' h'
    ⟨hj.made, hj.published, i, hsub hi, hreaches⟩
  rw [hname] at hstored
  obtain ⟨m, hm⟩ := Option.isSome_iff_exists.mp (Registry.isSome_get?_iff.mpr hstored)
  obtain ⟨k, hk, hname', hpublish'⟩ := exists_shown_of_mem_entries hlinked hdistinct hroots' h'
    hbased hheld (mem_of_getKey? hm)
  -- there is one descriptor of that name, and it is published as one schema
  obtain rfl := hdistinct.names hj.made hk.made hj.published.shape hk.published.shape
    (hname.trans hname'.symm)
  rw [hm, ← hpublish', hpublish]

end

/-- **The order does not show.**  Let everything that the descriptors made by hand name be
descriptors made by hand, let the keys and the names of those that may be published by name be
distinct, and let some of them be published in two orders, with success.  If no derived type among
those that they lead to and that are published by name has a base that leads back to it, and no type
composed in place has own properties that lead to a type that is published by name and leads back to
it, then the same schemas are stored under the same names. -/
theorem ensureAll_perm (c : Compiler) (hlinked : c.environment.Linked)
    (hdistinct : c.environment.Distinct) {roots roots' : List Nat}
    (hroots : ∀ i ∈ roots, i < c.environment.size) (hperm : roots.Perm roots')
    (hbased : ∀ i ∈ roots, ∀ x, Reaches c.environment {} (c.environment.handmade i) x →
      Published c.environment {} x → ¬ SelfBased c.environment {} x)
    (hheld : ∀ i ∈ roots, ∀ x, Reaches c.environment {} (c.environment.handmade i) x →
      ¬ SelfHeld c.environment {} x)
    {ns ns' : List Node} {s s' : Session} (h : c.ensureAll roots {} = .ok ns s)
    (h' : c.ensureAll roots' {} = .ok ns' s') (name : String) :
    s.registry.get? name = s'.registry.get? name := by
  have hroots' : ∀ i ∈ roots', i < c.environment.size := fun i hi => hroots i (hperm.mem_iff.mpr hi)
  have hbased' : ∀ i ∈ roots', ∀ x, Reaches c.environment {} (c.environment.handmade i) x →
      Published c.environment {} x → ¬ SelfBased c.environment {} x :=
    fun i hi => hbased i (hperm.mem_iff.mpr hi)
  have hheld' : ∀ i ∈ roots', ∀ x, Reaches c.environment {} (c.environment.handmade i) x →
      ¬ SelfHeld c.environment {} x := fun i hi => hheld i (hperm.mem_iff.mpr hi)
  refine Option.ext fun n => ⟨fun hn => ?_, fun hn => ?_⟩
  · exact get?_of_ensureAll hlinked hdistinct hroots hperm.subset hbased' hheld' hroots' h h' hn
  · exact get?_of_ensureAll hlinked hdistinct hroots' hperm.symm.subset hbased hheld hroots h' h hn

/-- A compiler that knows of vehicles and drivers, who lead to each other, of convoys, which are
lists of vehicles with a leader, and of trucks, which are vehicles that go in a convoy. -/
def fleet : Compiler where
  environment :=
    { program :=
        { crafted :=
            [{ name := "Vehicle"
               shape := .object
               properties := [{ name := "driver", type := .crafted 1 }] },
             { name := "Driver"
               shape := .object
               properties := [{ name := "vehicle", type := .crafted 0 }] },
             { name := "Convoy"
               shape := .object
               base := some (.crafted 0)
               annotations := [.property [("array", .bool true)]]
               properties := [{ name := "leader", type := .crafted 1 }] },
             { name := "Truck"
               shape := .object
               base := some (.crafted 0)
               properties := [{ name := "convoy", type := .crafted 2 }] }] }
      maxDepth := 8
      captureDefaults := false }
  refPrefix := .ok "#/components/schemas/"
  release := "3.1.0"

/-- It is no matter whether convoys or trucks are published first. -/
theorem fleet_ensureAll_perm : fleet.environment.Linked ∧ fleet.environment.Distinct ∧
    [2, 3].Perm [3, 2] ∧ ∃ ns s ns' s', fleet.ensureAll [2, 3] {} = .ok ns s ∧
      fleet.ensureAll [3, 2] {} = .ok ns' s' ∧ s.registry.names = ["Driver", "Vehicle", "Truck"] ∧
      ∀ name, s.registry.get? name = s'.registry.get? name := by
  have hlinked : fleet.environment.Linked := by
    intro d hd t ht
    fin_cases hd <;> fin_cases ht <;> exact ⟨_, by decide, rfl⟩
  have hdistinct : fleet.environment.Distinct := Environment.distinct_of_fin (by decide)
  -- vehicles and drivers lead to nothing else, and have no base
  have hvehicles : Hereditary fleet.environment {} fun x =>
      x = fleet.environment.handmade 0 ∨ x = fleet.environment.handmade 1 := by
    rintro d x hd ⟨t, ht, hx⟩
    rcases hd with rfl | rfl
    all_goals
      rcases (partOf_named rfl ht).2 with hbase | ⟨-, q, hq, rfl⟩
      · cases hbase
      · cases List.mem_singleton.mp hq
        cases hx ⟨{}, []⟩ (.refl _)
        first
          | exact .inl rfl
          | exact .inr rfl
  have hreached {i : Nat} (hi : i ∈ [2, 3]) {x : Descriptor}
      (hx : Reaches fleet.environment {} (fleet.environment.handmade i) x) :
      x = fleet.environment.handmade 0 ∨ x = fleet.environment.handmade 1 ∨
        x = fleet.environment.handmade 2 ∨ x = fleet.environment.handmade 3 := by
    have hi : i < 4 := by
      rcases List.mem_pair.mp hi with rfl | rfl <;> decide
    obtain ⟨j, hj, rfl⟩ := Hereditary.of_reaches hlinked.hereditary ⟨i, hi, rfl⟩ hx
    match j, hj with
    | 0, _ => exact .inl rfl
    | 1, _ => exact .inr (.inl rfl)
    | 2, _ => exact .inr (.inr (.inl rfl))
    | 3, _ => exact .inr (.inr (.inr rfl))
  have hbased : ∀ i ∈ [2, 3], ∀ x,
      Reaches fleet.environment {} (fleet.environment.handmade i) x →
        Published fleet.environment {} x → ¬ SelfBased fleet.environment {} x := by
    rintro i hi x hx - ⟨base, b, y, hbase, hb, hy, -, hsame⟩
    rcases hreached hi hx with rfl | rfl | rfl | rfl
    · cases hbase
    · cases hbase
    all_goals
      cases hbase
      cases hb ⟨{}, []⟩ (.refl _)
      rcases Hereditary.of_reaches hvehicles (.inl rfl) hy with rfl | rfl <;> cases hsame
  have hheld : ∀ i ∈ [2, 3], ∀ x,
      Reaches fleet.environment {} (fleet.environment.handmade i) x →
        ¬ SelfHeld fleet.environment {} x := by
    rintro i hi x hx ⟨⟨-, -, hbase, -, c, hmerge, harray⟩, q, hq, y, z, a, hy, hz, -, ha, harr, -⟩
    rcases hreached hi hx with rfl | rfl | rfl | rfl
    · exact hbase rfl
    · exact hbase rfl
    · cases List.mem_singleton.mp hq
      cases hy ⟨{}, []⟩ (.refl _)
      rcases Hereditary.of_reaches hvehicles (.inr rfl) (hz.trans ha) with rfl | rfl
      · exact harr.base rfl
      · exact harr.base rfl
    · cases hmerge
      cases harray
  have hnames : yields (fleet.ensureAll [2, 3]) {} fun _ s =>
      s.registry.names == ["Driver", "Vehicle", "Truck"] := by decide +kernel
  obtain ⟨ns, s, h, hnames⟩ := exists_of_yields hnames
  have hsucceeds : yields (fleet.ensureAll [3, 2]) {} fun _ _ => true := by decide +kernel
  obtain ⟨ns', s', h', -⟩ := exists_of_yields hsucceeds
  refine ⟨hlinked, hdistinct, .swap _ _ _, ns, s, ns', s', h, h', eq_of_beq hnames, ?_⟩
  exact ensureAll_perm fleet hlinked hdistinct (by decide) (.swap _ _ _) hbased hheld h h'

/-- A compiler that knows of vehicles, of convoys, which are lists of vehicles with a leader, and of
drivers, who lead convoys. -/
def depot : Compiler where
  environment :=
    { program :=
        { crafted :=
            [{ name := "Vehicle", shape := .object },
             { name := "Convoy"
               shape := .object
               base := some (.crafted 0)
               annotations := [.property [("array", .bool true)]]
               properties := [{ name := "leader", type := .crafted 2 }] },
             { name := "Driver"
               shape := .object
               properties := [{ name := "convoy", type := .crafted 1 }] }] }
      maxDepth := 8
      captureDefaults := false }
  refPrefix := .ok "#/components/schemas/"
  release := "3.1.0"

/-- Whether a schema is an object that holds an array. -/
def holdsArray : Option Node → Bool
  | some (.object _ [(_, .array ..)] _ _) => true
  | _ => false

/-- **The order shows where an array holds what leads back to it.**  A driver is stored with any
object for a convoy if convoys are published first, and with an array if drivers are. -/
theorem depot_ensureAll_ne : depot.environment.Linked ∧ depot.environment.Distinct ∧
    [1, 2].Perm [2, 1] ∧ ∃ ns s ns' s', depot.ensureAll [1, 2] {} = .ok ns s ∧
      depot.ensureAll [2, 1] {} = .ok ns' s' ∧
      s.registry.get? "Driver" ≠ s'.registry.get? "Driver" := by
  have hlinked : depot.environment.Linked := by
    intro d hd t ht
    fin_cases hd <;> fin_cases ht <;> exact ⟨_, by decide, rfl⟩
  have hcut : yields (depot.ensureAll [1, 2]) {} fun _ s =>
      !holdsArray (s.registry.get? "Driver") := by decide +kernel
  obtain ⟨ns, s, h, hcut⟩ := exists_of_yields hcut
  have hwhole : yields (depot.ensureAll [2, 1]) {} fun _ s =>
      holdsArray (s.registry.get? "Driver") := by decide +kernel
  obtain ⟨ns', s', h', hwhole⟩ := exists_of_yields hwhole
  refine ⟨hlinked, Environment.distinct_of_fin (by decide), .swap _ _ _, ns, s, ns', s', h, h', ?_⟩
  intro heq
  rw [heq, hwhole] at hcut
  cases hcut

end Compiler

end Schemata
