import Schemata.Proofs.Compiler.References
import Schemata.Proofs.Synthesis.Chronicle
import Mathlib.Data.List.Induction
import Mathlib.Tactic.FinCases

/-!
# Whose schema a reference leads to

Two types may have the same name.  They must not share an entry: a reference to the one would then
lead to the schema of the other.  `run_cites_own` says that this never happens, whatever calls are
made, in whatever order, and however they end: every reference that is handed out for a type leads
to an entry that was stored for that very type, and no two types of one name are both published.

What calls do is told by the annals of a run, `Annals`: the deeds of all the calls that publish
something, one call after another.  A call that fails does nothing that lasts, and inferring a
schema does nothing at all.  Within a call the name of a type that is referred to belongs to that
type (`Chronicle.rightful`); that it still does so calls later, when another type of that name is
met, is since claims on stored names are never forgotten.

Names are told apart by keys.  If two types had the same key, the one would be taken for the other.
-/

namespace Schemata

namespace Compiler

/-! ## Annals -/

/-- **What the calls of a run have done, and what they have given**, as told by a session that knows
as much as the one that they end in. -/
inductive Annals (c : Compiler) (S : Session) : List Call → List Deed → List Node → Prop
  | none : Annals c S [] [] []
  | failed {calls : List Call} {call : Call} {ds : List Deed} {given : List Node} {e : Fault}
      {s' : Session} (hbefore : Annals c S calls ds given)
      (hanswer : c.answer call (c.run calls) = .error e s') :
      Annals c S (calls ++ [call]) ds given
  | inferred {calls : List Call} {call : Call} {ds : List Deed} {given : List Node} {n : Node}
      {s' : Session} (hbefore : Annals c S calls ds given) (hcall : call.published? = .none)
      (hanswer : c.answer call (c.run calls) = .ok n s') :
      Annals c S (calls ++ [call]) ds given
  | published {calls : List Call} {call : Call} {t : Token} {d : Descriptor} {ds new : List Deed}
      {given : List Node} {m n : Node} {s' : Session} {σ : Scene}
      (hbefore : Annals c S calls ds given) (hcall : call.published? = some t)
      (hanswer : c.answer call (c.run calls) = .ok m s')
      (hensure : c.ensure t (c.run calls) = .ok n s')
      (hdescribe : S.Settles (c.environment.describe t) d)
      (hdeeds : Chronicle c.environment S (.refers d n) (c.run calls).scene σ new)
      (hend : s'.scene = σ.resting) :
      Annals c S (calls ++ [call]) (ds ++ new) (given ++ [m])

variable {c : Compiler} {S s s' : Session} {calls : List Call} {call : Call} {t : Token}
  {m n : Node} {ds : List Deed} {given : List Node}

/-- However a call ends, the session knows all that it knew. -/
theorem below_after_answer (hs : s.Tidy c.environment) : s.Below (after (c.answer call) s) := by
  unfold after
  cases h : c.answer call s with
  | ok n s' => exact (grows_of_answer hs h).1.below
  | error e s' => exact (learns_of_answer hs h).below

theorem below_of_append (hS : (c.run (calls ++ [call])).Below S) : (c.run calls).Below S := by
  rw [run_append] at hS
  exact (below_after_answer (tidy_run c calls)).trans hS

/-- A call that publishes a type gives what publishing it gives, or a copy of an entry. -/
theorem ensure_of_published (hcall : call.published? = some t)
    (hanswer : c.answer call s = .ok m s') :
    ∃ n, c.ensure t s = .ok n s' ∧ (m = n ∨ ∃ name, s'.registry.get? name = some m) := by
  cases call with
  | ensure u =>
    cases hcall
    exact ⟨m, hanswer, .inl rfl⟩
  | schemaFor u inlined =>
    cases hcall
    exact schemaFor_eq_ok hanswer
  | infer u inlined => cases hcall

/-- **Every run has its annals.** -/
theorem exists_annals (c : Compiler) (calls : List Call) (hS : (c.run calls).Below S) :
    ∃ ds given, Annals c S calls ds given := by
  induction calls using List.reverseRecOn with
  | nil => exact ⟨[], [], .none⟩
  | append_singleton calls call ih =>
    obtain ⟨ds, given, hbefore⟩ := ih (below_of_append hS)
    cases hanswer : c.answer call (c.run calls) with
    | error e s' => exact ⟨ds, given, hbefore.failed hanswer⟩
    | ok m s' =>
      cases hcall : call.published? with
      | none => exact ⟨ds, given, hbefore.inferred hcall hanswer⟩
      | some t =>
        have hbelow : s'.Below S := by
          rw [run_append, after_of_ok hanswer] at hS
          exact hS
        obtain ⟨n, hensure, -⟩ := ensure_of_published hcall hanswer
        obtain ⟨d, σ, hdescribe, hderives, hend⟩ := derives_of_ensure hensure hbelow
        obtain ⟨new, hdeeds⟩ := exists_chronicle hderives
        exact ⟨_, _, hbefore.published hcall hanswer hensure hdescribe hdeeds hend⟩

/-! ## What annals tell -/

/-- The names of the types that references have been handed out for. -/
def cited (ds : List Deed) : List String :=
  ds.filterMap fun
    | .cites d => some d.name
    | _ => none

@[simp] theorem mem_cited {name : String} :
    name ∈ cited ds ↔ ∃ d, .cites d ∈ ds ∧ d.name = name := by
  unfold cited
  rw [List.mem_filterMap]
  constructor
  · rintro ⟨deed, hdeed, heq⟩
    split at heq
    next d =>
      cases heq
      exact ⟨d, hdeed, rfl⟩
    next => cases heq
  · rintro ⟨d, hd, rfl⟩
    exact ⟨_, hd, rfl⟩

theorem cited_subset_append {new : List Deed} : cited ds ⊆ cited (ds ++ new) := by
  unfold cited
  rw [List.filterMap_append]
  exact List.subset_append_left _ _

/-- What the annals of a run tell of the session that the run ends in. -/
structure Recorded (env : Environment) (S : Session) (ds : List Deed) (given : List Node)
    (s : Session) : Prop where
  entries : s.registry.entries = ds.filterMap Deed.entry?
  rightful : ∀ deed ∈ ds, deed.Rightful env S s.scene
  shows : s.scene.Shows (cited ds)
  given : ∀ n ∈ given, n.MentionsOnly (cited ds)

namespace Recorded

variable {env : Environment} {σ : Scene} {new : List Deed}

theorem of_learns (h : Recorded env S ds given s) (hlearns : s.Learns env s') :
    Recorded env S ds given s' where
  entries := by
    rw [hlearns.registry]
    exact h.entries
  rightful := by
    rw [hlearns.scene]
    exact h.rightful
  shows := by
    rw [hlearns.scene]
    exact h.shows
  given := h.given

/-- **A call that publishes a type** adds its deeds to the annals. -/
theorem of_published {d : Descriptor} (h : Recorded env S ds given s) (hw : S.WellRead env)
    (hkeys : env.KeysDistinct) (htended : s.scene.Tended env S) (hd : S.Describes env d)
    (hdeeds : Chronicle env S (.refers d n) s.scene σ new)
    (hend : s'.scene = { σ with visited := [] })
    (hgiven : m = n ∨ ∃ name, s'.registry.get? name = some m) :
    Recorded env S (ds ++ new) (given ++ [m]) s' := by
  have hentries : s'.registry.entries = σ.registry.entries :=
    congrArg (fun σ => σ.registry.entries) hend
  have hclaims : σ.claims = s'.scene.claims := by rw [hend]
  have hold : cited ds ⊆ cited (ds ++ new) := cited_subset_append
  obtain ⟨hshows, hn⟩ := hdeeds.shows
    (fun x hx => mem_cited.mpr ⟨x, List.mem_append_right _ hx, rfl⟩)
    (fun e he => (h.shows e he).mono hold) trivial
  have hshows' : s'.scene.Shows (cited (ds ++ new)) := by
    rw [hend]
    exact hshows
  refine ⟨?_, ?_, hshows', ?_⟩
  · rw [hentries, hdeeds.entries, List.filterMap_append]
    exact congrArg (· ++ _) h.entries
  · refine List.forall_mem_append.mpr ⟨fun deed hdeed => ?_, fun deed hdeed => ?_⟩
    · exact (h.rightful deed hdeed).mono (hclaims ▸ claims_of_derives hdeeds.derives)
    · exact (hdeeds.rightful hw hkeys htended hd deed hdeed).mono (hclaims ▸ List.prefix_refl _)
  · refine List.forall_mem_append.mpr ⟨fun m' hm' => (h.given m' hm').mono hold, ?_⟩
    refine List.forall_mem_singleton.mpr ?_
    rcases hgiven with rfl | ⟨name, hget⟩
    · exact hn
    · exact hshows' _ (Registry.mem_entries_of_get? hget)

end Recorded

section

variable (hkeys : c.environment.KeysDistinct) (hS : S.WellRead c.environment)
include hkeys hS

/-- Between calls nothing is visited, and so every visited type has its name. -/
theorem tended_run (calls : List Call) (hbelow : (c.run calls).Below S) :
    (c.run calls).scene.Tended c.environment S :=
  Scene.tended_of_unvisited (sound_run hkeys hS calls hbelow).owned rfl

/-- **The annals of a run tell of the session that the run ends in.** -/
theorem recorded_of_annals (h : Annals c S calls ds given) (hbelow : (c.run calls).Below S) :
    Recorded c.environment S ds given (c.run calls) := by
  induction h with
  | none =>
    exact ⟨rfl, fun _ h => absurd h List.not_mem_nil, fun _ h => absurd h List.not_mem_nil,
      fun _ h => absurd h List.not_mem_nil⟩
  | @failed calls call ds given e s' _ hanswer ih =>
    have hbefore := below_of_append hbelow
    rw [run_append, after_of_error hanswer]
    exact (ih hbefore).of_learns (learns_of_answer (tidy_run c calls) hanswer)
  | @inferred calls call ds given n s' _ hcall hanswer ih =>
    have hbefore := below_of_append hbelow
    rw [run_append, after_of_ok hanswer]
    cases call with
    | infer t inlined =>
      exact (ih hbefore).of_learns ((learns_inferWithin c inlined nestingLimit t).ok hanswer)
    | ensure t => cases hcall
    | schemaFor t inlined => cases hcall
  | @published calls call t d ds new given m n s' σ _ hcall hanswer hensure hdescribe hdeeds hend
      ih =>
    have hbefore := below_of_append hbelow
    have htended := tended_run hkeys hS calls hbefore
    have hadds := htended.owned.adds hereditary_describes (.refers hdescribe) hdeeds.derives
    rw [Scene.resting_eq ((tidy_run c calls).claimed_subset_of_adds hadds)] at hend
    obtain ⟨n', hensure', hgiven⟩ := ensure_of_published hcall hanswer
    cases hensure.symm.trans hensure'
    rw [run_append, after_of_ok hanswer]
    exact (ih hbefore).of_published hS hkeys htended ⟨t, hdescribe⟩ hdeeds hend hgiven

/-- Owners of one name are one type. -/
theorem kin_of_owns {d d' : Descriptor} (hd : S.Describes c.environment d)
    (hd' : S.Describes c.environment d') (hpub : Published c.environment S d)
    (hpub' : Published c.environment S d') (hname : d.name = d'.name) {σ : Scene}
    (howned : σ.Owned c.environment S (S.Describes c.environment)) (howns : σ.Owns d)
    (howns' : σ.Owns d') : d.Kin d' := by
  obtain ⟨k, hk, hsame⟩ := howns
  obtain ⟨k', hk', hsame'⟩ := howns'
  rw [hname, hk'] at hk
  cases hk
  obtain ⟨x, hx, hpubx, hclaim⟩ := howned.claims _ (mem_of_getKey? hk')
  obtain ⟨-, rfl⟩ := Prod.mk.inj hclaim
  have hkin := kin_of_described hS hkeys hx hd hpubx.shape hpub.shape hsame
  have hkin' := kin_of_described hS hkeys hx hd' hpubx.shape hpub'.shape hsame'
  exact hkin.symm.trans hkin'

end

/-- **A reference leads to the schema of the type that it was handed out for.**  Let there be any
number of calls, whether they succeed or fail.  What the ones that publish something do, from the
first reference to the last entry, can be told, and however it is told:

the entries of the registry are those that were stored, each of them for a type of its name; for a
type that a reference was handed out for an entry was stored, and it is what is found under the name
of the type; types of one name that are published by name, and that were met, are one type; and
every reference in a schema that is stored or given was handed out for a type of its name. -/
theorem run_cites_own (c : Compiler) (hkeys : c.environment.KeysDistinct) (calls : List Call) :
    (∃ ds given, Annals c (c.run calls) calls ds given) ∧
      ∀ ds given, Annals c (c.run calls) calls ds given →
        (c.run calls).registry.entries = ds.filterMap Deed.entry? ∧
        (∀ d, .cites d ∈ ds → ∃ x n, .stores x n ∈ ds ∧ x.Kin d ∧
          (c.run calls).registry.get? d.name = some n) ∧
        (∀ d d', .meets d ∈ ds → .meets d' ∈ ds →
          Published c.environment (c.run calls) d → Published c.environment (c.run calls) d' →
            d.name = d'.name → d.Kin d') ∧
        (∀ e ∈ (c.run calls).registry.entries, ∀ name, e.2.Mentions name →
          ∃ d, .cites d ∈ ds ∧ d.name = name) ∧
        ∀ n ∈ given, ∀ name, n.Mentions name → ∃ d, .cites d ∈ ds ∧ d.name = name := by
  have hS := (tidy_run c calls).wellRead
  refine ⟨exists_annals c calls (.refl _), fun ds given hannals => ?_⟩
  have hrecorded := recorded_of_annals hkeys hS hannals (.refl _)
  have howned := (sound_run hkeys hS calls (.refl _)).owned
  refine ⟨hrecorded.entries, fun d hd => ?_, fun d d' hd hd' hpub hpub' hname => ?_,
    fun e he name hname => mem_cited.mp (hrecorded.shows e he name hname),
    fun n hn name hname => mem_cited.mp (hrecorded.given n hn name hname)⟩
  · obtain ⟨hdescribed, hpub, howns⟩ := hrecorded.rightful _ hd
    have hstored : d.name ∈ (c.run calls).registry.names :=
      (tidy_run c calls).claimed_subset howns.mem_claimed
    obtain ⟨n, hget⟩ := Option.isSome_iff_exists.mp (Registry.isSome_get?_iff.mpr hstored)
    have hentry := Registry.mem_entries_of_get? hget
    rw [hrecorded.entries] at hentry
    obtain ⟨deed, hdeed, heq⟩ := List.mem_filterMap.mp hentry
    cases deed with
    | stores x m =>
      obtain ⟨hname, rfl⟩ := Prod.mk.inj (Option.some.inj heq)
      obtain ⟨hx, hpubx, hownsx⟩ := hrecorded.rightful _ hdeed
      exact ⟨x, m, hdeed,
        kin_of_owns hkeys hS hx hdescribed hpubx hpub hname howned hownsx howns, hget⟩
    | meets | cites => cases heq
  · obtain ⟨hdescribed, howns⟩ := hrecorded.rightful _ hd
    obtain ⟨hdescribed', howns'⟩ := hrecorded.rightful _ hd'
    exact kin_of_owns hkeys hS hdescribed hdescribed' hpub hpub' hname howned (howns hpub)
      (howns' hpub')

/-- A compiler that knows of two types with the same name: an order has items, an item belongs to an
order, and an item of a stock has a place. -/
def warehouse : Compiler where
  environment :=
    { program :=
        { crafted :=
            [{ name := "Order"
               shape := .object
               properties := [{ name := "item", type := .crafted 1 }] },
             { name := "Item"
               shape := .object
               properties := [{ name := "order", type := .crafted 0 }] },
             { name := "Item"
               shape := .object
               properties := [{ name := "place", type := .builtin .text }] }] }
      maxDepth := 8
      captureDefaults := false }
  refPrefix := .ok "#/components/schemas/"
  release := "3.1.0"

/-- An order is published, and an item of a stock is then refused: the item that the order refers
to has its name. -/
theorem warehouse_cites_own : warehouse.environment.KeysDistinct ∧
    ((warehouse.run [.ensure (.crafted 0), .ensure (.crafted 2)]).registry.names =
        ["Item", "Order"] ∧
      ∃ first second s', warehouse.ensure (.crafted 2) (warehouse.run [.ensure (.crafted 0)]) =
        .error (.duplicateName "Item" first second) s') ∧
    ∃ ds given,
      Annals warehouse (warehouse.run [.ensure (.crafted 0), .ensure (.crafted 2)])
        [.ensure (.crafted 0), .ensure (.crafted 2)] ds given ∧
      ∀ d, .cites d ∈ ds → ∃ x n, .stores x n ∈ ds ∧ x.Kin d ∧
        (warehouse.run [.ensure (.crafted 0), .ensure (.crafted 2)]).registry.get? d.name =
          some n := by
  have hkeys : warehouse.environment.KeysDistinct := by
    refine Environment.keysDistinct_of_unsourced fun d hd => ?_
    fin_cases hd <;> rfl
  obtain ⟨⟨ds, given, hannals⟩, htold⟩ :=
    run_cites_own warehouse hkeys [.ensure (.crafted 0), .ensure (.crafted 2)]
  exact ⟨hkeys, ⟨by decide +kernel, _, _, _, rfl⟩, ds, given, hannals, (htold ds given hannals).2.1⟩

end Compiler

end Schemata
