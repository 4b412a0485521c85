import Schemata.Proofs.Compiler.Order
import Schemata.Proofs.Synthesis.Remnants

/-!
# A group that a host gives up

A host can put calls into a group of writes of its own, and give the group up: the registry is then
what it was before.  `run_abandon` tells what later calls have to do with it.

Nothing that is stored is left of such a group, but two other things are.  The types it has read
have been read; so what comes later is compared with what would come had they only been read, which
is what would come had nothing happened if the types were made by hand.  And the names that it has
stored are still claimed.  Within a call, claims go along with what is stored, since they are pruned
when the call ends (`Session.Tidy`).  A host's own group ends between two calls, and nothing prunes
them then.

## Where it fails

The next call that gets as far as referring to a type meets the claims that are left over.  If it
comes to a type that is published by name, and the group had stored that name for another type, then
it is refused (`studio_abandon_ne`), though nothing of that name is stored.  There is nothing else
that can go wrong, and when the call ends the claims are gone.
-/

namespace Schemata

variable {env : Environment} {B u v s s' S : Session} {L : List (String × Key)} {w w' : Walk}

/-! ## What is left over -/

/-- The claims on names that are not stored. -/
def Session.leftover (s : Session) : List (String × Key) :=
  s.claims.filter fun c => !s.registry.contains c.1

theorem Session.getKey?_leftover {name : String} : getKey? name s.leftover =
    if !s.registry.contains name then getKey? name s.claims else none :=
  getKey?_filter (p := fun name => !s.registry.contains name)

/-- One session is another with claims that are left over. -/
def Session.Laden (env : Environment) (L : List (String × Key)) (u v : Session) : Prop :=
  Walk.Laden env u L ⟨u, []⟩ ⟨v, []⟩

/-- **A type that stands in the way** of publishing another one: the other leads to it, it is
published by name, and the name is left over for neither of its descriptors. -/
def Session.Hinders (env : Environment) (u : Session) (L : List (String × Key)) (t : Token)
    (x : Descriptor) : Prop :=
  ∃ S d k, u.Below S ∧ S.WellRead env ∧ S.Settles (env.describe t) d ∧ Reaches env S d x ∧
    Published env S x ∧ getKey? x.name L = some k ∧ k.same x.key = false

/-- Where nothing is left over, nothing stands in the way. -/
@[simp] theorem Session.not_hinders_nil {t : Token} {x : Descriptor} : ¬ u.Hinders env [] t x := by
  rintro ⟨_, _, _, _, _, _, _, _, hleft, _⟩
  cases hleft

theorem Tenants.of_nil {name : String} {o o' : Option Key} (h : Tenants env S [] name o o') :
    Tenants env S L name o o' := by
  cases h with
  | kin hx hy hshape hkin => exact .kin hx hy hshape hkin
  | nobody => exact .nobody
  | left _ _ hleft => cases hleft

theorem Walk.Laden.of_nil {v : Walk} (h : w.Laden env B [] v) : w.Laden env B L v :=
  { h with owners := fun name => (h.owners name).of_nil }

/-- A walk from sessions with nothing visited. -/
theorem Session.tallies_run {α : Type} {x : Build α} {R : Walk → Walk → Prop}
    {Q : Session → Session → Prop} {Z : Fault → Prop} (h : Tallies R Z (x ⟨u, []⟩) (x ⟨v, []⟩))
    (hQ : ∀ {w w'}, R w w' → Q w.session w'.session) :
    Tallies Q Z (Session.run x u) (Session.run x v) := by
  unfold Session.run
  revert h
  generalize x ⟨u, []⟩ = r, x ⟨v, []⟩ = r'
  intro h
  cases h with
  | ok h => exact .ok (hQ h)
  | error h => exact .error (hQ h)
  | cut h => cases r <;> exact .cut h

/-- The sessions of two walks, where what is known by now is what is known at first. -/
theorem Walk.Laden.session {v : Walk} (h : w.Laden env B L v) :
    w.session.Laden env L v.session :=
  { h.visiting fun _ => [] with below := .refl _ }

/-- A group is opened on both sides. -/
theorem Session.Laden.opened (h : u.Laden env L v) :
    Walk.Laden env u L ⟨Registry.within Registry.open_ u, []⟩
      ⟨Registry.within Registry.open_ v, []⟩ :=
  ⟨⟨h.abreast.readings, rfl⟩, congrArg Registry.open_ h.registry, h.depth,
    fun name => (h.owners name).mono (.refl _), h.names, h.wellRead,
    h.recalls.of_eq (.refl _) rfl, h.recalls'.of_eq (.refl _) rfl, .refl _⟩

/-- **When a call ends nothing is left over**: the names that are still stored have had owners on
both sides, and no other name keeps one. -/
theorem Walk.Laden.ended {v : Walk} (h : w.Laden env B L v) {f : Registry Node → Registry Node}
    (hf : (f w.session.registry).names ⊆ w.session.registry.names) :
    Session.Laden env [] (Registry.within f w.session).prune
      (Registry.within f v.session).prune := by
  have hregistry : f v.session.registry = f w.session.registry := congrArg f h.registry
  refine ⟨⟨h.abreast.readings, rfl⟩, hregistry, h.depth, fun name => ?_, fun name hname => ?_,
    h.wellRead, h.recalls.of_eq (.refl _) rfl, h.recalls'.of_eq (.refl _) rfl, .refl _⟩
  · show Tenants env _ [] name
      (getKey? name (w.session.claims.filter fun c => (f w.session.registry).contains c.1))
      (getKey? name (v.session.claims.filter fun c => (f v.session.registry).contains c.1))
    rw [hregistry, getKey?_filter, getKey?_filter]
    split
    next hstored =>
      have hclaimed := h.names (hf (Registry.contains_iff.mp hstored))
      have howners := h.owners name
      generalize hw : getKey? name w.session.claims = ow,
        getKey? name v.session.claims = ov at howners ⊢
      cases howners with
      | kin hx hy hshape hkin => exact .kin (hx.mono (.refl _)) (hy.mono (.refl _)) hshape hkin
      | nobody | left => exact absurd hclaimed (getKey?_eq_none_iff.mp hw)
    next => exact .nobody
  · obtain ⟨c, hc, rfl⟩ := List.mem_map.mp (h.names (hf hname))
    exact List.mem_map_of_mem (List.mem_filter.mpr ⟨hc, Registry.contains_iff.mpr hname⟩)

theorem Registry.names_commit_subset {α : Type} (r : Registry α) : r.commit.names ⊆ r.names := by
  unfold commit
  split <;> exact List.Subset.refl _

theorem Registry.names_rollback_subset {α : Type} (r : Registry α) :
    r.rollback.names ⊆ r.names := by
  unfold rollback
  split
  · exact List.Subset.refl _
  · exact List.map_subset _ (List.filter_subset_self _)

namespace Compiler

variable {c : Compiler} {t : Token} {ts : List Token} {d : Descriptor}

/-! ## The next call -/

section

variable (hkeys : c.environment.KeysDistinct)
include hkeys

/-- A described type is published evenly, and nothing is left over then. -/
theorem tallies_publish (h : u.Laden c.environment L v) (hd : u.Describes c.environment d) :
    Tallies (Session.Laden c.environment []) (Hindrance c.environment u L d)
      (Session.pruning (Registry.transaction (Session.run (c.environment.referRoot d))) u)
      (Session.pruning (Registry.transaction (Session.run (c.environment.referRoot d))) v) := by
  have hrefer := Evenly.referRoot (B := u) (L := L) hkeys hd h.opened
  unfold Session.pruning Registry.transaction Session.run
  revert hrefer
  generalize c.environment.referRoot d ⟨Registry.within Registry.open_ u, []⟩ = r,
    c.environment.referRoot d ⟨Registry.within Registry.open_ v, []⟩ = r'
  intro hrefer
  cases hrefer with
  | ok h' => exact .ok (h'.ended (Registry.names_commit_subset _))
  | error h' => exact .error (h'.ended (Registry.names_rollback_subset _))
  | cut hcut =>
    cases r with
    | ok n w => exact .cut hcut
    | error e w => exact .cut hcut

/-- **A type is published evenly**, if no other type stands in the way. -/
theorem tallies_ensure (h : u.Laden c.environment L v) :
    Tallies (Session.Laden c.environment L)
      (fun e => ∃ x first second, u.Hinders c.environment L t x ∧
        e = .duplicateName x.name first second) (c.ensure t u) (c.ensure t v) := by
  unfold ensure
  refine Tallies.bind ?_ fun {d u₁ v₁} hdescribe _ h₁ => ?_
  · exact Session.tallies_run (h.tallies_of_reads (Environment.heeds_describe t)
      (Environment.reads_describe t)) fun h' => h'.session
  · have hlearns := (learns_describe c t).ok hdescribe
    obtain ⟨w, hw, rfl⟩ := Session.run_eq_ok.mp hdescribe
    have hd := (Environment.reads_describe t).settles hw
    refine (tallies_publish hkeys h₁ ⟨t, hd⟩).mono Walk.Laden.of_nil ?_
    rintro e ⟨S, x, k, first, second, hbelow, hS, hx, hpub, hleft, hother, rfl⟩
    exact ⟨x, first, second,
      ⟨S, d, k, hlearns.below.trans hbelow, hS, hd.mono hbelow, hx, hpub, hleft, hother⟩, rfl⟩

end

/-! ## The group -/

/-- The session after some types have been published in turn, whether or not that has succeeded. -/
def ensures (c : Compiler) (ts : List Token) (s : Session) : Session :=
  ts.foldl (fun s t => after (c.ensure t) s) s

/-- **A group that is given up**, after some types have been published in it. -/
def abandon (c : Compiler) (ts : List Token) (e : Fault) : Request Unit :=
  Registry.transaction fun s => .error e (c.ensures ts s)

/-- The session in which a group has been given up after some calls. -/
def abandoned (c : Compiler) (calls : List Call) (ts : List Token) (e : Fault) : Session :=
  after (c.abandon ts e) (c.run calls)

/-- The session in which what a group reads has been read after some calls, and nothing else has
come of it. -/
def spared (c : Compiler) (calls : List Call) (ts : List Token) (e : Fault) : Session :=
  { c.run calls with readings := (c.abandoned calls ts e).readings }

/-- However publishing a type ends, the session has grown, and is tidy. -/
theorem grows_after_ensure (hs : s.Tidy c.environment) :
    s.Grows c.environment (after (c.ensure t) s) ∧ (after (c.ensure t) s).Tidy c.environment := by
  unfold after
  cases h : c.ensure t s with
  | ok n s' => exact grows_of_ensure hs h
  | error e s' => exact ⟨(learns_of_ensure hs h).grows, hs.of_learns (learns_of_ensure hs h)⟩

theorem grows_ensures (ts : List Token) (hs : s.Tidy c.environment) :
    s.Grows c.environment (c.ensures ts s) ∧ (c.ensures ts s).Tidy c.environment := by
  induction ts generalizing s with
  | nil => exact ⟨.refl s, hs⟩
  | cons t ts ih =>
    obtain ⟨hgrows, htidy⟩ := grows_after_ensure (t := t) hs
    obtain ⟨hgrows', htidy'⟩ := ih htidy
    exact ⟨hgrows.trans hgrows', htidy'⟩

theorem recalls_ensures (hs : s.Recalls c.environment) :
    (c.ensures ts s).Recalls c.environment := by
  induction ts generalizing s with
  | nil => exact hs
  | cons t ts ih => exact ih (recollects_ensure c t s hs)

section

variable (hkeys : c.environment.KeysDistinct) (hS : S.WellRead c.environment)
include hkeys hS

theorem sound_after_ensure (hs : s.Tidy c.environment)
    (hsound : Session.Sound c.environment S s) (hbelow : (after (c.ensure t) s).Below S) :
    Session.Sound c.environment S (after (c.ensure t) s) := by
  unfold after at hbelow ⊢
  cases h : c.ensure t s with
  | ok n s' =>
    rw [h] at hbelow
    exact (sound_of_ensure hkeys hS hs hsound h hbelow).1
  | error e s' => exact hsound.of_learns (learns_of_ensure hs h)

/-- Types that have been published in turn leave a session sound. -/
theorem sound_ensures (hs : s.Tidy c.environment) (hsound : Session.Sound c.environment S s)
    (hbelow : (c.ensures ts s).Below S) : Session.Sound c.environment S (c.ensures ts s) := by
  induction ts generalizing s with
  | nil => exact hsound
  | cons t ts ih =>
    have htidy := (grows_after_ensure (t := t) hs).2
    have hbelow₁ := (grows_ensures ts htidy).1.below.trans hbelow
    exact ih htidy (sound_after_ensure hkeys hS hs hsound hbelow₁) hbelow

end

/-- Where types are made by hand, nothing is read. -/
theorem readings_ensures (hlinked : c.environment.Linked)
    (hts : ∀ t ∈ ts, ∃ i, i < c.environment.size ∧ t = .crafted i) (s : Session) :
    (c.ensures ts s).readings = s.readings := by
  induction ts generalizing s with
  | nil => rfl
  | cons t ts ih =>
    obtain ⟨⟨i, hi, rfl⟩, hrest⟩ := List.forall_mem_cons.mp hts
    exact (ih hrest _).trans (readings_after_ensure hlinked hi s)

section

variable (hkeys : c.environment.KeysDistinct) (calls : List Call) (ts : List Token) (e : Fault)

/-- Where types are made by hand, nothing has come of a group that is given up. -/
theorem spared_eq_run (hlinked : c.environment.Linked)
    (hts : ∀ t ∈ ts, ∃ i, i < c.environment.size ∧ t = .crafted i) :
    c.spared calls ts e = c.run calls := by
  unfold spared
  rw [show (c.abandoned calls ts e).readings = (c.run calls).readings from
    readings_ensures hlinked hts _]

/-- **What is left of a group that is given up**: nothing that is stored, and some claims. -/
theorem registry_abandoned : (c.abandoned calls ts e).registry = (c.run calls).registry ∧
    ∃ new, (c.abandoned calls ts e).claims = (c.run calls).claims ++ new := by
  have hopened : (Registry.within Registry.open_ (c.run calls)).Tidy c.environment :=
    { tidy_run c calls with }
  obtain ⟨hgrows, -⟩ := grows_ensures ts hopened
  obtain ⟨new, hgrown⟩ := hgrows.registry
  obtain ⟨claims, hclaims, -⟩ := hgrows.claims
  exact ⟨hgrown.rollback, claims, hclaims⟩

include hkeys

/-- A session in which a group has been given up is one that was spared it, with claims that are
left over. -/
theorem laden_abandoned : (c.spared calls ts e).Laden c.environment
    (c.abandoned calls ts e).leftover (c.abandoned calls ts e) := by
  have htidy := tidy_run c calls
  have hopened : (Registry.within Registry.open_ (c.run calls)).Tidy c.environment := { htidy with }
  obtain ⟨hgrows, hgrown⟩ := grows_ensures ts hopened
  obtain ⟨hregistry, new, hnew⟩ := registry_abandoned (c := c) calls ts e
  have hbelow : (c.run calls).Below (c.abandoned calls ts e) := hgrows.below
  have hread : (c.abandoned calls ts e).WellRead c.environment := hgrown.wellRead
  have hrecalls := recalls_run c calls
  have hsound : Session.Sound c.environment (c.abandoned calls ts e)
      (c.ensures ts (Registry.within Registry.open_ (c.run calls))) := by
    refine sound_ensures hkeys hread hopened ?_ (.refl _)
    have hrun := sound_run hkeys hread calls hbelow
    exact ⟨hrun.owned, hrun.closed⟩
  refine ⟨⟨rfl, rfl⟩, hregistry, ?_, fun name => ?_, ?_, hread, hrecalls.of_eq hbelow rfl, ?_,
    .refl _⟩
  · exact hgrows.depth
  · have howner {k : Key} (hk : getKey? name (c.abandoned calls ts e).claims = some k) :
        ∃ x, (c.abandoned calls ts e).Describes c.environment x ∧ x.shape.isInline = false ∧
          k = x.key := by
      obtain ⟨x, hx, hpub, heq⟩ := hsound.owned.claims _ (mem_of_getKey? hk)
      exact ⟨x, hx, hpub.shape, (Prod.mk.inj heq).2⟩
    show Tenants c.environment _ _ name (getKey? name (c.run calls).claims)
      (getKey? name (c.abandoned calls ts e).claims)
    cases hold : getKey? name (c.run calls).claims with
    | some k =>
      have hsame : getKey? name (c.abandoned calls ts e).claims = some k := by
        rw [hnew, getKey?_append, hold, Option.some_or]
      obtain ⟨x, hx, hshape, rfl⟩ := howner hsame
      rw [hsame]
      exact .kin (hx.mono (.refl _)) (hx.mono (.refl _)) hshape (.refl x)
    | none =>
      cases hleft : getKey? name (c.abandoned calls ts e).claims with
      | none => exact .nobody
      | some k =>
        obtain ⟨x, hx, hshape, rfl⟩ := howner hleft
        refine .left (hx.mono (.refl _)) hshape ?_
        -- nothing of that name is stored, since nobody had claimed it before
        have hfree : (c.abandoned calls ts e).registry.contains name = false := by
          rw [hregistry, Bool.eq_false_iff, ne_eq, Registry.contains_iff]
          exact fun hstored => getKey?_eq_none_iff.mp hold ((htidy.claimed name).mpr hstored)
        rw [Session.getKey?_leftover, hfree, hleft]
        rfl
  · exact fun name hname => (htidy.claimed name).mpr hname
  · have hrecalls' : (c.ensures ts (Registry.within Registry.open_ (c.run calls))).Recalls
        c.environment := recalls_ensures (hrecalls.of_eq (.refl _) rfl)
    exact hrecalls'.of_eq (.refl _) rfl

end

/-! ## Later calls -/

section

variable (hkeys : c.environment.KeysDistinct)
include hkeys

/-- After a type has been published that nothing stands in the way of, nothing is left over. -/
theorem laden_after_ensure {s₁ : Session} (h : u.Laden c.environment L v)
    (hd : c.describe t u = .ok d s₁) (hclear : ∀ x, ¬ u.Hinders c.environment L t x) :
    (after (c.ensure t) u).Laden c.environment [] (after (c.ensure t) v) := by
  have hdescribes : Tallies (Session.Laden c.environment L) (fun _ => False) (c.describe t u)
      (c.describe t v) :=
    Session.tallies_run (h.tallies_of_reads (Environment.heeds_describe t)
      (Environment.reads_describe t)) fun h' => h'.session
  obtain ⟨v₁, hd', h₁⟩ := Tallies.exists_ok (hd ▸ hdescribes)
  have hlearns := (learns_describe c t).ok hd
  have hsettled : s₁.Settles (c.environment.describe t) d := by
    obtain ⟨w, hw, rfl⟩ := Session.run_eq_ok.mp hd
    exact (Environment.reads_describe t).settles hw
  have hunhindered {e : Fault} : ¬ Hindrance c.environment s₁ L d e :=
    fun ⟨S, x, k, _, _, hbelow, hS, hx, hpub, hleft, hother, _⟩ =>
      hclear x ⟨S, d, k, hlearns.below.trans hbelow, hS, hsettled.mono hbelow, hx, hpub, hleft,
        hother⟩
  have hrun {u u₁ : Session} (hd : c.describe t u = .ok d u₁) : after (c.ensure t) u =
      after (Session.pruning (Registry.transaction (Session.run (c.environment.referRoot d))))
        u₁ := by
    unfold after ensure
    rw [bind_of_ok hd]
  rw [hrun hd, hrun hd']
  exact ((tallies_publish hkeys h₁ ⟨t, hsettled⟩).mono id hunhindered).rel_after

/-- Where nothing is left over, later calls have the same outcomes. -/
theorem laden_ensures (ts : List Token) (h : u.Laden c.environment [] v) :
    (c.ensures ts u).Laden c.environment [] (c.ensures ts v) := by
  induction ts generalizing u v with
  | nil => exact h
  | cons t ts ih =>
    refine ih (((tallies_ensure hkeys h).mono id ?_).rel_after)
    exact fun ⟨_, _, _, hhinders, _⟩ => Session.not_hinders_nil hhinders

end

/-- **A group that a host gives up.**  After any number of calls let a host publish types in a group
of its own, and then give the group up.  What is stored is what was stored before; and if the types
are made by hand, and name only types made by hand, then the session that was spared the group is
the one that there was.

Let a type be published next.  The outcome is the one that it has in a session that was spared the
group: the same node or the same fault, and the same is stored.  There is one exception: the type
may be refused for a type that stands in its way, since it leads to that type and the name of that
type is left over for another.

Let nothing stand in the way of the first type that is described after the group.  Then all that is
published afterwards has the same outcome as well. -/
theorem run_abandon (c : Compiler) (hkeys : c.environment.KeysDistinct) (calls : List Call)
    (ts : List Token) (e : Fault) :
    ((c.abandoned calls ts e).registry = (c.run calls).registry ∧
      (c.environment.Linked → (∀ t ∈ ts, ∃ i, i < c.environment.size ∧ t = .crafted i) →
        c.spared calls ts e = c.run calls)) ∧
    (∀ t, Tallies (fun s s' => s'.registry = s.registry)
      (fun f => ∃ x first second,
        (c.spared calls ts e).Hinders c.environment (c.abandoned calls ts e).leftover t x ∧
          f = .duplicateName x.name first second)
      (c.ensure t (c.spared calls ts e)) (c.ensure t (c.abandoned calls ts e))) ∧
    ∀ t d s₁, c.describe t (c.spared calls ts e) = .ok d s₁ →
      (∀ x, ¬ (c.spared calls ts e).Hinders c.environment (c.abandoned calls ts e).leftover t x) →
      ∀ later t', Tallies (fun s s' => s'.registry = s.registry) (fun _ => False)
        (c.ensure t' (c.ensures (t :: later) (c.spared calls ts e)))
        (c.ensure t' (c.ensures (t :: later) (c.abandoned calls ts e))) := by
  have hladen := laden_abandoned hkeys calls ts e
  refine ⟨⟨(registry_abandoned calls ts e).1, spared_eq_run calls ts e⟩, fun t => ?_,
    fun t d s₁ hd hclear later t' => ?_⟩
  · exact (tallies_ensure hkeys hladen).mono Walk.Laden.registry id
  · have hlater : (c.ensures (t :: later) (c.spared calls ts e)).Laden c.environment []
        (c.ensures (t :: later) (c.abandoned calls ts e)) :=
      laden_ensures hkeys later (laden_after_ensure hkeys hladen hd hclear)
    refine (tallies_ensure hkeys hlater).mono Walk.Laden.registry ?_
    exact fun ⟨_, _, _, hhinders, _⟩ => Session.not_hinders_nil hhinders

/-- A compiler that knows of paintings and the sketches for them, and of another type that goes by
the name of sketches. -/
def studio : Compiler where
  environment :=
    { program :=
        { crafted :=
            [{ name := "Sketch", shape := .object },
             { name := "Painting"
               shape := .object
               properties := [{ name := "sketch", type := .crafted 0 }] },
             { name := "Sketch", shape := .object }] }
      maxDepth := 8
      captureDefaults := false }
  refPrefix := .ok "#/components/schemas/"
  release := "3.1.0"

theorem studio_keysDistinct : studio.environment.KeysDistinct := by
  refine Environment.keysDistinct_of_unsourced fun d hd => ?_
  fin_cases hd <;> rfl

theorem studio_linked : studio.environment.Linked := by
  intro d hd t ht
  fin_cases hd <;> fin_cases ht
  exact ⟨0, by decide, rfl⟩

/-- A painting leads to itself and to its sketch. -/
theorem studio_reaches {S : Session} {x : Descriptor}
    (h : Reaches studio.environment S (studio.environment.handmade 1) x) :
    x = studio.environment.handmade 1 ∨ x = studio.environment.handmade 0 := by
  induction h with
  | refl => exact .inl rfl
  | tail _ hpoints ih =>
    obtain ⟨t, ht, hy⟩ := hpoints
    rcases ih with rfl | rfl
    · have hmem := studio_linked.mem_tokens_of_partOf (i := 1) (by decide) ht
      obtain rfl := List.mem_singleton.mp hmem
      exact .inr (pure_eq_ok.mp (hy ⟨S, []⟩ (.refl S))).1
    · have hmem := studio_linked.mem_tokens_of_partOf (i := 0) (by decide) ht
      exact absurd hmem List.not_mem_nil

/-- A group in which sketches have been published is given up, and then paintings are published,
which have sketches: it is as if there had been no group. -/
theorem studio_abandon : ∃ n s s',
    studio.ensure (.crafted 1) (studio.run []) = .ok n s ∧
      studio.ensure (.crafted 1) (studio.abandoned [] [.crafted 0] .endlessNesting) = .ok n s' ∧
      s'.registry = s.registry ∧ s.registry.names = ["Sketch", "Painting"] := by
  obtain ⟨⟨-, hspared⟩, hnext, -⟩ :=
    run_abandon studio studio_keysDistinct [] [.crafted 0] .endlessNesting
  have hgroup : ∀ t ∈ [Token.crafted 0], ∃ i, i < studio.environment.size ∧ t = .crafted i :=
    List.forall_mem_singleton.mpr ⟨0, by decide, rfl⟩
  obtain ⟨n, s, h, hnames⟩ : ∃ n s, studio.ensure (.crafted 1) (studio.run []) = .ok n s ∧
      s.registry.names = ["Sketch", "Painting"] := ⟨_, _, rfl, rfl⟩
  have htallies := hnext (.crafted 1)
  rw [hspared studio_linked hgroup, h] at htallies
  have hclear : ∀ x, ¬ (studio.run []).Hinders studio.environment
      (studio.abandoned [] [.crafted 0] .endlessNesting).leftover (.crafted 1) x := by
    rintro x ⟨S, d, k, -, -, hd, hx, -, hleft, hother⟩
    obtain rfl : d = studio.environment.handmade 1 := (pure_eq_ok.mp (hd ⟨S, []⟩ (.refl S))).1
    -- what is left over is the name of the sketch that the painting leads to
    rcases studio_reaches hx with rfl | rfl
    · cases hleft
    · obtain rfl : (studio.environment.handmade 0).key = k := Option.some.inj hleft
      cases hother
  generalize studio.ensure (.crafted 1) (studio.abandoned [] [.crafted 0] .endlessNesting) = r
    at htallies
  cases htallies with
  | ok hsame => exact ⟨n, s, _, h, rfl, hsame, hnames⟩
  | cut hcut =>
    obtain ⟨x, _, _, hhinders, -⟩ := hcut
    exact absurd hhinders (hclear x)

/-- **What a group has stored is remembered when it is given up.**  Sketches can be published, and
they cannot after other sketches have been published in a group that was given up. -/
theorem studio_abandon_ne : studio.environment.KeysDistinct ∧ studio.environment.Linked ∧
    (∃ n s', studio.ensure (.crafted 2) (studio.run []) = .ok n s') ∧
    ∃ first second s', studio.ensure (.crafted 2)
      (studio.abandoned [] [.crafted 0] .endlessNesting) =
        .error (.duplicateName "Sketch" first second) s' :=
  ⟨studio_keysDistinct, studio_linked, ⟨_, _, rfl⟩, _, _, _, rfl⟩

end Compiler

end Schemata
