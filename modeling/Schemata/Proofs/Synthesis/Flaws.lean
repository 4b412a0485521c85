import Schemata.Proofs.Compiler.Publication
import Schemata.Proofs.Descriptor.FieldType
import Schemata.Proofs.Fault.Telling
import Schemata.Proofs.Synthesis.Json
import Schemata.Proofs.Synthesis.Leaves
import Schemata.Proofs.Synthesis.Required

/-!
# What is to blame when publishing fails

Publishing a type is refused with a report for a number of reasons, and it may fail without one.
Then something that was declared is to blame: a type cannot be read, annotations contradict the
comparisons that merging them takes, a type cannot be looked up, or a default cannot be looked at.
`Environment.Flawed` is the list, and it tells in which of the types that are requested, or that
these lead to, the flaw is found.

The lemmas `flawed_…` and `accounts_…` follow the functions of the synthesis, for a type that is
involved in what is requested and has been described.  What a function passes on is involved again,
since a descriptor names the types that the synthesis turns to next (`Descriptor.Names`); and
sessions read and recall what is right at all times.  `Compiler.accounts_ensure` is the result.
-/

namespace Schemata

open Build
open Environment (ObjectParts mapInner)

/-- **What a token stands for**: a descriptor that was made by hand, or what is read off the token,
or off one that is the same. -/
inductive Environment.Depicts (env : Environment) : Token → Descriptor → Prop
  | crafted {i : Nat} {d : Descriptor} (h : ((env.program.crafted[i]?).getD default).Alike d) :
      Depicts env (.crafted i) d
  | read {t b : Token} {d₀ d : Descriptor} (hb : b = t.asType ∨ b.same t.asType = true)
      (h : env.program.read env.kinds b = .ok d₀) (halike : d₀.Alike d) : Depicts env t d

namespace Environment

/-- **Tokens that are involved in what is requested**: those that are requested themselves, and
those that are named by what involved tokens stand for. -/
inductive Involves (env : Environment) (R : Token → Prop) : Token → Prop
  | requested {t : Token} (h : R t) : Involves env R t
  | named {t u : Token} {d : Descriptor} (ht : Involves env R t) (hd : env.Depicts t d)
      (hu : d.Names u) : Involves env R u

/-- What is involved in what is requested. -/
def Involved (env : Environment) (R : Token → Prop) (d : Descriptor) : Prop :=
  ∃ t, env.Involves R t ∧ env.Depicts t d

/-- **A flaw in what is requested**, with the fault that publishing fails with.

A type cannot be read; the annotations of a type or of a property cannot be merged, or those of a
type with those of its bases; a type cannot be looked up; or the default of a property cannot be
looked at, on the instance of its type or of one with the same key. -/
inductive Flawed (env : Environment) (R : Token → Prop) : Fault → Prop
  | type {t : Token} {e : Fault} (ht : env.Involves R t) (hcrafted : ∀ i, t ≠ .crafted i)
      (h : env.program.read env.kinds t.asType = .error e) : Flawed env R e
  | annotations {d : Descriptor} {rs : List Record} {e : Fault} (hd : env.Involved R d)
      (hrs : rs = d.annotations ∨ ∃ q ∈ d.properties, rs = q.annotations)
      (h : Constraints.merge rs = .error e) : Flawed env R e
  | bases {d : Descriptor} {bases : List Descriptor} {e : Fault} (hd : env.Involved R d)
      (hbases : (d :: bases).IsChain fun x b => ∃ t, x.base = some t ∧ env.Depicts t b)
      (h : Constraints.merge (bases.reverse.flatMap Descriptor.annotations ++ d.annotations) =
        .error e) : Flawed env R e
  | key {d : Descriptor} {e : Fault} (hd : env.Involved R d) (h : d.key.check = .error e) :
      Flawed env R e
  | default {d x : Descriptor} {q : Property} (hd : env.Involved R d) (hq : q ∈ d.properties)
      (hx : x = d ∨ (∃ t, env.Depicts t x) ∧ x.key.same d.key = true)
      (h : (x.heldFor q).any Value.signals = true) : Flawed env R .signalingComparison

/-- **A fault that is accounted for**: it is told, or there is a flaw in what is requested. -/
def Accounts (env : Environment) (R : Token → Prop) (e : Fault) : Prop :=
  e.IsTold ∨ env.Flawed R e

variable {env : Environment} {R : Token → Prop} {d b : Descriptor} {t : Token} {s : Session}
  {w w₁ w' : Walk} {e : Fault}

/-! ## Faults that are accounted for -/

/-- What a flaw makes publishing fail with is what a question about types fails with. -/
theorem Flawed.ofQuestion (h : env.Flawed R e) : e.OfQuestion := by
  cases h with
  | type _ _ h => exact .inl (env.program.failsOnly_read _ _ _ h)
  | annotations _ _ h | bases _ _ h => exact .inr (Constraints.failsOnly_merge _ _ h)
  | key _ h => exact .inl (.inl (.inl (Key.failsOnly_check _ _ h)))
  | default => exact .inr (.inl rfl)

/-- A flaw may be told as well, and then there is no trouble in telling it. -/
theorem Flawed.isTold (h : env.Flawed R e) (hreport : e.report?.isSome = true) : e.IsTold := by
  refine Fault.isTold_of_report hreport ?_
  rintro type missing rfl
  rcases h.ofQuestion with (((h | ⟨_, h⟩) | ⟨_, _, h⟩) | ⟨_, _, h⟩) | (h | h | h) <;> cases h

theorem accounts_of_report (h : e.report?.isSome = true)
    (hne : ∀ type missing, e ≠ .unknownRequired type missing) : env.Accounts R e :=
  .inl (Fault.isTold_of_report h fun type missing heq => absurd heq (hne type missing))

/-! ## What is involved -/

/-- What a token is described as is what it stands for. -/
theorem depicts_of_settles (hw : s.WellRead env) (h : s.Settles (env.describe t) d) :
    env.Depicts t d := by
  by_cases ht : ∃ i, t = .crafted i
  · obtain ⟨i, rfl⟩ := ht
    have hd := h ⟨s, []⟩ (.refl s)
    rw [describe_crafted] at hd
    obtain ⟨rfl, -⟩ := pure_eq_ok.mp hd
    exact .crafted rfl
  · have hcrafted (i : Nat) : t.asType ≠ .crafted i :=
      Token.asType_ne_crafted fun h => ht ⟨i, h⟩
    rw [← describe_asType] at h
    obtain ⟨b, d₀, hb, hread, halike⟩ := exists_read_of_describe hw hcrafted t.asType_asType h
    exact .read (hb.imp_right And.left) hread halike

theorem Involved.next (h : env.Involved R d) (ht : d.Names t) : env.Involves R t :=
  let ⟨_, hu, hd⟩ := h
  .named hu hd ht

end Environment

/-- **A type is primed to be built**: it has been described, in a session that reads and recalls
what is right. -/
structure Walk.Primed (env : Environment) (w : Walk) (d : Descriptor) : Prop where
  wellRead : w.session.WellRead env
  recalls : w.session.Recalls env
  describes : w.session.Describes env d

section

variable {env : Environment} {R : Token → Prop} {d b : Descriptor} {t : Token} {s : Session}
  {w w₁ : Walk} {e : Fault} {α : Type} {x : Build α} {a : α}

theorem Walk.Recollects.ok (h : w.Recollects env (after x w)) (hx : x w = .ok a w₁) :
    w.Recollects env w₁ :=
  after_of_ok hx ▸ h

/-- A type stays primed. -/
theorem Walk.Primed.mono (hw : w.Primed env d) (h : w.Recollects env w₁) : w₁.Primed env d where
  wellRead := h.grows.wellRead hw.wellRead
  recalls := h.recalls hw.recalls
  describes := hw.describes.mono h.grows.below

/-- A type that is described next is primed, and involved if it is named by one that is involved. -/
theorem Walk.Primed.describe (hw : w.Primed env d) (ht : env.Involves R t)
    (hb : env.describe t w = .ok b w₁) : w₁.Primed env b ∧ env.Involved R b := by
  have hreads : Reads env (env.describe t) := Environment.reads_describe t
  have hnext := hw.mono ((hreads.recollects w).ok hb)
  have hsettles := hreads.settles hb
  exact ⟨⟨hnext.wellRead, hnext.recalls, t, hsettles⟩,
    t, ht, Environment.depicts_of_settles hnext.wellRead hsettles⟩

theorem Raises.accounts {s : Walk} (h : Raises (env.Flawed R) x s) :
    Raises (env.Accounts R) x s :=
  h.mono fun _ => .inr

/-- Visiting a type is no reason to fail. -/
theorem Raises.whileVisiting {P : Fault → Prop} (h : Raises P x (w.visiting d)) :
    Raises P (whileVisiting d.key x) w := by
  intro e w' he
  unfold Build.whileVisiting at he
  cases hx : x { w with visited := d.key :: w.visited } with
  | ok a w₁ =>
    rw [hx] at he
    cases he
  | error e₁ w₁ =>
    rw [hx] at he
    cases he
    exact h _ _ hx

end

namespace Environment

variable {env : Environment} {R : Token → Prop} {d b : Descriptor} {t : Token} {s : Session}
  {w w₁ w' : Walk} {e : Fault}

/-! ## Questions -/

theorem flawed_merge {records : List Record} (hd : env.Involved R d)
    (hrs : records = d.annotations ∨ ∃ q ∈ d.properties, records = q.annotations) (w : Walk) :
    Raises (env.Flawed R) (lift (Constraints.merge records)) w :=
  .lift (fun _ h => .annotations hd hrs h) w

theorem flawed_annotate (hd : env.Involved R d) (n : Node) (w : Walk) :
    Raises (env.Flawed R) (annotate d.annotations n) w :=
  (flawed_merge hd (.inl rfl) w).bind fun _ _ _ => .pure _

theorem flawed_describe (ht : env.Involves R t) (w : Walk) :
    Raises (env.Flawed R) (env.describe t) w := by
  by_cases hcrafted : ∃ i, t = .crafted i
  · obtain ⟨i, rfl⟩ := hcrafted
    rw [describe_crafted]
    exact .pure _
  have hread : FailsOnly (env.Flawed R) (env.program.read env.kinds t.asType) :=
    fun _ h => .type ht (fun i hi => hcrafted ⟨i, hi⟩) h
  rw [describe_eq env fun i hi => hcrafted ⟨i, hi⟩]
  refine .ite (Raises.bind nofun fun found w _ => ?_) ?_
  · cases found with
    | some e => exact .pure _
    | none =>
      intro e w' he
      unfold readNew at he
      cases hr : env.program.read env.kinds t.asType with
      | ok d =>
        rw [hr] at he
        cases he
      | error e₁ =>
        rw [hr] at he
        cases he
        exact hread _ hr
  · exact (Raises.lift hread _).bind fun _ _ _ => .pure _

theorem flawed_basesFrom (fuel : Nat) (seen : List Identity) (hd : env.Involved R d)
    (hw : w.Primed env d) : Raises (env.Flawed R) (env.basesFrom fuel seen d) w := by
  induction fuel generalizing seen d w with
  | zero => exact .pure _
  | succ fuel ih =>
    unfold basesFrom
    cases hbase : d.base with
    | none => exact .pure _
    | some t =>
      have ht := hd.next (.base hbase)
      refine (flawed_describe ht w).bind fun b w₁ hb => .ite (.pure _) (.ite (.pure _) ?_)
      obtain ⟨hw₁, hinvolved⟩ := hw.describe ht hb
      exact (ih _ hinvolved hw₁).bind fun _ _ _ => .pure _

theorem flawed_baseChain (hd : env.Involved R d) (hw : w.Primed env d) :
    Raises (env.Flawed R) (env.baseChain d) w :=
  flawed_basesFrom _ _ hd hw

theorem flawed_primitiveKind (hd : env.Involved R d) (hw : w.Primed env d) :
    Raises (env.Flawed R) (env.primitiveKind d) w := by
  unfold primitiveKind
  refine .ite (.pure _) ((flawed_baseChain hd hw).bind fun bases _ _ => ?_)
  cases bases.getLast? with
  | none => exact .pure _
  | some b => exact .pure _

theorem flawed_isInline (hd : env.Involved R d) (hw : w.Primed env d) :
    Raises (env.Flawed R) (env.isInline d) w :=
  .ite (.pure _) ((flawed_primitiveKind hd hw).bind fun _ _ _ => .pure _)

theorem flawed_publishesArray (hd : env.Involved R d) (hw : w.Primed env d) :
    Raises (env.Flawed R) (env.publishesArray d) w := by
  unfold publishesArray
  refine .ite (.pure _) ((flawed_primitiveKind hd hw).bind fun kind w _ => .ite (.pure _) ?_)
  exact (flawed_merge hd (.inl rfl) w).bind fun _ _ _ => .pure _

theorem flawed_isVisited (hd : env.Involved R d) (w : Walk) :
    Raises (env.Flawed R) (isVisited d.key) w :=
  (Raises.lift (fun _ h => .key hd h) w).bind fun _ _ _ => nofun

theorem flawed_isAwaited (hd : env.Involved R d) (hw : w.Primed env d) :
    Raises (env.Flawed R) (env.isAwaited d) w := by
  refine (flawed_isVisited hd w).bind fun _ w₁ h => .ite ?_ (.pure _)
  obtain ⟨-, -, rfl⟩ := isVisited_eq_ok.mp h
  exact (flawed_publishesArray hd hw).bind fun _ _ _ => .pure _

theorem flawed_isArrayVisited (hd : env.Involved R d) (hw : w.Primed env d) :
    Raises (env.Flawed R) (env.isArrayVisited d) w := by
  refine (flawed_isVisited hd w).bind fun _ w₁ h => .ite ?_ (.pure _)
  obtain ⟨-, -, rfl⟩ := isVisited_eq_ok.mp h
  exact flawed_publishesArray hd hw

/-- The bases of a type are what the tokens stand for that name them. -/
theorem depicts_of_basesFrom {fuel : Nat} {seen : List Identity} {bases : List Descriptor}
    (hw : w.Primed env d) (h : env.basesFrom fuel seen d w = .ok bases w') :
    (d :: bases).IsChain fun x b => ∃ t, x.base = some t ∧ env.Depicts t b := by
  induction fuel generalizing seen d w w' bases with
  | zero =>
    obtain ⟨rfl, -⟩ := pure_eq_ok.mp h
    exact .singleton d
  | succ fuel ih =>
    cases hbase : d.base with
    | none =>
      rw [basesFrom, hbase] at h
      obtain ⟨rfl, -⟩ := pure_eq_ok.mp h
      exact .singleton d
    | some t =>
      rw [basesFrom_succ hbase] at h
      obtain ⟨b, w₁, hb, h⟩ := bind_eq_ok.mp h
      obtain ⟨hw₁, -⟩ := hw.describe (R := fun u => u = t) (.requested rfl) hb
      have hdepicts : ∃ u, d.base = some u ∧ env.Depicts u b :=
        ⟨t, hbase, depicts_of_settles hw₁.wellRead ((reads_describe t).settles hb)⟩
      split at h
      · obtain ⟨rfl, -⟩ := pure_eq_ok.mp h
        exact .singleton d
      split at h
      · obtain ⟨rfl, -⟩ := pure_eq_ok.mp h
        exact List.isChain_cons_cons.mpr ⟨hdepicts, .singleton b⟩
      · obtain ⟨bases', w₂, hmore, h⟩ := bind_eq_ok.mp h
        obtain ⟨rfl, -⟩ := pure_eq_ok.mp h
        exact List.isChain_cons_cons.mpr ⟨hdepicts, ih hw₁ hmore⟩

theorem flawed_namedLeaf (kind : Kind) (hd : env.Involved R d) (hw : w.Primed env d) :
    Raises (env.Flawed R) (env.namedLeaf d kind) w := by
  unfold namedLeaf
  refine (flawed_baseChain hd hw).bind fun bases w₁ hbases => ?_
  have hmerge : FailsOnly (env.Flawed R)
      (Constraints.merge (bases.reverse.flatMap Descriptor.annotations ++ d.annotations)) :=
    fun _ h => .bases hd (depicts_of_basesFrom hw hbases) h
  refine (Raises.lift hmerge w₁).bind fun c _ _ => ?_
  cases c.apply kind.schema with
  | leaf k type => exact .pure _
  | _ => exact .pure _

theorem flawed_capture {q : Property} (hd : env.Involved R d) (hq : q ∈ d.properties)
    (hw : w.Primed env d) : Raises (env.Flawed R) (capture d q) w := by
  intro e w' he
  cases hkey : d.key.check with
  | error e₁ =>
    have hfails : capture d q w = .error e₁ w := by
      unfold capture instanceOf
      rw [hkey]
      rfl
    cases hfails.symm.trans he
    exact .key hd hkey
  | ok =>
    obtain ⟨l, -, ⟨-, v, hv⟩ | ⟨hsignals, herror⟩⟩ := capture_of_check q w hkey
    · cases hv.symm.trans he
    cases herror.symm.trans he
    unfold Session.Signals Session.heldFor Session.instanceOf at hsignals
    cases hfind : w.session.instances.find? fun e => e.1.same d.key with
    | none =>
      rw [hfind] at hsignals
      exact .default hd hq (.inl rfl) hsignals
    | some kept =>
      obtain ⟨x, ⟨t, hx⟩, -, rfl⟩ := hw.recalls kept (List.mem_of_find?_eq_some hfind)
      rw [hfind] at hsignals
      have hsame : x.key.same d.key = true := by simpa using List.find?_some hfind
      exact .default hd hq (.inr ⟨⟨t, depicts_of_settles hw.wellRead hx⟩, hsame⟩) hsignals

theorem flawed_dress {q : Property} (c : Constraints) (held : Node) (hd : env.Involved R d)
    (hq : q ∈ d.properties) (hw : w.Primed env d) :
    Raises (env.Flawed R) (env.dress d q c held) w := by
  rw [dress_eq]
  exact .ite ((flawed_capture hd hq hw).bind fun _ _ _ => .pure _) (.pure _)

/-! ## The functions of the synthesis -/

theorem accounts_claim (name : String) (d : Descriptor) (w : Walk) :
    Raises (env.Accounts R) (env.claim name d) w := by
  refine Raises.bind nofun fun owner w _ => ?_
  cases owner with
  | none => exact nofun
  | some owner => exact .ite (.pure _) (.throw (accounts_of_report rfl nofun))

/-- Builds what is involved and primed, or fails with a fault that is accounted for. -/
def Accountable (env : Environment) (R : Token → Prop) (builder : Descriptor → Build Built) :
    Prop :=
  ∀ {d : Descriptor} {w : Walk}, env.Involved R d → w.Primed env d →
    Raises (env.Accounts R) (builder d) w

section

variable {builder : Descriptor → Build Built} (hb : env.Accountable R builder)
  (hrec : env.Recollecting builder)
include hb

theorem accounts_refer (hd : env.Involved R d) (hw : w.Primed env d) :
    Raises (env.Accounts R) (env.refer builder d) w := by
  unfold refer
  refine (flawed_isInline hd hw).accounts.bind fun inline w₁ hinline => ?_
  have hw₁ := hw.mono (((reads_isInline d).recollects w).ok hinline)
  refine .ite ((hb hd hw₁).bind fun _ _ _ => .pure _) ?_
  refine Raises.bind nofun fun found w₂ hfound => ?_
  obtain ⟨-, rfl⟩ := stored?_eq_ok.mp hfound
  refine .ite ((accounts_claim _ d w₂).bind fun _ _ _ => .pure _) ?_
  refine (flawed_isAwaited hd hw₁).accounts.bind fun awaited w₃ hawaited => .ite (.pure _) ?_
  have hw₃ := hw₁.mono ((recollects_isAwaited d w₂).ok hawaited)
  exact (hb hd hw₃).bind fun _ _ _ => .pure _

theorem accounts_referTo (ht : env.Involves R t) (hw : w.Primed env d) :
    Raises (env.Accounts R) (env.referTo builder t) w := by
  refine (flawed_describe ht w).accounts.bind fun b w₁ hdescribe => ?_
  obtain ⟨hw₁, hinvolved⟩ := hw.describe ht hdescribe
  exact accounts_refer hb hinvolved hw₁

include hrec

theorem accounts_addProperty (o : ObjectParts) {q : Property} (hq : q ∈ d.properties)
    (hd : env.Involved R d) (hw : w.Primed env d) :
    Raises (env.Accounts R) (env.addProperty builder d o q) w := by
  have ht : env.Involves R q.type := hd.next (.property hq)
  unfold addProperty propertyNode
  refine (flawed_merge hd (.inr ⟨q, hq, rfl⟩) w).accounts.bind fun c w₁ hmerge => ?_
  obtain ⟨-, rfl⟩ := lift_eq_ok.mp hmerge
  refine .ite ((accounts_referTo hb ht hw).bind fun _ _ _ => .pure _) ?_
  refine Raises.bind ?_ fun _ _ _ => .pure _
  refine (accounts_referTo hb ht hw).bind fun held w₂ hheld => ?_
  have hw₂ := hw.mono ((recollects_referTo hrec q.type w₁).ok hheld)
  exact (flawed_dress c held hd hq hw₂).accounts

theorem accounts_addProperties {qs : List Property} (o : ObjectParts) (hqs : qs ⊆ d.properties)
    (hshape : d.shape.isInline = false) (hd : env.Involved R d) (hw : w.Primed env d) :
    Raises (env.Accounts R) (env.addProperties builder d o qs) w := by
  induction qs generalizing o w with
  | nil => exact .pure _
  | cons q qs ih =>
    obtain ⟨hq, hqs⟩ := List.cons_subset.mp hqs
    refine (accounts_addProperty hb hrec o hq hd hw).bind fun o₁ w₁ hadd => ?_
    -- one property alone is the whole list of one
    have hone : env.addProperties builder d o [q] w = .ok o₁ w₁ := by
      rw [addProperties, bind_of_ok hadd]
      rfl
    exact ih o₁ hqs (hw.mono ((recollects_addProperties hrec hw.describes hshape o [q]).ok hone))

theorem accounts_populate {c : Constraints} {o : ObjectParts}
    (hmerge : Constraints.merge d.annotations = .ok c) (hopens : ObjectParts.Opens c o)
    (hshape : d.shape.isInline = false) (hd : env.Involved R d) (hw : w.Primed env d) :
    Raises (env.Accounts R) (env.populate builder d o) w := by
  intro e w' he
  rw [populate_eq builder hmerge hopens] at he
  cases hadd : env.addProperties builder d o d.properties w with
  | error e₁ w₁ =>
    rw [hadd] at he
    cases he
    exact accounts_addProperties hb hrec o (List.Subset.refl _) hshape hd hw _ _ hadd
  | ok o' w₁ =>
    have hw₁ := hw.mono ((recollects_addProperties hrec hw.describes hshape o _).ok hadd)
    rw [hadd] at he
    dsimp only at he
    cases hbases : env.baseChain d w₁ with
    | error e₁ w₂ =>
      rw [hbases] at he
      cases he
      exact (flawed_baseChain hd hw₁).accounts _ _ hbases
    | ok bases w₂ =>
      rw [hbases] at he
      dsimp only at he
      split at he
      next => cases he
      next =>
        cases he
        refine .inl (Fault.isTold_of_report rfl ?_)
        rintro type missing ⟨⟩ v hv
        exact Constraints.isText_required hmerge v (List.mem_of_mem_filter hv)

theorem accounts_composedArray {c : Constraints} (base : Node)
    (hmerge : Constraints.merge d.annotations = .ok c) (hshape : d.shape.isInline = false)
    (hd : env.Involved R d) (hw : w.Primed env d) :
    Raises (env.Accounts R) (env.composedArray builder d c base) w := by
  have hvisiting : (w.visiting d).Primed env d := ⟨hw.wellRead, hw.recalls, hw.describes⟩
  have hpopulate := accounts_populate hb hrec hmerge .composed hshape hd hvisiting
  unfold composedArray
  refine .ite (.throw (accounts_of_report rfl nofun)) ?_
  exact hpopulate.whileVisiting.bind fun _ _ _ => .pure _

theorem accounts_inherit {base : Token} (hbase : d.base = some base)
    (hshape : d.shape.isInline = false) (hd : env.Involved R d) (hw : w.Primed env d) :
    Raises (env.Accounts R) (env.inherit builder d base) w := by
  unfold inherit
  refine (flawed_primitiveKind hd hw).accounts.bind fun kind w₁ hkind => ?_
  have hw₁ := hw.mono (((reads_primitiveKind d).recollects w).ok hkind)
  cases kind with
  | some kind => exact (flawed_namedLeaf kind hd hw₁).accounts.bind fun _ _ _ => .pure _
  | none =>
    refine (flawed_merge hd (.inl rfl) w₁).accounts.bind fun c w₂ hmerge => ?_
    obtain ⟨hc, rfl⟩ := lift_eq_ok.mp hmerge
    refine (accounts_referTo hb (hd.next (.base hbase)) hw₁).bind fun node w₃ hnode => ?_
    have hw₃ := hw₁.mono ((recollects_referTo hrec base w₂).ok hnode)
    refine .ite (.pure _) (.ite ?_ (.pure _))
    exact (accounts_composedArray hb hrec node hc hshape hd hw₃).bind fun _ _ _ => .pure _

omit hrec in
theorem accounts_mapNode (hshape : d.shape = .map) (hd : env.Involved R d)
    (hw : w.Primed env d) : Raises (env.Accounts R) (env.mapNode builder d) w := by
  have ht := hd.next (.value hshape)
  unfold mapNode mapTo
  refine (flawed_describe ht w).accounts.bind fun value w₁ hvalue => ?_
  obtain ⟨hw₁, hinvolved⟩ := hw.describe ht hvalue
  refine Raises.bind (.ite (.pure _) ?_) fun node w₂ _ => (flawed_annotate hd node w₂).accounts
  exact (accounts_refer hb hinvolved hw₁).bind fun _ _ _ => .pure _

theorem accounts_ownNode (base : Option Node) (hshape : d.shape.isInline = false)
    (hd : env.Involved R d) (hw : w.Primed env d) :
    Raises (env.Accounts R) (env.ownNode builder d base) w := by
  unfold ownNode ownObject
  refine .ite (flawed_annotate hd _ w).accounts ?_
  refine (flawed_merge hd (.inl rfl) w).accounts.bind fun c w₁ hmerge => ?_
  obtain ⟨hc, rfl⟩ := lift_eq_ok.mp hmerge
  exact (accounts_populate hb hrec hc .stored hshape hd hw).bind fun _ _ _ => .pure _

theorem accounts_storeNode (base : Option Node) (hshape : d.shape.isInline = false)
    (hd : env.Involved R d) (hw : w.Primed env d) :
    Raises (env.Accounts R) (env.storeNode builder d base) w := by
  unfold storeNode
  refine (flawed_isVisited hd w).accounts.bind fun visited w₁ hvisited => .ite (.pure _) ?_
  obtain ⟨-, -, rfl⟩ := isVisited_eq_ok.mp hvisited
  refine Raises.bind nofun fun _ w₂ hvisit => ?_
  obtain rfl := visit_eq_ok.mp hvisit
  have hvisiting : (w₁.visiting d).Primed env d := ⟨hw.wellRead, hw.recalls, hw.describes⟩
  refine (accounts_claim d.name d _).bind fun _ w₃ hclaim => ?_
  have hw₃ := hvisiting.mono ((recollects_claim d.name d (w₁.visiting d)).ok hclaim)
  refine Raises.bind nofun fun found w₄ hfound => ?_
  obtain ⟨-, rfl⟩ := stored?_eq_ok.mp hfound
  cases found with
  | some n => exact .pure _
  | none =>
    refine (accounts_ownNode hb hrec base hshape hd hw₃).bind fun node w₅ _ => ?_
    exact Raises.bind nofun fun _ _ _ => .pure _

theorem accounts_namedNode (hshape : d.shape.isInline = false) (hd : env.Involved R d)
    (hw : w.Primed env d) : Raises (env.Accounts R) (env.namedNode builder d) w := by
  unfold namedNode
  cases hbase : d.base with
  | none => exact accounts_storeNode hb hrec none hshape hd hw
  | some base =>
    refine (flawed_isArrayVisited hd hw).accounts.bind fun visited w₁ hvisited => .ite (.pure _) ?_
    have hw₁ := hw.mono ((recollects_isArrayVisited d w).ok hvisited)
    refine (accounts_inherit hb hrec hbase hshape hd hw₁).bind fun inherited w₂ hinherit => ?_
    have hw₂ := hw₁.mono ((recollects_inherit hrec hw₁.describes hshape base).ok hinherit)
    cases inherited with
    | whole node => exact .pure _
    | base node => exact accounts_storeNode hb hrec (some node) hshape hd hw₂

theorem accounts_buildShape (hd : env.Involved R d) (hw : w.Primed env d) :
    Raises (env.Accounts R) (env.buildShape builder d) w := by
  have hinner (hshape : d.shape.isWrapper = true) :=
    accounts_referTo hb (hd.next (.inner hshape)) hw
  unfold buildShape
  cases hshape : d.shape with
  | nullable => exact (hinner (by rw [hshape]; rfl)).bind fun _ _ _ => .pure _
  | primitive | unknown => exact (flawed_annotate hd _ w).accounts.bind fun _ _ _ => .pure _
  | array =>
    exact (hinner (by rw [hshape]; rfl)).bind fun items w₁ _ =>
      (flawed_annotate hd _ w₁).accounts.bind fun _ _ _ => .pure _
  | map => exact (accounts_mapNode hb hshape hd hw).bind fun _ _ _ => .pure _
  | enum | object => exact accounts_namedNode hb hrec (by rw [hshape]; rfl) hd hw

end

/-- **Building a type fails with a fault that is accounted for.** -/
theorem accounts_build (n : Nat) : env.Accountable R (env.build n) := by
  induction n with
  | zero => exact fun {d w} _ _ => .throw (accounts_of_report rfl nofun)
  | succ n ih =>
    intro d w hd hw
    refine raises_deepening (accounts_of_report rfl nofun) ?_
    exact accounts_buildShape ih (recollects_build n) hd
      ⟨hw.wellRead, hw.recalls, hw.describes⟩

theorem accounts_referRoot (hd : env.Involved R d) (hw : w.Primed env d) :
    Raises (env.Accounts R) (env.referRoot d) w :=
  accounts_refer (accounts_build _) hd hw

end Environment

namespace Compiler

variable {c : Compiler} {R : Token → Prop} {t : Token} {s : Session}

/-- **Publishing a type that is requested fails with a fault that is accounted for.** -/
theorem accounts_ensure (ht : R t) (hw : s.WellRead c.environment) (hr : s.Recalls c.environment) :
    Raises (c.environment.Accounts R) (c.ensure t) s := by
  intro e s' he
  rcases ensure_error he with hd | ⟨d, s₁, w, hd, hrefer, -⟩
  · exact (Raises.run (Environment.flawed_describe (.requested ht) _)).mono
      (fun _ => .inr) _ _ hd
  · obtain ⟨v, hv, rfl⟩ := Session.run_eq_ok.mp hd
    have hreads : Reads c.environment (c.environment.describe t) := Environment.reads_describe t
    have hrecollects := (hreads.recollects ⟨s, []⟩).ok hv
    have hsettles := hreads.settles hv
    have hwellRead := hrecollects.grows.wellRead hw
    have hinvolved : c.environment.Involved R d :=
      ⟨t, .requested ht, Environment.depicts_of_settles hwellRead hsettles⟩
    have hopened : Walk.Primed c.environment ⟨Registry.within Registry.open_ v.session, []⟩ d :=
      ⟨hwellRead, hrecollects.recalls hr, t, hsettles⟩
    exact Environment.accounts_referRoot hinvolved hopened _ _ hrefer

end Compiler

end Schemata
