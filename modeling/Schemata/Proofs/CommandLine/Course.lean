import Schemata.CommandLine.Run
import Schemata.Proofs.Outcome
import Schemata.Proofs.Value.Latest

/-!
# What a run comes to

A run goes through its targets: it loads one, finds out what that selects, publishes it, and only
then turns to the next.  A run that gets to the end might as well have selected everything first
(`publishAll_eq_ok`).  So it is known by the types that are requested, in order, and by the schemas
that these have been given (`Surroundings.Completes`), and what is printed is read off these
(`run_eq_printed`).

The schemas are noted under the names of their types, and a name is noted once.
-/

namespace Schemata

/-! ## What is requested -/

namespace Surroundings

/-- The types that a target selects. -/
def selected (w : Surroundings) (target : String) : Except Stop (List Token) := do
  let m ← w.load (Selector.ofText target).source
  m.select w.program (Selector.ofText target).name

/-- **The types that some targets select**, one target after the other. -/
def requested (w : Surroundings) : List String → Except Stop (List Token)
  | [] => .ok []
  | target :: targets => do return (← w.selected target) ++ (← w.requested targets)

theorem requested_cons_eq_ok {w : Surroundings} {target : String} {targets : List String}
    {ts : List Token} : w.requested (target :: targets) = .ok ts ↔
      ∃ us us', w.selected target = .ok us ∧ w.requested targets = .ok us' ∧ ts = us ++ us' := by
  rw [requested]
  cases w.selected target with
  | error e => exact ⟨nofun, by rintro ⟨_, _, ⟨⟩, _⟩⟩
  | ok us =>
    cases w.requested targets with
    | error e => exact ⟨nofun, by rintro ⟨_, _, _, ⟨⟩, _⟩⟩
    | ok us' =>
      constructor
      · rintro ⟨⟩
        exact ⟨us, us', rfl, rfl, rfl⟩
      · rintro ⟨_, _, ⟨⟩, ⟨⟩, rfl⟩
        rfl

end Surroundings

namespace Compiler

/-- A type that is requested, with the schema that it is given. -/
def supply (c : Compiler) (inlined : Bool) (t : Token) : Request (Token × Node) := do
  return (t, ← c.schemaFor t inlined)

/-- References to stored schemas have something to start with. -/
def Shows (c : Compiler) : Prop :=
  ∃ text, c.refPrefix = .ok text

theorem shown_eq_ok {c : Compiler} {u v : Value} : c.shown v = .ok u ↔ c.Shows ∧ u = v := by
  unfold shown Shows
  cases c.refPrefix with
  | error f => exact ⟨nofun, by rintro ⟨⟨_, ⟨⟩⟩, _⟩⟩
  | ok text =>
    constructor
    · rintro ⟨⟩
      exact ⟨⟨text, rfl⟩, rfl⟩
    · rintro ⟨-, rfl⟩
      rfl

theorem shown_of_shows {c : Compiler} (h : c.Shows) (v : Value) : c.shown v = .ok v :=
  shown_eq_ok.mpr ⟨h, rfl⟩

theorem refPrefix_of_shown {c : Compiler} {v : Value} {f : Fault} (h : c.shown v = .error f) :
    c.refPrefix = .error f := by
  unfold shown at h
  cases hstart : c.refPrefix with
  | ok text =>
    rw [hstart] at h
    cases h
  | error e =>
    rw [hstart] at h
    cases h
    rfl

/-- The name that the schema of a type is noted under. -/
def displayName (c : Compiler) (t : Token) : String :=
  (c.environment.program.bareName? t).getD (c.environment.program.plainText t)

/-- What is noted of a type and its schema. -/
def note (c : Compiler) (e : Token × Node) : String × Value :=
  (c.displayName e.1, c.render e.2)

/-- **The schemas of some types, each under the name of its type.** -/
def noted (c : Compiler) (es : List (Token × Node)) : List (String × Value) :=
  setKeys (es.map c.note) []

theorem supply_eq_ok {c : Compiler} {inlined : Bool} {ts : List Token} {es : List (Token × Node)}
    {s s' : Session} (h : ts.mapM (c.supply inlined) s = .ok es s') : es.map (·.1) = ts := by
  induction ts generalizing es s s' with
  | nil =>
    obtain ⟨rfl, -⟩ := pure_eq_ok.mp h
    rfl
  | cons t ts ih =>
    rw [List.mapM_cons] at h
    obtain ⟨e, s₁, he, h⟩ := bind_eq_ok.mp h
    obtain ⟨es, s₂, hes, h⟩ := bind_eq_ok.mp h
    obtain ⟨rfl, -⟩ := pure_eq_ok.mp h
    obtain ⟨n, s₃, -, he⟩ := bind_eq_ok.mp he
    obtain ⟨rfl, -⟩ := pure_eq_ok.mp he
    rw [List.map_cons, ih hes]

end Compiler

/-! ## Publishing -/

namespace Run

variable {w : Surroundings} {c : Compiler} {inlined : Bool} {ts : List Token}
  {targets : List String} {noted noted' : Rendered} {s s' : Session} {e : Stop}

/-- A name as the key of a mapping that is rendered. -/
def worded (e : String × Value) : Wording × Value := (e.1, e.2)

theorem adaptExcept_eq_ok {α : Type} {x : Compiler.Request α} {a : α} :
    x.adaptExcept Stop.fault s = .ok a s' ↔ x s = .ok a s' := by
  unfold EStateM.adaptExcept
  cases x s with
  | ok b s₁ =>
    constructor
    · rintro ⟨⟩
      rfl
    · rintro ⟨⟩
      rfl
  | error e s₁ => exact ⟨nofun, nofun⟩

theorem lift_eq_ok {α : Type} {r : Except Stop α} {a : α} :
    lift r s = .ok a s' ↔ r = .ok a ∧ s' = s := by
  cases r with
  | ok b =>
    show EStateM.Result.ok b s = .ok a s' ↔ _
    rw [EStateM.Result.ok.injEq, Except.ok.injEq, @eq_comm _ s]
  | error e => exact ⟨nofun, by rintro ⟨⟨⟩, _⟩⟩

theorem lift_shown {v : Value} (h : c.Shows) :
    lift ((c.shown v).mapError .fault) s = .ok v s := by
  rw [Compiler.shown_of_shows h]
  rfl

theorem lift_shown_eq_ok {v v' : Value}
    (h : lift ((c.shown v).mapError .fault) s = .ok v' s') : c.Shows ∧ v' = v ∧ s' = s := by
  obtain ⟨hshown, rfl⟩ := lift_eq_ok.mp h
  cases hv : c.shown v with
  | error f =>
    rw [hv] at hshown
    cases hshown
  | ok u =>
    rw [hv] at hshown
    cases hshown
    exact ⟨(Compiler.shown_eq_ok.mp hv).1, (Compiler.shown_eq_ok.mp hv).2, rfl⟩

theorem lift_eq_error {α : Type} {r : Except Stop α} (h : lift r s = .error e s') :
    r = .error e := by
  cases r with
  | ok a => cases h
  | error e₁ =>
    cases h
    rfl

theorem adaptExcept_eq_error {α : Type} {x : Compiler.Request α}
    (h : x.adaptExcept Stop.fault s = .error e s') : ∃ f, x s = .error f s' ∧ e = .fault f := by
  unfold EStateM.adaptExcept at h
  cases hx : x s with
  | ok a s₁ =>
    rw [hx] at h
    cases h
  | error f s₁ =>
    rw [hx] at h
    cases h
    exact ⟨f, rfl, rfl⟩

/-- **Publishing some types** gives them schemas in turn, and notes these. -/
theorem publish_eq_ok : publish c inlined ts noted s = .ok noted' s' ↔
    ∃ es, (es = [] ∨ c.Shows) ∧ ts.mapM (c.supply inlined) s = .ok es s' ∧
      noted' = setKeys ((es.map c.note).map worded) noted := by
  induction ts generalizing noted s with
  | nil =>
    rw [publish, pure_eq_ok]
    constructor
    · rintro ⟨rfl, rfl⟩
      exact ⟨[], .inl rfl, rfl, rfl⟩
    · rintro ⟨es, -, h, rfl⟩
      obtain ⟨rfl, rfl⟩ := pure_eq_ok.mp h
      exact ⟨rfl, rfl⟩
  | cons t ts ih =>
    rw [publish, bind_eq_ok, List.mapM_cons]
    constructor
    · rintro ⟨n, s₁, hn, h⟩
      obtain ⟨v, s₂, hv, hmore⟩ := bind_eq_ok.mp h
      obtain ⟨hshows, rfl, rfl⟩ := lift_shown_eq_ok hv
      obtain ⟨es, -, hes, rfl⟩ := ih.mp hmore
      have ht : c.supply inlined t s = .ok (t, n) s₂ := by
        rw [Compiler.supply, bind_of_ok (adaptExcept_eq_ok.mp hn)]
        rfl
      refine ⟨(t, n) :: es, .inr hshows, ?_, rfl⟩
      rw [bind_of_ok ht, bind_of_ok hes]
      rfl
    · rintro ⟨es, hshows, h, rfl⟩
      obtain ⟨e, s₁, he, h⟩ := bind_eq_ok.mp h
      obtain ⟨es, s₂, hes, h⟩ := bind_eq_ok.mp h
      obtain ⟨rfl, rfl⟩ := pure_eq_ok.mp h
      obtain ⟨n, s₂, hn, he⟩ := bind_eq_ok.mp he
      obtain ⟨rfl, rfl⟩ := pure_eq_ok.mp he
      have hshows : c.Shows := hshows.resolve_left (List.cons_ne_nil _ _)
      refine ⟨n, s₁, adaptExcept_eq_ok.mpr hn, ?_⟩
      rw [bind_of_ok (lift_shown hshows)]
      exact ih.mpr ⟨es, .inr hshows, hes, rfl⟩

theorem publishAll_cons (target : String) (noted : Rendered) :
    publishAll w c inlined (target :: targets) noted = (do
      let ts ← lift (w.selected target)
      publishAll w c inlined targets (← publish c inlined ts noted)) := by
  rw [publishAll, Surroundings.selected]
  cases w.load (Selector.ofText target).source <;> rfl

/-- **Publishing what some targets select** selects everything and gives it schemas in turn. -/
theorem publishAll_eq_ok : publishAll w c inlined targets noted s = .ok noted' s' ↔
    ∃ es : List (Token × Node), (es = [] ∨ c.Shows) ∧
      w.requested targets = .ok (es.map (·.1)) ∧
      (es.map (·.1)).mapM (c.supply inlined) s = .ok es s' ∧
      noted' = setKeys ((es.map c.note).map worded) noted := by
  induction targets generalizing noted s with
  | nil =>
    rw [publishAll, pure_eq_ok]
    constructor
    · rintro ⟨rfl, rfl⟩
      exact ⟨[], .inl rfl, rfl, rfl, rfl⟩
    · rintro ⟨es, -, hes, h, rfl⟩
      obtain rfl : es = [] := List.map_eq_nil_iff.mp (Except.ok.inj hes).symm
      obtain ⟨-, rfl⟩ := pure_eq_ok.mp h
      exact ⟨rfl, rfl⟩
  | cons target targets ih =>
    rw [publishAll_cons, bind_eq_ok]
    simp only [bind_eq_ok, lift_eq_ok, publish_eq_ok, ih, Surroundings.requested_cons_eq_ok]
    constructor
    · rintro ⟨ts, s₀, ⟨hts, rfl⟩, _, s₁, ⟨es, hshows, hes, rfl⟩, es', hshows', hes', hrest, rfl⟩
      refine ⟨es ++ es', ?_, ⟨ts, _, hts, hes', ?_⟩, ?_, ?_⟩
      · rw [List.append_eq_nil_iff]
        exact hshows.elim (fun h => hshows'.imp_left fun h' => ⟨h, h'⟩) .inr
      · rw [List.map_append, Compiler.supply_eq_ok hes]
      · rw [List.map_append, List.mapM_append, Compiler.supply_eq_ok hes, bind_of_ok hes,
          bind_of_ok hrest]
        rfl
      · rw [List.map_append, List.map_append, setKeys_append]
    · rintro ⟨es, hshows, ⟨ts, ts', hts, hts', hes⟩, h, rfl⟩
      rw [hes, List.mapM_append] at h
      obtain ⟨es₁, s₁, h₁, h⟩ := bind_eq_ok.mp h
      obtain ⟨es₂, s₂, h₂, h⟩ := bind_eq_ok.mp h
      obtain ⟨rfl, rfl⟩ := pure_eq_ok.mp h
      obtain rfl := Compiler.supply_eq_ok h₁
      obtain rfl := Compiler.supply_eq_ok h₂
      rw [List.append_eq_nil_iff] at hshows
      refine ⟨_, s, ⟨hts, rfl⟩, _, s₁, ⟨es₁, hshows.imp_left And.left, h₁, rfl⟩, es₂,
        hshows.imp_left And.right, hts', h₂, ?_⟩
      rw [List.map_append, List.map_append, setKeys_append]

end Run

/-! ## What is printed -/

/-- Names are set as keys as they are among themselves. -/
theorem setKeys_worded (fs m : List (String × Value)) :
    setKeys (fs.map Run.worded) (m.map Run.worded) = (setKeys fs m).map Run.worded := by
  have hset (k : String) (v : Value) (m : List (String × Value)) :
      setKey (k : Wording) v (m.map Run.worded) = (setKey k v m).map Run.worded := by
    induction m with
    | nil => rfl
    | cons e m ih =>
      have hkey : ((e.1 : Wording) == (k : Wording)) = (e.1 == k) := rfl
      rw [List.map_cons, Run.worded, setKey, setKey, hkey, ih]
      split <;> rfl
  induction fs generalizing m with
  | nil => rfl
  | cons f fs ih => exact (congrArg _ (hset f.1 f.2 m)).trans (ih _)

theorem toValue_worded (fs : List (String × Value)) :
    Rendered.toValue (fs.map Run.worded) = .ofFields fs := by
  rw [Rendered.toValue, Value.ofFields, List.map_map]
  rfl

namespace Surroundings

/-- **A run gets to the end**: the settings make a compiler, all targets can be loaded and select
types, and all of these are given schemas, in a session that starts empty.  References to schemas
have something to start with, unless there is nothing to show. -/
structure Completes (w : Surroundings) (i : Invocation) (c : Compiler) (es : List (Token × Node))
    (s : Session) : Prop where
  compiler : w.compiler = .ok c
  types : w.requested i.targets = .ok (es.map (·.1))
  schemas : (es.map (·.1)).mapM (c.supply i.inlined) {} = .ok es s
  shows : es = [] ∧ i.inlined = true ∨ c.Shows

variable {w : Surroundings} {i : Invocation} {v : Value}

/-- A run comes to one thing only. -/
theorem Completes.unique {c c' : Compiler} {es es' : List (Token × Node)} {s s' : Session}
    (h : w.Completes i c es s) (h' : w.Completes i c' es' s') : c = c' ∧ es = es' ∧ s = s' := by
  cases h.compiler.symm.trans h'.compiler
  have htypes : es'.map (·.1) = es.map (·.1) := Except.ok.inj (h'.types.symm.trans h.types)
  cases h.schemas.symm.trans (htypes ▸ h'.schemas)
  exact ⟨rfl, rfl, rfl⟩

theorem result_of_compiler_error {f : Fault} (h : w.compiler = .error f) :
    w.result i = .error (.fault f) := by
  rw [result, h]
  rfl

theorem result_of_publishAll {c : Compiler} {noted : Rendered} {s : Session}
    (hc : w.compiler = .ok c)
    (h : Run.publishAll w c i.inlined i.targets [] {} = .ok noted s) :
    w.result i = if i.inlined then .ok noted.toValue
      else (c.shown (c.document (.text i.title) (.text i.version) s)).mapError .fault := by
  rw [result, hc]
  dsimp only [Except.mapError, bind, Except.bind]
  rw [h]
  rfl

theorem result_of_publishAll_error {c : Compiler} {e : Stop} {s : Session}
    (hc : w.compiler = .ok c)
    (h : Run.publishAll w c i.inlined i.targets [] {} = .error e s) : w.result i = .error e := by
  rw [result, hc]
  dsimp only [Except.mapError, bind, Except.bind]
  rw [h]
  rfl

/-- What a run comes to that publishes everything. -/
theorem result_eq_ok_of_publishAll {c : Compiler} {es : List (Token × Node)} {s : Session}
    (hc : w.compiler = .ok c) (hshows : es = [] ∨ c.Shows)
    (h : Run.publishAll w c i.inlined i.targets [] {} =
      .ok (setKeys ((es.map c.note).map Run.worded) []) s) :
    w.result i = .ok v ↔ (es = [] ∧ i.inlined = true ∨ c.Shows) ∧
      v = if i.inlined then .ofFields (c.noted es)
        else c.document (.text i.title) (.text i.version) s := by
  have hnoted : setKeys ((es.map c.note).map Run.worded) [] = (c.noted es).map Run.worded :=
    setKeys_worded (es.map c.note) []
  rw [result_of_publishAll hc h, hnoted, toValue_worded]
  cases i.inlined with
  | true =>
    rw [if_pos rfl, if_pos rfl, Except.ok.injEq, eq_comm, and_iff_right_of_imp]
    exact fun _ => hshows.imp_left fun hes => ⟨hes, rfl⟩
  | false =>
    rw [if_neg Bool.false_ne_true, if_neg Bool.false_ne_true]
    cases hdocument : c.shown (c.document (.text i.title) (.text i.version) s) with
    | ok u =>
      obtain ⟨hshows, rfl⟩ := Compiler.shown_eq_ok.mp hdocument
      constructor
      · rintro ⟨⟩
        exact ⟨.inr hshows, rfl⟩
      · rintro ⟨-, rfl⟩
        rfl
    | error f =>
      refine ⟨nofun, ?_⟩
      rintro ⟨⟨-, hinlined⟩ | hshows, -⟩
      · cases hinlined
      · cases hdocument.symm.trans (Compiler.shown_of_shows hshows _)

theorem result_eq_ok : w.result i = .ok v ↔ ∃ c es s, w.Completes i c es s ∧
    v = if i.inlined then .ofFields (c.noted es)
      else c.document (.text i.title) (.text i.version) s := by
  cases hc : w.compiler with
  | error f =>
    rw [result_of_compiler_error hc]
    refine ⟨nofun, ?_⟩
    rintro ⟨c, es, s, h, -⟩
    cases hc.symm.trans h.compiler
  | ok c =>
    cases hrun : Run.publishAll w c i.inlined i.targets [] {} with
    | ok noted s =>
      obtain ⟨es, hshows, htypes, hschemas, rfl⟩ := Run.publishAll_eq_ok.mp hrun
      rw [result_eq_ok_of_publishAll hc hshows hrun]
      constructor
      · rintro ⟨hshows, rfl⟩
        exact ⟨c, es, s, ⟨hc, htypes, hschemas, hshows⟩, rfl⟩
      · rintro ⟨c', es', s', h, rfl⟩
        cases hc.symm.trans h.compiler
        have hsame : es'.map (·.1) = es.map (·.1) := Except.ok.inj (h.types.symm.trans htypes)
        cases hschemas.symm.trans (hsame ▸ h.schemas)
        exact ⟨h.shows, rfl⟩
    | error e s =>
      rw [result_of_publishAll_error hc hrun]
      refine ⟨nofun, ?_⟩
      rintro ⟨c', es, s', h, -⟩
      cases hc.symm.trans h.compiler
      cases hrun.symm.trans
        (Run.publishAll_eq_ok.mpr ⟨es, h.shows.imp_left And.left, h.types, h.schemas, rfl⟩)

end Surroundings

namespace Ending

variable {v : Value} {text : String}

theorem ofResult_eq_printed : ofResult v = .printed text ↔
    ∃ t, Json.document v = .ok t ∧ text = t ++ "\n" := by
  unfold ofResult
  cases Json.document v with
  | ok t =>
    constructor
    · rintro ⟨⟩
      exact ⟨t, rfl, rfl⟩
    · rintro ⟨_, ⟨⟩, rfl⟩
      rfl
  | error f => exact ⟨nofun, by rintro ⟨_, ⟨⟩, _⟩⟩

theorem ofReport_ne_printed (log : Log) (report : Value) (code : Int) :
    ofReport log report code ≠ .printed text := by
  unfold ofReport
  cases Json.document (.ofFields [("ok", .bool false), ("error", report)]) <;> exact nofun

/-- Nothing is printed by a run that is stopped. -/
theorem ofStop_ne_printed (log : Log) (e : Stop) : ofStop log e ≠ .printed text := by
  unfold ofStop
  split
  · exact ofReport_ne_printed _ _ _
  · exact ofReport_ne_printed _ _ _
  · split
    · exact ofReport_ne_printed _ _ _
    · exact nofun

end Ending

namespace Surroundings

variable {w : Surroundings} {words : List String} {i : Invocation}

theorem run_of_help (h : Command.ofWords words = .help) : w.run words = .helped := by
  rw [run, h]

theorem run_of_misuse (h : Command.ofWords words = .misuse) : w.run words = .refused := by
  rw [run, h]

theorem run_of_error {e : Stop} (h : Command.ofWords words = .build i)
    (hresult : w.result i = .error e) : w.run words = .ofStop (w.log i) e := by
  rw [run, h]
  dsimp only
  rw [hresult]

theorem run_of_ok {v : Value} (h : Command.ofWords words = .build i)
    (hresult : w.result i = .ok v) : w.run words = .ofResult v := by
  rw [run, h]
  dsimp only
  rw [hresult]

/-- **What is printed** is the document of what a run comes to. -/
theorem run_eq_printed {text : String} :
    w.run words = .printed text ↔ ∃ i v t, Command.ofWords words = .build i ∧
      w.result i = .ok v ∧ Json.document v = .ok t ∧ text = t ++ "\n" := by
  cases hwords : Command.ofWords words with
  | help =>
    rw [run_of_help hwords]
    exact ⟨nofun, by rintro ⟨_, _, _, ⟨⟩, _⟩⟩
  | misuse =>
    rw [run_of_misuse hwords]
    exact ⟨nofun, by rintro ⟨_, _, _, ⟨⟩, _⟩⟩
  | build i =>
    cases hresult : w.result i with
    | error e =>
      rw [run_of_error hwords hresult]
      refine ⟨fun h => absurd h (Ending.ofStop_ne_printed _ e), ?_⟩
      rintro ⟨_, _, _, ⟨⟩, hv, -⟩
      cases hresult.symm.trans hv
    | ok v =>
      rw [run_of_ok hwords hresult, Ending.ofResult_eq_printed]
      constructor
      · rintro ⟨t, ht, rfl⟩
        exact ⟨i, v, t, rfl, hresult, ht, rfl⟩
      · rintro ⟨_, _, t, ⟨⟩, hv, ht, rfl⟩
        cases hresult.symm.trans hv
        exact ⟨t, ht, rfl⟩

end Surroundings

end Schemata
