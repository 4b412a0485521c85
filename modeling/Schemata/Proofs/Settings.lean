import Schemata.Compiler.Setup
import Schemata.Fault.Report
import Schemata.Proofs.Registry.Growth
import Schemata.Proofs.Value.Latest
import Schemata.Proofs.Descriptor.Reading

/-!
# What settings come to

Settings are laid over one another, and what they mean is decided where they are read.  Two things
are said here for every project file, every environment and all that a host gives.

* **Where a setting comes from.**  `Settings.Sets` tells it without laying anything over anything:
  the last value given that is not null, or else the last variable for the setting, or else the last
  entry of the section of the project file, or else the default (`getKey?_iff_sets`).
* **What building a compiler comes to.**  A compiler is built with a depth and a release that are
  fit, `Settings.Builds`, or the setting that is not fit is reported, `Settings.Refuses`.  Three
  things get past this, `Settings.Escapes`: a depth that is infinite, and two settings that are
  refused or looked at and are too long to be shown.  Before that, `ProjectFile.Fails` tells of the
  files that settings cannot be read from at all.

`resolve_and_build` puts these together.
-/

namespace Schemata

namespace Settings

/-! ## Where a setting comes from -/

/-- A variable of the environment is the one for a setting: behind the mark that all of them bear
stands the name of the setting, in letters of either case. -/
def IsVariable (key name : String) : Prop :=
  ∃ rest, key.toList = variableStart ++ rest ∧ Text.lower (String.ofList rest) = name

/-- **Where a setting comes from**, given what the host gives, the variables of the environment and
the entries of the section of the project file. -/
inductive Sets (given : List (String × Value)) (environment : List (String × String))
    (entries : List (String × Value)) (name : String) : Value → Prop
  | given {v : Value} (h : LastOf (fun e => e.1 = name ∧ e.2 ≠ .null) given (name, v)) :
      Sets given environment entries name v
  | variable {key text : String} (hgiven : ∀ e ∈ given, e.1 = name → e.2 = .null)
      (h : LastOf (fun e => IsVariable e.1 name) environment (key, text)) :
      Sets given environment entries name (variableValue text)
  | project {key : String} {v : Value} (hgiven : ∀ e ∈ given, e.1 = name → e.2 = .null)
      (hvariables : ∀ e ∈ environment, ¬ IsVariable e.1 name)
      (h : LastOf (fun e => projectName e.1 = name) entries (key, v)) :
      Sets given environment entries name v
  | default {v : Value} (hgiven : ∀ e ∈ given, e.1 = name → e.2 = .null)
      (hvariables : ∀ e ∈ environment, ¬ IsVariable e.1 name)
      (hentries : ∀ e ∈ entries, projectName e.1 ≠ name) (h : (name, v) ∈ defaults) :
      Sets given environment entries name v

variable {s : Settings} {given entries : List (String × Value)}
  {environment : List (String × String)} {name : String} {v : Value}

theorem after?_eq_some {start cs rest : List Char} :
    Toml.after? start cs = some rest ↔ cs = start ++ rest := by
  induction start generalizing cs with
  | nil => simp [Toml.after?, eq_comm]
  | cons c start ih =>
    cases cs with
    | nil => simp [Toml.after?]
    | cons d cs =>
      rw [Toml.after?, List.cons_append, List.cons.injEq]
      split
      next h => rw [ih, and_iff_right h.symm]
      next h => exact ⟨nofun, fun heq => absurd heq.1.symm h⟩

/-- What a variable says about a setting. -/
theorem ofVariable?_eq_some {e : String × String} :
    ofVariable? e = some (name, v) ↔ IsVariable e.1 name ∧ variableValue e.2 = v := by
  unfold ofVariable? IsVariable
  constructor
  · intro h
    obtain ⟨rest, hrest, heq⟩ := Option.map_eq_some_iff.mp h
    obtain ⟨rfl, rfl⟩ := Prod.mk.inj heq
    exact ⟨⟨rest, after?_eq_some.mp hrest, rfl⟩, rfl⟩
  · rintro ⟨⟨rest, hrest, rfl⟩, rfl⟩
    rw [after?_eq_some.mpr hrest]
    rfl

/-- Lay the entries of the section of a project file over settings. -/
def withEntries (s : Settings) (entries : List (String × Value)) : Settings :=
  setKeys (entries.map fun e => (projectName e.1, e.2)) s

theorem getKey?_withEntries : getKey? name (s.withEntries entries) = some v ↔
    (∃ key, LastOf (fun e => projectName e.1 = name) entries (key, v)) ∨
      (∀ e ∈ entries, projectName e.1 ≠ name) ∧ getKey? name s = some v := by
  unfold withEntries
  rw [← List.filterMap_eq_map, getKey?_setKeys_filterMap (fun e u => by
    rw [Function.comp_apply, Option.some.injEq, Prod.mk.injEq])]
  simp

theorem getKey?_withEnvironment : getKey? name (s.withEnvironment environment) = some v ↔
    (∃ key text, LastOf (fun e => IsVariable e.1 name) environment (key, text) ∧
      variableValue text = v) ∨
      (∀ e ∈ environment, ¬ IsVariable e.1 name) ∧ getKey? name s = some v := by
  unfold withEnvironment
  rw [getKey?_setKeys_filterMap fun e u => ofVariable?_eq_some, Prod.exists]

theorem getKey?_withOverrides : getKey? name (s.withOverrides given) = some v ↔
    LastOf (fun e => e.1 = name ∧ e.2 ≠ .null) given (name, v) ∨
      (∀ e ∈ given, e.1 = name → e.2 = .null) ∧ getKey? name s = some v := by
  have hentry (e : String × Value) (u : Value) :
      Option.guard (fun e : String × Value => e.2.nonNull?.isSome) e = some (name, u) ↔
        (e.1 = name ∧ e.2 ≠ .null) ∧ e.2 = u := by
    obtain ⟨key, w⟩ := e
    cases w <;> simp [Option.guard_eq_some_iff, Value.nonNull?]
  unfold withOverrides
  rw [← List.filterMap_eq_filter, getKey?_setKeys_filterMap hentry]
  refine or_congr ⟨?_, fun h => ⟨_, h, rfl⟩⟩ (and_congr_left' ?_)
  · rintro ⟨⟨key, w⟩, h, rfl⟩
    obtain ⟨_, _, -, ⟨rfl, -⟩, -⟩ := id h
    exact h
  · refine forall₂_congr fun e _ => ?_
    rw [not_and, not_not]

theorem getKey?_defaults : getKey? name defaults = some v ↔ (name, v) ∈ defaults := by
  have hapart : KeysApart defaults := by
    unfold KeysApart defaults
    simp
  exact ⟨mem_of_getKey?, getKey?_of_mem hapart⟩

/-- **A setting comes from the topmost layer that says anything about it.** -/
theorem getKey?_iff_sets :
    getKey? name (((defaults.withEntries entries).withEnvironment environment).withOverrides
      given) = some v ↔ Sets given environment entries name v := by
  rw [getKey?_withOverrides, getKey?_withEnvironment, getKey?_withEntries, getKey?_defaults]
  constructor
  · rintro (h | ⟨hgiven, ⟨key, text, h, rfl⟩ | ⟨hvariables, ⟨key, h⟩ | ⟨hentries, h⟩⟩⟩)
    · exact .given h
    · exact .variable hgiven h
    · exact .project hgiven hvariables h
    · exact .default hgiven hvariables hentries h
  · rintro (h | ⟨hgiven, h⟩ | ⟨hgiven, hvariables, h⟩ | ⟨hgiven, hvariables, hentries, h⟩)
    · exact .inl h
    · exact .inr ⟨hgiven, .inl ⟨_, _, h, rfl⟩⟩
    · exact .inr ⟨hgiven, .inr ⟨hvariables, .inl ⟨_, h⟩⟩⟩
    · exact .inr ⟨hgiven, .inr ⟨hvariables, .inr ⟨hentries, h⟩⟩⟩

end Settings

/-! ## What a project file says -/

namespace ProjectFile

/-- **The entries of the section that a project file has for settings**: none, where there is no
file, or one that cannot be read or parsed, or one without such a section. -/
inductive Tells : ProjectFile → List (String × Value) → Prop
  | absent : Tells .absent []
  | unreadable : Tells .unreadable []
  | malformed {bs : List UInt8} {text : String} (htext : Text.decodeUtf8 bs = .ok text)
      (hdocument : (Toml.document? text).bind Toml.tableOf? = none) : Tells (.bytes bs) []
  | document {bs : List UInt8} {text : String} {root tools : Toml.Table}
      (htext : Text.decodeUtf8 bs = .ok text)
      (hdocument : (Toml.document? text).bind Toml.tableOf? = some root)
      (htools : Toml.tableOf? ((getKey? "tool" root).getD (.dict [])) = some tools) :
      Tells (.bytes bs) (((getKey? "schemacraft" tools).bind Toml.tableOf?).getD [])

/-- **Project files that no settings can be read from**: a file that is not UTF-8, and one in which
the table that the section would stand in is no table. -/
inductive Fails : ProjectFile → Fault → Prop
  | undecodable {bs : List UInt8} {f : Text.Utf8Failure} (htext : Text.decodeUtf8 bs = .error f) :
      Fails (.bytes bs) (.undecodableFile f)
  | noTable {bs : List UInt8} {text : String} {root : Toml.Table} {tool : Value}
      (htext : Text.decodeUtf8 bs = .ok text)
      (hdocument : (Toml.document? text).bind Toml.tableOf? = some root)
      (htool : getKey? "tool" root = some tool) (htable : Toml.tableOf? tool = none) :
      Fails (.bytes bs) (.notMapping tool.kindPath)

end ProjectFile

namespace Settings

variable {s : Settings} {given entries : List (String × Value)}
  {environment : List (String × String)} {name : String} {v : Value} {file : ProjectFile}

theorem withProject_of_tables {document : Value} {root tools : Toml.Table}
    (hroot : Toml.tableOf? document = some root)
    (htools : Toml.tableOf? ((getKey? "tool" root).getD (.dict [])) = some tools) :
    s.withProject document =
      .ok (s.withEntries (((getKey? "schemacraft" tools).bind Toml.tableOf?).getD [])) := by
  unfold withProject
  simp only [hroot, htools]
  cases (getKey? "schemacraft" tools).bind Toml.tableOf? <;> rfl

theorem withProject_of_noTable {document tool : Value} {root : Toml.Table}
    (hroot : Toml.tableOf? document = some root) (htool : getKey? "tool" root = some tool)
    (htable : Toml.tableOf? tool = none) :
    s.withProject document = .error (.notMapping tool.kindPath) := by
  unfold withProject
  simp only [hroot, htool, Option.getD_some, htable]

section

variable {bs : List UInt8} {text : String} {root tools : Toml.Table} {tool : Value}
  (htext : Text.decodeUtf8 bs = .ok text)
  (hdocument : (Toml.document? text).bind Toml.tableOf? = some root)
include htext hdocument

theorem withProjectFile_of_tables
    (htools : Toml.tableOf? ((getKey? "tool" root).getD (.dict [])) = some tools) :
    s.withProjectFile (.bytes bs) =
      .ok (s.withEntries (((getKey? "schemacraft" tools).bind Toml.tableOf?).getD []), false) := by
  obtain ⟨document, hparsed, hroot⟩ := Option.bind_eq_some_iff.mp hdocument
  simp only [withProjectFile, htext, hparsed, withProject_of_tables hroot htools]
  rfl

theorem withProjectFile_of_noTable (htool : getKey? "tool" root = some tool)
    (htable : Toml.tableOf? tool = none) :
    s.withProjectFile (.bytes bs) = .error (.notMapping tool.kindPath) := by
  obtain ⟨document, hparsed, hroot⟩ := Option.bind_eq_some_iff.mp hdocument
  simp only [withProjectFile, htext, hparsed, withProject_of_noTable hroot htool htable]
  rfl

end

/-- **A project file says something, if only that nothing is set, or it fails.** -/
theorem withProjectFile_cases (s : Settings) (file : ProjectFile) :
    (∃ entries ignored, file.Tells entries ∧
      s.withProjectFile file = .ok (s.withEntries entries, ignored)) ∨
      ∃ f, file.Fails f ∧ s.withProjectFile file = .error f := by
  cases file with
  | absent => exact .inl ⟨[], false, .absent, rfl⟩
  | unreadable => exact .inl ⟨[], true, .unreadable, rfl⟩
  | bytes bs =>
    cases htext : Text.decodeUtf8 bs with
    | error f => exact .inr ⟨_, .undecodable htext, by simp only [withProjectFile, htext]⟩
    | ok text =>
      cases hdocument : (Toml.document? text).bind Toml.tableOf? with
      | none =>
        obtain ⟨ignored, hignored⟩ : ∃ ignored,
            s.withProjectFile (.bytes bs) = .ok (s, ignored) := by
          simp only [withProjectFile, htext]
          cases hparsed : Toml.document? text with
          | none => exact ⟨true, rfl⟩
          | some document =>
            rw [hparsed] at hdocument
            have hroot : Toml.tableOf? document = none := hdocument
            simp only [withProject, hroot]
            exact ⟨false, rfl⟩
        exact .inl ⟨[], ignored, .malformed htext hdocument, hignored⟩
      | some root =>
        cases htools : Toml.tableOf? ((getKey? "tool" root).getD (.dict [])) with
        | some tools =>
          exact .inl ⟨_, false, .document htext hdocument htools,
            withProjectFile_of_tables htext hdocument htools⟩
        | none =>
          obtain ⟨tool, htool, htable⟩ : ∃ tool, getKey? "tool" root = some tool ∧
              Toml.tableOf? tool = none := by
            cases htool : getKey? "tool" root with
            | none =>
              rw [htool] at htools
              cases htools
            | some tool =>
              rw [htool] at htools
              exact ⟨tool, rfl, htools⟩
          exact .inr ⟨_, .noTable htext hdocument htool htable,
            withProjectFile_of_noTable htext hdocument htool htable⟩

/-- **Settings are what the layers say, from the top**, or the project file fails. -/
theorem resolve_cases (load : Bool) (file : ProjectFile) (environment : List (String × String))
    (given : List (String × Value)) :
    (∃ s ignored entries, resolve load file environment given = .ok (s, ignored) ∧
      (if load then file.Tells entries else entries = []) ∧
      ∀ name v, getKey? name s = some v ↔
        Sets given (if load then environment else []) entries name v) ∨
      ∃ f, load = true ∧ file.Fails f ∧ resolve load file environment given = .error f := by
  unfold resolve
  cases load with
  | false =>
    have hsets : ∀ name v, getKey? name (((defaults.withEntries []).withEnvironment
        []).withOverrides given) = some v ↔ Sets given [] [] name v := fun _ _ => getKey?_iff_sets
    exact .inl ⟨_, false, [], rfl, rfl, hsets⟩
  | true =>
    rcases withProjectFile_cases defaults file with ⟨entries, ignored, htells, hfile⟩ |
      ⟨f, hfails, hfile⟩
    · refine .inl ⟨_, ignored, entries, ?_, htells, fun name v => getKey?_iff_sets⟩
      rw [hfile]
      rfl
    · refine .inr ⟨f, rfl, hfails, ?_⟩
      rw [hfile]
      rfl

/-! ## What building a compiler comes to -/

/-- **A compiler is built from settings that are fit**, and this is what it is built with. -/
structure Builds (s : Settings) (c : Compiler) : Prop where
  release : c.release = (s.setting "openapi_version").display
  supported : c.release = "3.1" ∨ ∃ rest, c.release = "3.1." ++ rest
  depth : (s.setting "max_depth").whole = .ok (c.environment.maxDepth : Int)
  positive : 1 ≤ c.environment.maxDepth
  capturing : c.environment.captureDefaults = s.capturesDefaults
  refPrefix : c.refPrefix = s.refPrefix

/-- **The setting that is not fit is reported**, and shown in the message. -/
inductive Refuses (s : Settings) (r : Report) : Prop
  | release {shown : String} (hshown : (s.setting "openapi_version").shown = .ok shown)
      (hversion : shown ≠ "3.1") (hpatch : ∀ rest, shown ≠ "3.1." ++ rest)
      (hcode : r.code = "E1000") (hexit : r.exitCode = 10)
      (hsubject : r.subject = some "openapi_version")
      (hmessage : r.message =
        "openapi_version must be a 3.1.x release, got " ++ Text.quoted shown ++ ".")
  | depth {spelled : String} (hspelling : (s.setting "max_depth").spelling = .ok spelled)
      (hdepth : ∀ n : Nat, (s.setting "max_depth").whole = .ok n → n = 0)
      (hcode : r.code = "E1000") (hexit : r.exitCode = 10) (hsubject : r.subject = some "max_depth")
      (hmessage : r.message = "max_depth must be a positive integer, got " ++ spelled ++ ".")

/-- **What is not reported**: a depth that is infinite, and settings that are too long to be
shown. -/
inductive Escapes (s : Settings) : Fault → Prop
  | infinite {negative : Bool} (h : (s.setting "max_depth").core = .float (.infinite negative)) :
      Escapes s (.infiniteInteger true)
  | infiniteDecimal {negative : Bool}
      (h : (s.setting "max_depth").core = .decimal (.infinite negative)) :
      Escapes s (.infiniteInteger false)
  | release (h : (s.setting "openapi_version").isDisplayed = false) : Escapes s .tooManyDigits
  | depth (h : (s.setting "max_depth").isSpelled = false)
      (hdepth : ∀ n : Nat, (s.setting "max_depth").whole = .ok n → n = 0) : Escapes s .tooManyDigits

/-- A step that succeeds. -/
theorem except_ok_bind {α β : Type} (a : α) (f : α → Except Fault β) : (.ok a >>= f) = f a :=
  rfl

theorem isSupported_iff {text : String} :
    isSupported text = true ↔ text = "3.1" ∨ ∃ rest, text = "3.1." ++ rest := by
  unfold isSupported
  rw [Bool.or_eq_true, beq_iff_eq, String.startsWith_string_iff]
  refine or_congr_right ⟨?_, ?_⟩
  · rintro ⟨rest, h⟩
    refine ⟨String.ofList rest, String.toList_inj.mp ?_⟩
    simpa using h.symm
  · rintro ⟨rest, rfl⟩
    exact ⟨rest.toList, String.toList_append.symm⟩

/-- Of the values that are no whole numbers, the infinite ones are told apart. -/
theorem infinite_of_whole {binary : Bool} (h : v.whole = .error (.infiniteInteger binary)) :
    ∃ negative, v.core =
      if binary then .float (.infinite negative) else .decimal (.infinite negative) := by
  unfold Value.whole at h
  split at h
  case h_5 negative hcore =>
    cases h
    exact ⟨negative, hcore⟩
  case h_8 negative hcore =>
    cases h
    exact ⟨negative, hcore⟩
  all_goals first | cases h | (split at h <;> cases h)

theorem release_of_supported {text : String}
    (hshown : (s.setting "openapi_version").shown = .ok text) (h : isSupported text = true) :
    s.release = .ok text := by
  rw [release, hshown, except_ok_bind, if_pos h]
  rfl

theorem release_of_unsupported {text : String}
    (hshown : (s.setting "openapi_version").shown = .ok text) (h : ¬ isSupported text = true) :
    s.release = .error (.unsupportedRelease (Text.quoted text)) := by
  rw [release, hshown, except_ok_bind, if_neg h]
  rfl

theorem release_of_long (h : (s.setting "openapi_version").isDisplayed = false) :
    s.release = .error .tooManyDigits := by
  have hshown : (s.setting "openapi_version").shown = .error .tooManyDigits :=
    if_neg (by rw [h]; exact Bool.false_ne_true)
  rw [release, hshown]
  rfl

/-- **The release is one that is supported**, or it is refused, or too long to be shown. -/
theorem release_cases (s : Settings) :
    (∃ text, s.release = .ok text ∧ text = (s.setting "openapi_version").display ∧
      (text = "3.1" ∨ ∃ rest, text = "3.1." ++ rest)) ∨
    (∃ f r, s.release = .error f ∧ f.report? = some r ∧ s.Refuses r) ∨
    ∃ f, s.release = .error f ∧ f.report? = none ∧ s.Escapes f := by
  cases hlong : (s.setting "openapi_version").isDisplayed with
  | false => exact .inr (.inr ⟨_, release_of_long hlong, rfl, .release hlong⟩)
  | true =>
    have hshown : (s.setting "openapi_version").shown = .ok _ := if_pos hlong
    by_cases hsupported : isSupported (s.setting "openapi_version").display = true
    · exact .inl ⟨_, release_of_supported hshown hsupported, rfl, isSupported_iff.mp hsupported⟩
    · have hnot := mt isSupported_iff.mpr hsupported
      rw [not_or, not_exists] at hnot
      exact .inr (.inl ⟨_, _, release_of_unsupported hshown hsupported, rfl,
        .release hshown hnot.1 hnot.2 rfl rfl rfl rfl⟩)

/-- A depth that is refused is reported, unless it is too long to be shown. -/
theorem refuseDepth_cases
    (hdepth : ∀ n : Nat, (s.setting "max_depth").whole = .ok (n : Int) → n = 0) :
    (∃ f r, refuseDepth (s.setting "max_depth") = .error f ∧ f.report? = some r ∧ s.Refuses r) ∨
      ∃ f, refuseDepth (s.setting "max_depth") = .error f ∧ f.report? = none ∧ s.Escapes f := by
  unfold refuseDepth
  cases hspelling : (s.setting "max_depth").spelling with
  | error f =>
    unfold Value.spelling at hspelling
    split at hspelling
    next => cases hspelling
    next hlong =>
      cases hspelling
      exact .inr ⟨_, rfl, rfl, .depth (Bool.eq_false_iff.mpr hlong) hdepth⟩
  | ok spelled => exact .inl ⟨_, _, rfl, rfl, .depth hspelling hdepth rfl rfl rfl rfl⟩

/-- **The depth is a positive whole number**, or it is refused, or too long to be shown, or
infinite. -/
theorem depth_cases (s : Settings) :
    (∃ n : Nat, s.depth = .ok n ∧ (s.setting "max_depth").whole = .ok (n : Int) ∧ 1 ≤ n) ∨
    (∃ f r, s.depth = .error f ∧ f.report? = some r ∧ s.Refuses r) ∨
    ∃ f, s.depth = .error f ∧ f.report? = none ∧ s.Escapes f := by
  unfold depth
  dsimp only
  split
  next binary hwhole =>
    obtain ⟨negative, hcore⟩ := infinite_of_whole hwhole
    cases binary with
    | true => exact .inr (.inr ⟨_, rfl, rfl, .infinite hcore⟩)
    | false => exact .inr (.inr ⟨_, rfl, rfl, .infiniteDecimal hcore⟩)
  next e hwhole => exact .inr (refuseDepth_cases fun n hn => by cases hwhole.symm.trans hn)
  next n hwhole =>
    split
    next hlow =>
      refine .inr (refuseDepth_cases fun m hm => ?_)
      cases hwhole.symm.trans hm
      omega
    next hhigh =>
      have hn : ((n.toNat : Nat) : Int) = n := Int.toNat_of_nonneg (by omega)
      exact .inl ⟨n.toNat, rfl, by rw [hn, hwhole], by omega⟩

variable {p : Program} {kinds : Kinds} {f : Fault}

theorem ofSettings_eq_ok {k : Kinds} {text : String} {n : Nat} (hrelease : s.release = .ok text)
    (hdepth : s.depth = .ok n) : Compiler.ofSettings p k s = .ok
      { environment :=
          { program := p, kinds := k, maxDepth := n, captureDefaults := s.capturesDefaults }
        refPrefix := s.refPrefix
        release := text } := by
  rw [Compiler.ofSettings, hrelease, except_ok_bind, hdepth]
  rfl

theorem ofSettings_of_release_error (h : s.release = .error f) :
    Compiler.ofSettings p kinds s = .error f := by
  rw [Compiler.ofSettings, h]
  rfl

theorem ofSettings_of_depth_error {text : String} (hrelease : s.release = .ok text)
    (h : s.depth = .error f) : Compiler.ofSettings p kinds s = .error f := by
  rw [Compiler.ofSettings, hrelease, except_ok_bind, h]
  rfl

/-- **A compiler is built from settings that are fit, and what is not fit is reported**, except for
what escapes. -/
theorem ofSettings_cases (p : Program) (kinds : Kinds) (s : Settings) :
    (∃ c, Compiler.ofSettings p kinds s = .ok c ∧ s.Builds c) ∨
    (∃ f r, Compiler.ofSettings p kinds s = .error f ∧ f.report? = some r ∧ s.Refuses r) ∨
    ∃ f, Compiler.ofSettings p kinds s = .error f ∧ f.report? = none ∧ s.Escapes f := by
  rcases release_cases s with ⟨text, hrelease, htext, hsupported⟩ | ⟨f, r, hrelease, hrefused⟩ |
    ⟨f, hrelease, hescapes⟩
  · rcases depth_cases s with ⟨n, hdepth, hwhole, hpositive⟩ | ⟨f, r, hdepth, hrefused⟩ |
      ⟨f, hdepth, hescapes⟩
    · have hbuilt := ofSettings_eq_ok (p := p) (k := kinds) hrelease hdepth
      exact .inl ⟨_, hbuilt, htext, hsupported, hwhole, hpositive, rfl, rfl⟩
    · exact .inr (.inl ⟨f, r, ofSettings_of_depth_error hrelease hdepth, hrefused⟩)
    · exact .inr (.inr ⟨f, ofSettings_of_depth_error hrelease hdepth, hescapes⟩)
  · exact .inr (.inl ⟨f, r, ofSettings_of_release_error hrelease, hrefused⟩)
  · exact .inr (.inr ⟨f, ofSettings_of_release_error hrelease, hescapes⟩)

/-- **Settings are resolved from the top, and a compiler is built from them or the setting that is
not fit is reported.**  For every project file, every environment and all that a host gives:

the settings can be resolved, each comes from the topmost layer that says anything about it, and
building a compiler succeeds with a release and a depth that are fit, or fails with a report of the
setting that is not, or fails without one because a setting escapes;

or the project file is one that no settings can be read from, and this is not reported. -/
theorem resolve_and_build (p : Program) (kinds : Kinds) (load : Bool) (file : ProjectFile)
    (environment : List (String × String)) (given : List (String × Value)) :
    (∃ s ignored entries, resolve load file environment given = .ok (s, ignored) ∧
      (if load then file.Tells entries else entries = []) ∧
      (∀ name v, getKey? name s = some v ↔
        Sets given (if load then environment else []) entries name v) ∧
      ((∃ c, Compiler.ofSettings p kinds s = .ok c ∧ s.Builds c) ∨
        (∃ f r, Compiler.ofSettings p kinds s = .error f ∧ f.report? = some r ∧ s.Refuses r) ∨
        ∃ f, Compiler.ofSettings p kinds s = .error f ∧ f.report? = none ∧ s.Escapes f)) ∨
      ∃ f, load = true ∧ file.Fails f ∧ resolve load file environment given = .error f ∧
        f.report? = none := by
  rcases resolve_cases load file environment given with
    ⟨s, ignored, entries, hresolve, htells, hsets⟩ | ⟨f, hload, hfails, hresolve⟩
  · exact .inl ⟨s, ignored, entries, hresolve, htells, hsets, ofSettings_cases p kinds s⟩
  · refine .inr ⟨f, hload, hfails, hresolve, ?_⟩
    cases hfails <;> rfl

theorem setting_of_sets (h : Sets given environment entries name v) :
    (((defaults.withEntries entries).withEnvironment environment).withOverrides given).setting
      name = v := by
  rw [setting, getKey?_iff_sets.mpr h]
  rfl

theorem depth_of_infinite {negative : Bool}
    (h : s.setting "max_depth" = .float (.infinite negative)) :
    s.depth = .error (.infiniteInteger true) := by
  rw [depth, h]
  rfl

/-- A section of a project file that makes the depth infinite and sets nothing else. -/
def isInfiniteDepth : List (String × Value) → Bool
  | [(key, .float (.infinite false))] => key == "max_depth"
  | _ => false

theorem eq_of_isInfiniteDepth (h : isInfiniteDepth entries = true) :
    entries = [("max_depth", .float (.infinite false))] := by
  unfold isInfiniteDepth at h
  split at h
  · rw [beq_iff_eq.mp h]
  · cases h

/-- A project file that makes the depth infinite is read, and what building a compiler then fails
with is not reported.  Neither is a release that is too long to be shown, nor a project file in
which the table of tools is a number. -/
theorem infinite_depth_escapes :
    (∃ s, resolve true (.bytes "[tool.schemacraft]\nmax_depth = inf\n".toUTF8.toList) [] [] =
        .ok (s, false) ∧ s.setting "max_depth" = .float (.infinite false) ∧
      Compiler.ofSettings {} [] s = .error (.infiniteInteger true) ∧
      (Fault.infiniteInteger true).report? = none) ∧
    (∃ s, resolve false .absent [] [("openapi_version", .int (Nat.pow 10 4300))] = .ok (s, false) ∧
      Compiler.ofSettings {} [] s = .error .tooManyDigits ∧ Fault.tooManyDigits.report? = none) ∧
    resolve true (.bytes "tool = 5\n".toUTF8.toList) [] [] = .error (.notMapping "int") ∧
      (Fault.notMapping "int").report? = none := by
  have hlong : (Value.int (Nat.pow 10 4300)).isDisplayed = false := by decide +kernel
  refine ⟨?_, ⟨_, rfl, ofSettings_of_release_error (release_of_long hlong), rfl⟩, ?_, rfl⟩
  · have htext : Text.decodeUtf8 "[tool.schemacraft]\nmax_depth = inf\n".toUTF8.toList =
        .ok "[tool.schemacraft]\nmax_depth = inf\n" := eq_ok_of_toOption (by decide +kernel)
    have htables : ((Toml.document? "[tool.schemacraft]\nmax_depth = inf\n").bind
        Toml.tableOf?).any (fun root =>
          (Toml.tableOf? ((getKey? "tool" root).getD (.dict []))).any fun tools =>
            isInfiniteDepth (((getKey? "schemacraft" tools).bind Toml.tableOf?).getD [])) =
          true := by decide +kernel
    obtain ⟨root, hroot, htables⟩ := (Option.any_eq_true _ _).mp htables
    obtain ⟨tools, htools, hentries⟩ := (Option.any_eq_true _ _).mp htables
    have hfile := withProjectFile_of_tables (s := defaults) htext hroot htools
    rw [eq_of_isInfiniteDepth hentries] at hfile
    -- the depth is set by the file, and the release is left as it is
    have hlast : LastOf (fun e : String × Value => projectName e.1 = "max_depth")
        ([] ++ [("max_depth", .float (.infinite false))]) ("max_depth", .float (.infinite false)) :=
      (lastOf_concat_of_pos (by decide +kernel)).mpr rfl
    have hdepth : Sets [] [] [("max_depth", .float (.infinite false))] "max_depth"
        (.float (.infinite false)) := .project nofun nofun hlast
    have hother : ∀ e ∈ [("max_depth", Value.float (.infinite false))],
        projectName e.1 ≠ "openapi_version" := List.forall_mem_singleton.mpr (by decide +kernel)
    have hversion : Sets [] [] [("max_depth", .float (.infinite false))] "openapi_version"
        (.text "3.1.0") := .default nofun nofun hother (by simp [defaults])
    have hinfinite := setting_of_sets hdepth
    have hshown := (congrArg Value.shown (setting_of_sets hversion)).trans
      (rfl : _ = Except.ok "3.1.0")
    have hrelease := release_of_supported hshown (isSupported_iff.mpr (.inr ⟨"0", rfl⟩))
    refine ⟨_, ?_, hinfinite, ofSettings_of_depth_error hrelease (depth_of_infinite hinfinite), rfl⟩
    unfold resolve
    rw [if_pos rfl, hfile]
    rfl
  · have htext : Text.decodeUtf8 "tool = 5\n".toUTF8.toList = .ok "tool = 5\n" :=
      eq_ok_of_toOption (by decide +kernel)
    have htool : ((Toml.document? "tool = 5\n").bind Toml.tableOf?).any (fun root =>
        (getKey? "tool" root).any fun tool =>
          (Toml.tableOf? tool).isNone && tool.kindPath == "int") = true := by decide +kernel
    obtain ⟨root, hroot, htool⟩ := (Option.any_eq_true _ _).mp htool
    obtain ⟨tool, htool, hkind⟩ := (Option.any_eq_true _ _).mp htool
    obtain ⟨htable, hkind⟩ := Bool.and_eq_true_iff.mp hkind
    have hfile := withProjectFile_of_noTable (s := defaults) htext hroot htool
      (Option.isNone_iff_eq_none.mp htable)
    rw [beq_iff_eq.mp hkind] at hfile
    unfold resolve
    rw [if_pos rfl, hfile]
    rfl

end Settings

end Schemata
