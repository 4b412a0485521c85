import Schemata.Toml.Document
import Schemata.Text.Lowercase
import Schemata.Value.Digits
import Schemata.Schema.Render

/-!
# Settings

The settings of a run are laid over one another: defaults, then the section
`tool.schemacraft` of the project file, then the variables of the environment that
start with `SCHEMACRAFT_`, then what the host gives outright.  Every layer may also
hold settings that nothing reads.

Settings are dynamic values, since every layer has its own idea of their kinds.
What they mean is decided where they are read: `depth` wants a positive whole
number in whatever form, `release` a release of the document format that is
supported.
-/

namespace Schemata

/-- Settings by name. -/
abbrev Settings := List (String × Value)

/-- The project file as found. -/
inductive ProjectFile where
  | absent
  /-- There is something in its place that is no file. -/
  | unreadable
  | bytes (bs : List UInt8)
  deriving Inhabited

namespace Settings

/-- The settings of a run that sets nothing. -/
def defaults : Settings :=
  [("ref_prefix", .text defaultRefPrefix), ("max_depth", .int 64),
   ("capture_defaults", .bool true), ("openapi_version", .text "3.1.0")]

/-! ## Layers -/

/-- The name of a setting in the project file, where a dash may stand for an
underscore. -/
def projectName (name : String) : String :=
  String.ofList (name.toList.map fun c => if c = '-' then '_' else c)

/-- Lay the section of a project file over settings. -/
def withProject (s : Settings) (document : Value) : Except Fault Settings :=
  match Toml.tableOf? document with
  | none => .ok s
  | some root =>
    let tool := (getKey? "tool" root).getD (.dict [])
    match Toml.tableOf? tool with
    | none => .error (.notMapping tool.kindPath)
    | some tools =>
      match (getKey? "schemacraft" tools).bind Toml.tableOf? with
      | none => .ok s
      | some section_ => .ok (setKeys (section_.map fun e => (projectName e.1, e.2)) s)

/-- How the names of variables start. -/
def variableStart : List Char := "SCHEMACRAFT_".toList

/-- The value of a variable: a truth value if its text is a word for one. -/
def variableValue (text : String) : Value :=
  let word := Text.lower text
  if ["true", "1", "yes"].contains word then .bool true
  else if ["false", "0", "no"].contains word then .bool false
  else .text text

/-- The setting a variable gives, if it is one of ours. -/
def ofVariable? (variable_ : String × String) : Option (String × Value) :=
  (Toml.after? variableStart variable_.1.toList).map fun name =>
    (Text.lower (String.ofList name), variableValue variable_.2)

/-- Lay the environment over settings. -/
def withEnvironment (s : Settings) (environment : List (String × String)) : Settings :=
  setKeys (environment.filterMap ofVariable?) s

/-- Lay what the host gives over settings; null gives nothing. -/
def withOverrides (s : Settings) (given : List (String × Value)) : Settings :=
  setKeys (given.filter fun e => e.2.nonNull?.isSome) s

/-- Lay a project file over settings, and tell whether it had to be ignored. -/
def withProjectFile (s : Settings) : ProjectFile → Except Fault (Settings × Bool)
  | .absent => .ok (s, false)
  | .unreadable => .ok (s, true)
  | .bytes bs =>
    match Text.decodeUtf8 bs with
    | .error f => .error (.undecodableFile f)
    | .ok text =>
      match Toml.document? text with
      | none => .ok (s, true)
      | some document => do return (← s.withProject document, false)

/-- **The settings of a run**, and whether the project file had to be ignored.  A run
may leave out everything but the defaults and what the host gives. -/
def resolve (load : Bool) (project : ProjectFile) (environment : List (String × String))
    (given : List (String × Value)) : Except Fault (Settings × Bool) := do
  if load then
    let (s, ignored) ← defaults.withProjectFile project
    return ((s.withEnvironment environment).withOverrides given, ignored)
  else return (defaults.withOverrides given, false)

/-- The name that messages call settings by. -/
def maker : String := "SchemacraftConfig"

/-- Nothing is given under a name that means something else: one of those taken already, the
settings themselves, or the place of the project file. -/
def checkNames (taken : List String) (given : List (String × Value)) : Except Fault Unit :=
  let refuse (what sort name : String) : Except Fault Unit :=
    .error (.unfit .kind (what ++ "() got multiple values for " ++ sort ++ " '" ++ name ++ "'"))
  let names := given.map (·.1)
  match names.find? taken.contains, names.find? ["self", "project_root"].contains with
  | some name, _ => refuse ("schemacraft.config." ++ maker) "keyword argument" name
  | none, some name => refuse (maker ++ ".__init__") "argument" name
  | none, none => .ok ()

/-! ## Reading settings -/

/-- A setting by its name. -/
def setting (s : Settings) (name : String) : Value :=
  (getKey? name s).getD .null

/-- Where references to stored schemas point. -/
def refPrefix (s : Settings) : Except Fault String := (s.setting "ref_prefix").shown

/-- A release of the document format that is supported: 3.1 in any state. -/
def isSupported (release : String) : Bool :=
  release == "3.1" || release.startsWith "3.1."

/-- **The release of the document format.** -/
def release (s : Settings) : Except Fault String := do
  let text ← (s.setting "openapi_version").shown
  if isSupported text then return text else throw (.unsupportedRelease (Text.quoted text))

/-- **Whether defaults are published.**  A text says yes unless it is a word for no. -/
def capturesDefaults (s : Settings) : Bool :=
  let v := s.setting "capture_defaults"
  match v.text? with
  | some t => !(["false", "0", "no", "off"].contains (Text.lower t))
  | none => v.truthy

/-- Refuse a depth. -/
def refuseDepth (v : Value) : Except Fault Nat := do
  throw (.invalidDepth (← v.spelling))

/-- **How deep types may nest.**  A value that is no number is no depth; an infinite one
cannot even be looked at. -/
def depth (s : Settings) : Except Fault Nat :=
  let v := s.setting "max_depth"
  match v.whole with
  | .error (.infiniteInteger binary) => .error (.infiniteInteger binary)
  | .error _ => refuseDepth v
  | .ok n => if n < 1 then refuseDepth v else .ok n.toNat

end Settings

end Schemata
