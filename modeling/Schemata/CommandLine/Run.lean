import Schemata.CommandLine.Invocation
import Schemata.CommandLine.Surroundings
import Schemata.Compiler.Setup
import Schemata.Fault.Report
import Schemata.Json.Layout

/-!
# Running a command line

A run reads the settings, loads its targets one after the other and publishes the
types they select, all into one registry.  It prints the document with everything
published, or the schemas of the targets themselves, each under the name of its type.

A run ends in one of five ways.  Faults of declarations and failures to load are
reported as JSON, the former with the exit code of their report, and after what has been
logged; help is given, and a misuse of the command line is refused; any other fault is not
the business of the run and passes through.
-/

namespace Schemata

/-- What may come before a report where it is written. -/
structure Log where
  /-- A warning about the project file, which had to be ignored. -/
  warning : Bool := false
  /-- The steps of the run, one by one. -/
  steps : Bool := false
  deriving DecidableEq, Repr, Inhabited

/-- How a run ends. -/
inductive Ending where
  | printed (text : String)
  | reported (log : Log) (text : String) (exitCode : Int)
  | helped
  /-- The command line is a misuse. -/
  | refused
  | failed (f : Fault)
  deriving Repr

namespace Ending

/-- The exit code of a run. -/
def exitCode : Ending → Int
  | .printed _ | .helped => 0
  | .reported _ _ code => code
  | .refused => 2
  | .failed (.exit code) => code
  | .failed _ => 1

end Ending

/-- A run works on a session, and may stop. -/
abbrev Run (α : Type) := EStateM Stop Session α

namespace Value

/-- A value in the place of a type. -/
def toToken : Value → Token
  | .null => .none
  | v => .value v

end Value

/-- The members that an enumeration lists. -/
def Program.listed? (p : Program) (t : Token) : Option (List Value) :=
  match (p.class? t).map Class.form with
  | some (.enumeration e) => some (e.listed.filterMap fun name => getKey? name e.members)
  | _ => none

namespace Program

/-- Why a type cannot be unpacked. -/
def unpackText (p : Program) (t : Token) : String :=
  p.spell t ++ " is not valid as type argument"

/-- A type that is to be unpacked. -/
def unpacked (t : Token) : Token := .generic (.builtin .unpack) [t]

/-- The kind of a type that cannot be walked through. -/
def stuckKind (p : Program) (t : Token) : String :=
  match t with
  | .builtin .tupleAlias => "_TupleType"
  | .builtin .classVariable | .builtin .unpack => "_SpecialForm"
  | .builtin b =>
    if b.aliased?.isSome then "_SpecialGenericAlias"
    else if b.isBrand then "NewType" else p.sortName t
  | .union false _ => "_UnionGenericAlias"
  | .annotated .. => "_AnnotatedAlias"
  | .typeVar _ => "TypeVar"
  | .forward _ => "ForwardRef"
  | t => p.sortName t

/-- **What a type gives that is walked through.**  An enumeration gives its members.  A
generic type gives itself once, to be unpacked, and what is made of a collection is
described as it is before that. -/
def walk (p : Program) (t : Token) : Except Fault (List Token) :=
  match t with
  | .builtin .enumeration => .ok []
  | .classVar _ | .generic (.builtin .generic) _ | .generic (.builtin .protocol) _ =>
    .error (.unfit .kind (p.unpackText t))
  | .generic (.builtin b) _ => .ok [if b.aliased?.isSome then unpacked t else t]
  | .generic (.declared _) _ | .literal _ => .ok [unpacked t]
  | .value v => do return (← v.walk).map Value.toToken
  | t =>
    match p.listed? t with
    | some vs => .ok (vs.map .value)
    | none => .error (.notIterable (p.stuckKind t))

end Program

namespace Holding

/-- What an attribute holds, as one type; null is nothing.  A list of types is no type. -/
def token? : Holding → Option Token
  | .type t => some t
  | .types _ => some (.value (.list []))
  | .value v => v.nonNull?.map .value

/-- What an attribute holds, as a list of types.  A single type has to be walked
through. -/
def tokens (p : Program) : Holding → Except Fault (List Token)
  | .type t => p.walk t
  | .types ts => .ok ts
  | .value v => do return (← v.walk).map Value.toToken

end Holding

namespace Module

/-- The attribute that says what a module exports. -/
def exportsName : String := "__schemas__"

/-- The attribute that says what a module is called. -/
def nameName : String := "__name__"

/-- An attribute of a module; one of null is not there. -/
def attribute? (m : Module) (name : String) : Option Holding :=
  match getKey? name m.attributes with
  | some (.value .null) => none
  | some h => some h
  | none => if name = nameName then some (.value (.text m.name)) else none

/-- **The types that are selected in a module**: the one of a name, or else what the
module exports. -/
def select (m : Module) (p : Program) (name : Option String) : Except Stop (List Token) :=
  match name with
  | some name =>
    match (m.attribute? name).bind Holding.token? with
    | some t => .ok [t]
    | none => .error (.load (.missingName m.name name))
  | none =>
    match m.attribute? exportsName with
    | some h => (h.tokens p).mapError .fault
    | none => .error (.load .noExports)

end Module

namespace Run

/-- What a pure computation gives. -/
def lift {α : Type} : Except Stop α → Run α
  | .ok a => return a
  | .error e => throw e

/-- Publish some types, noting the schema of each under the name of its type. -/
def publish (c : Compiler) (inlined : Bool) : List Token → Rendered → Run Rendered
  | [], noted => return noted
  | t :: ts, noted => do
    let node ← (c.schemaFor t inlined).adaptExcept Stop.fault
    let p := c.environment.program
    let name : Wording := (p.bareName? t).getD (p.plainText t)
    let schema ← lift ((c.shown (c.render node)).mapError .fault)
    publish c inlined ts (setKey name schema noted)

/-- Publish what some targets select. -/
def publishAll (w : Surroundings) (c : Compiler) (inlined : Bool) :
    List String → Rendered → Run Rendered
  | [], noted => return noted
  | target :: targets, noted => do
    let s := Selector.ofText target
    let m ← lift (w.load s.source)
    let ts ← lift (m.select w.program s.name)
    publishAll w c inlined targets (← publish c inlined ts noted)

end Run

namespace Surroundings

/-- The project file of the working directory. -/
def projectFile (w : Surroundings) : ProjectFile :=
  match w.at? (w.workingDirectory ++ ["pyproject.toml"]) with
  | some (.file (.written content _)) => .bytes content
  | some _ => .unreadable
  | none => .absent

/-- The settings in the surroundings, and whether the project file had to be ignored. -/
def settings (w : Surroundings) : Except Fault (Settings × Bool) :=
  Settings.resolve true w.projectFile w.environment []

/-- The compiler that the settings of the surroundings describe. -/
def compiler (w : Surroundings) : Except Fault Compiler := do
  let (settings, _) ← w.settings
  Compiler.ofSettings w.program [] settings

/-- What an invocation logs.  Steps are logged if they are asked for twice. -/
def log (w : Surroundings) (i : Invocation) : Log where
  warning := w.settings.toOption.any (·.2)
  steps := decide (2 ≤ i.verbosity)

/-- What an invocation prints. -/
def result (w : Surroundings) (i : Invocation) : Except Stop Value := do
  let c ← w.compiler.mapError .fault
  match Run.publishAll w c i.inlined i.targets [] {} with
  | .ok noted s =>
    if i.inlined then return noted.toValue
    else (c.shown (c.document (.text i.title) (.text i.version) s)).mapError .fault
  | .error e _ => throw e

end Surroundings

namespace Ending

/-- Report something as JSON. -/
def ofReport (log : Log) (report : Value) (exitCode : Int) : Ending :=
  match Json.document (.ofFields [("ok", .bool false), ("error", report)]) with
  | .ok text => .reported log (text ++ "\n") exitCode
  | .error f => .failed f

/-- The exit code of a run whose types could not be loaded. -/
def loadingExitCode : Int := 20

/-- Report a failure to load. -/
def ofLoadFailure (log : Log) (l : LoadFailure) : Ending :=
  ofReport log (.ofFields
    [("message", .text ("Failed to load types: " ++ l.message)), ("code", .text "E2002"),
     ("category", .text Category.input.word)]) loadingExitCode

/-- How a run ends that was stopped.  Nesting that was cut off counts as a failure to
load. -/
def ofStop (log : Log) : Stop → Ending
  | .load l => ofLoadFailure log l
  | .fault .endlessNesting => ofLoadFailure log (.other Fault.endlessNesting.message)
  | .fault f =>
    match f.report? with
    | some r => ofReport log r.render r.exitCode
    | none => .failed f

/-- How a run ends with something to print. -/
def ofResult (v : Value) : Ending :=
  match Json.document v with
  | .ok text => .printed (text ++ "\n")
  | .error f => .failed f

end Ending

/-- **Run a command line.** -/
def Surroundings.run (w : Surroundings) (words : List String) : Ending :=
  match Command.ofWords words with
  | .help => .helped
  | .misuse => .refused
  | .build i =>
    match w.result i with
    | .ok v => .ofResult v
    | .error e => .ofStop (w.log i) e

end Schemata
