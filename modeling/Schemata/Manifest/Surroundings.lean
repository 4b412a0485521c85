import Schemata.Manifest.Declarations
import Schemata.CommandLine.Surroundings

/-!
# The surroundings of a run in JSON

Surroundings are written as an object: what is declared, the modules with their
attributes and exports, the modules that fail, the files and directories, and the
variables of the environment.  Beside these modules there are those that every host
provides, and the one that declarations are in unless they say otherwise.
-/

namespace Schemata.Intake

/-- A pair of texts. -/
def textPair? (v : Value) : Option (String × String) :=
  match v with
  | .list [.text a, .text b] => some (a, b)
  | _ => none

/-- The pairs of texts at a key. -/
def textPairs (v : Value) (key : String) : List (String × String) :=
  (v.items key).filterMap textPair?

/-- The failure with a message that modules and files are written to end with. -/
def raised (message : String) : Raised := .failure "ValueError" message

/-- A file with its name. -/
def file? (v : Value) : Option (String × FileForm) :=
  match v with
  | .list [.text name, f] =>
    match f.words? "module", f.words? "raises", f.words? "text" with
    | some m, _, _ => some (name, .reexport m)
    | _, some message, _ => some (name, .raising (raised message))
    | _, _, some s => some (name, .written s.toUTF8.toList)
    | _, _, _ => none
  | _ => none

/-- Read a module. -/
def moduleOf (v : Value) : Reader Module := do
  let attributes := (← pairsAt v "attrs").map fun e => (e.1, Holding.value e.2)
  let exported ← match v.field? "schemas" with
    | some (.list ts) => do pure [("__schemas__", Holding.types (← ts.mapM token))]
    | _ => pure []
  return { name := ← require "module" (v.words? "name")
           attributes := setKeys attributes exported }

/-- The module that declarations are in. -/
def mainModule : Module := ⟨"m", []⟩

/-- The directory that a run is made in. -/
def workingDirectory : List String := ["tmp", "run"]

/-- Modules of the host that have none of the builtin types. -/
def bareModules : List String :=
  ["abc", "ast", "copy", "csv", "dataclasses", "functools", "importlib", "inspect", "io",
   "itertools", "json", "logging", "math", "numbers", "operator", "os", "pathlib", "random", "re",
   "string", "subprocess", "sys", "tempfile", "time", "types", "warnings", "annotated_types",
   "click", "typer"]

/-- The modules that builtin types can be had from, each with some of them. -/
def homes : List (String × List Builtin) :=
  let from_ (name home : String) : String × List Builtin :=
    (name, Builtin.all.filter fun b => b.facts.home == home)
  ("schemacraft", Builtin.all.filter Builtin.isBrand) :: ("pydantic", [.model]) ::
    from_ "builtins" "" ::
      (Builtin.all.filterMap fun b =>
        if b.facts.home.isEmpty then none else some (from_ b.facts.home b.facts.home))

/-- **The modules that every host provides.**  None of them exports anything. -/
def provided : List Module :=
  (homes.map fun e => ⟨e.1, e.2.map fun b => (b.facts.name, .type (.builtin b))⟩) ++
    bareModules.map fun name => ⟨name, []⟩

/-- **Read the surroundings of a run.** -/
def surroundings (v : Value) : Reader Surroundings := do
  declarations (v.items "decls")
  let modules ← (v.items "modules").mapM moduleOf
  return {
    program := (← get).program
    modules := modules ++ [mainModule]
    provided := provided
    failing := (textPairs v "raising_modules").map fun e => (e.1, raised e.2)
    workingDirectory := workingDirectory
    files := (v.items "files").filterMap file?
    directories := (v.items "dirs").filterMap Value.text?
    loadedName := "schemacraft_loader_X"
    environment := textPairs v "environ" }

end Schemata.Intake
