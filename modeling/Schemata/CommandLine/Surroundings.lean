import Schemata.CommandLine.Selector
import Schemata.Declared.Naming
import Schemata.Settings

/-!
# Where types come from

A run finds types in modules.  A module is known by its name, or it is what comes of
running a file; which of the two a source means is decided by whether there is
something under that path.  Everything that is declared belongs to every module, and
a module may have attributes of its own, one of which, `__schemas__`, says what it
exports.

Paths are read part by part: empty parts and single dots stand for nothing, two dots
lead back out of a directory that is there.  All places are known by where they are below
the root.  A path that is too long, or goes through a name that is, cannot even be looked
for.

`LoadFailure` are the ways in which a source gives no types.  A module that leaves the
program altogether is none of them.
-/

namespace Schemata

/-- How running a module may end before it is done. -/
inductive Raised where
  /-- With a failure of some kind, and a message. -/
  | failure (kind message : String)
  /-- By leaving the program. -/
  | exit (code : Int)
  deriving DecidableEq, Repr, Inhabited

/-- What an attribute of a module holds. -/
inductive Holding where
  | type (t : Token)
  /-- A list of types. -/
  | types (ts : List Token)
  | value (v : Value)
  deriving Repr, Inhabited

/-- What a file is. -/
inductive FileForm where
  /-- Running it gives what a module has. -/
  | reexport (module : String)
  | raising (r : Raised)
  /-- It has some content, and running it gives some attributes. -/
  | written (content : List UInt8) (attributes : List (String × Holding) := [])
  deriving Repr, Inhabited

/-- A module. -/
structure Module where
  name : String
  attributes : List (String × Holding) := []
  deriving Repr, Inhabited

/-- What surrounds a run. -/
structure Surroundings where
  program : Program := {}
  /-- Modules with everything that is declared. -/
  modules : List Module := []
  /-- Modules that the host provides. -/
  provided : List Module := []
  /-- Modules that do not get to their end when they are imported. -/
  failing : List (String × Raised) := []
  /-- Where relative paths start. -/
  workingDirectory : List String := []
  files : List (String × FileForm) := []
  directories : List String := []
  /-- The name given to what is run from a file. -/
  loadedName : String := "schemacraft_loader_"
  /-- The variables of the environment. -/
  environment : List (String × String) := []
  deriving Inhabited

/-- Why a source gives no types. -/
inductive LoadFailure where
  | notFile (path : String)
  /-- The file is not of a sort that can be run. -/
  | notRunnable (path : String)
  | failingFile (path kind message : String)
  | unknownModule (source : String)
  | failingModule (source kind message : String)
  /-- The name of a module is relative, but there is nothing to relate it to. -/
  | relativeModule (source : String)
  | missingName (module name : String)
  | noExports
  /-- The host gave up for another reason. -/
  | other (message : String)
  deriving DecidableEq, Repr

/-- What stops a run. -/
inductive Stop where
  | fault (f : Fault)
  | load (l : LoadFailure)
  deriving Repr

namespace LoadFailure

/-- An exception as it is shown. -/
def exceptionText (kind message : String) : String :=
  kind ++ "(" ++ Text.quoted message ++ ")"

/-- Why a relative name cannot be imported. -/
def relativeText (source : String) : String :=
  "the 'package' argument is required to perform a relative import for " ++ Text.quoted source

/-- The failure of an import. -/
def importText (source failure : String) : String :=
  "Importing module '" ++ source ++ "' failed: " ++ failure

/-- **The message of a failure.** -/
def message : LoadFailure → String
  | .notFile path => "Not a file: " ++ path
  | .notRunnable path => "Failed to create import spec for " ++ path ++ "."
  | .failingFile path kind m => "Executing " ++ path ++ " failed: " ++ exceptionText kind m
  | .unknownModule source => "Could not import module '" ++ source ++ "'."
  | .failingModule source kind m => importText source (exceptionText kind m)
  | .relativeModule source =>
    importText source (exceptionText "TypeError" (relativeText source))
  | .missingName module name => "Module '" ++ module ++ "' has no '" ++ name ++ "' attribute."
  | .noExports =>
    "Module does not name any types (expected `__schemas__` or an explicit `:<Type>` selector)."
  | .other m => m

end LoadFailure

/-! ## Paths -/

/-- Characters split at a mark. -/
def splitAll (mark : Char) : List Char → List (List Char)
  | [] => [[]]
  | c :: cs =>
    match splitAll mark cs with
    | [] => [[c]]
    | part :: parts => if c = mark then [] :: part :: parts else (c :: part) :: parts

/-- A path. -/
structure Path where
  /-- The marks in front of a path from the root: one or two. -/
  root : String
  parts : List String
  deriving DecidableEq, Repr, Inhabited

namespace Path

/-- The marks in front of a path; more than two count as one. -/
def rootOf (s : String) : String :=
  if s.startsWith "///" then "/" else if s.startsWith "//" then "//"
  else if s.startsWith "/" then "/" else ""

/-- Read a path. -/
def ofText (s : String) : Path where
  root := rootOf s
  parts := (splitAll '/' s.toList).filterMap fun part =>
    if part.isEmpty || part = ['.'] then none else some (String.ofList part)

/-- The text of a path. -/
def text (p : Path) : String :=
  if p.root.isEmpty && p.parts.isEmpty then "." else p.root ++ "/".intercalate p.parts

/-- How many bytes a path may have. -/
def longest : Nat := 4095

/-- How many bytes a part of a path may have. -/
def longestPart : Nat := 255

end Path

namespace Surroundings

/-- What is found at a place. -/
inductive Place where
  | directory
  | file (form : FileForm)
  deriving Inhabited

/-- Where a path starts. -/
def start (w : Surroundings) (p : Path) : List String :=
  if p.root.isEmpty then w.workingDirectory else []

/-- Where a path leads if there is nothing in its way. -/
def goal (w : Surroundings) (p : Path) : List String :=
  p.parts.foldl (fun here part => if part = ".." then here.dropLast else here ++ [part])
    (w.start p)

/-- The places of the files and directories that are known. -/
def places (w : Surroundings) : List (List String × Place) :=
  (w.files.map fun f => (w.goal (.ofText f.1), .file f.2)) ++
    w.directories.map fun d => (w.goal (.ofText d), .directory)

/-- What is at a place; one that others are inside of is a directory. -/
def at? (w : Surroundings) (place : List String) : Option Place :=
  match w.places.find? fun e => e.1 == place with
  | some e => some e.2
  | none =>
    if (w.workingDirectory :: w.places.map (·.1)).any place.isPrefixOf then some .directory
    else none

/-- What the parts of a path lead to from a place.  All but the last have to lead to
directories. -/
def follow (w : Surroundings) (path : String) (here : List String) :
    List String → Except Fault (Option Place)
  | [] => .ok (w.at? here)
  | part :: parts =>
    match w.at? here with
    | some .directory =>
      if part = ".." then w.follow path here.dropLast parts
      else if part.utf8ByteSize ≤ Path.longestPart then w.follow path (here ++ [part]) parts
      else .error (.overlongPath path)
    | _ => .ok none

/-- **What is at a path.** -/
def find? (w : Surroundings) (p : Path) : Except Fault (Option Place) :=
  if p.text.utf8ByteSize ≤ Path.longest then w.follow p.text (w.start p) p.parts
  else .error (.overlongPath p.text)

/-! ## Modules -/

/-- Whether something is declared in a module. -/
def declaresIn (w : Surroundings) (name : String) : Bool :=
  w.program.classes.any (·.module == name) || w.program.brands.any (·.module == name)

/-- The attributes of a module: its own over everything declared. -/
def attributesOf (w : Surroundings) (own : List (String × Holding)) : List (String × Holding) :=
  setKeys own (w.program.names.map fun e => (e.1, .type e.2))

/-- A module that is known by its name: one that is described, or one that something is
declared in, or one that is provided. -/
def module? (w : Surroundings) (name : String) : Option Module :=
  match w.modules.find? fun m => m.name == name with
  | some m => some ⟨name, w.attributesOf m.attributes⟩
  | none =>
    if w.declaresIn name then some ⟨name, w.attributesOf []⟩
    else w.provided.find? fun m => m.name == name

/-- The names of a module and of the packages around it, outermost first. -/
def packageNames (source : String) : List String :=
  let parts := splitAll '.' source.toList
  (List.range parts.length).map fun n =>
    String.ofList (['.'].intercalate (parts.take (n + 1)))

/-- The kind of the failure to find a module. -/
def notFoundKind : String := "ModuleNotFoundError"

/-- The failure to find a module, or a package around it. -/
def notFound (w : Surroundings) (source : String) : Raised :=
  let missing := (packageNames source).find? fun name => (w.module? name).isNone
  .failure notFoundKind ("No module named " ++ Text.quoted (missing.getD source))

/-- What importing a module gives.  A package around it that fails is the first to be told
about. -/
def imported (w : Surroundings) (source : String) : Except Raised Module :=
  match w.module? source with
  | some m => .ok m
  | none =>
    match (packageNames source).findSome? fun name => getKey? name w.failing with
    | some r => .error r
    | none => .error (w.notFound source)

/-- Import a module. -/
def importModule (w : Surroundings) (source : String) : Except Stop Module :=
  if source.startsWith "." then .error (.load (.relativeModule source))
  else match w.imported source with
    | .ok m => .ok m
    | .error (.failure kind message) =>
      if kind = notFoundKind then .error (.load (.unknownModule source))
      else .error (.load (.failingModule source kind message))
    | .error (.exit code) => .error (.fault (.exit code))

/-- What running a file gives. -/
def executed (w : Surroundings) : FileForm → Except Raised (List (String × Holding))
  | .reexport name => do return (← w.imported name).attributes
  | .raising r => .error r
  | .written _ attributes => .ok attributes

/-- The ends of the names of files that can be run. -/
def runnableEnds : List String := [".py", ".pyc", ".so"]

/-- Run a file. -/
def runFile (w : Surroundings) (path : String) (form : FileForm) : Except Stop Module :=
  if runnableEnds.all fun suffix => !path.endsWith suffix then .error (.load (.notRunnable path))
  else match w.executed form with
    | .ok attributes => .ok ⟨w.loadedName, attributes⟩
    | .error (.failure kind message) => .error (.load (.failingFile path kind message))
    | .error (.exit code) => .error (.fault (.exit code))

/-- **Load a source**: a file if there is something at that path, else a module. -/
def load (w : Surroundings) (source : String) : Except Stop Module := do
  let path := Path.ofText source
  match ← (w.find? path).mapError .fault with
  | some (.file form) => w.runFile path.text form
  | some .directory => throw (.load (.notFile path.text))
  | none => w.importModule source

end Surroundings

end Schemata
