import Schemata.CommandLine.Selector

/-!
# Invocations

What the words of a command line ask for.  There is one command, `build`, with
operands and options in any order.  A long option takes its value from behind an
equals sign or else from the next word, whatever that looks like; a word of a single
dash is an operand, and so is everything after a word of two dashes.

Where help is asked for, before the command or among its words, it is given, and nothing
else matters but that the words can be read.  Anything else --- no command or another
one, an unknown option, a value too few or too many, no operand at all --- is a misuse,
of which nothing more is told.
-/

namespace Schemata

/-- What to build, and how to print it. -/
structure Invocation where
  /-- The targets in the order given. -/
  targets : List String := []
  /-- Print the schemas of the targets instead of a document. -/
  inlined : Bool := false
  title : String := "schemacraft"
  version : String := "0.0.0"
  /-- How much more than usual is logged. -/
  verbosity : Nat := 0
  /-- Help is asked for instead. -/
  helped : Bool := false
  deriving DecidableEq, Repr, Inhabited

namespace Invocation

/-- The options that are raised by being named. -/
def raise? (i : Invocation) (name : String) : Option Invocation :=
  match name with
  | "--inline" => some { i with inlined := true }
  | "--verbose" => some { i with verbosity := i.verbosity + 1 }
  | "--help" => some { i with helped := true }
  | _ => none

/-- The options that take a value. -/
def assign? (i : Invocation) (name value : String) : Option Invocation :=
  match name with
  | "--title" => some { i with title := value }
  | "--version" => some { i with version := value }
  | _ => none

/-- Whether an option takes a value. -/
def takesValue (name : String) : Bool :=
  name == "--title" || name == "--version"

/-- Add operands. -/
def withTargets (i : Invocation) (ts : List String) : Invocation :=
  { i with targets := i.targets ++ ts }

/-- The name of a long option and the value behind an equals sign. -/
def splitValue (word : List Char) : String × Option String :=
  match word.dropWhile (· != '=') with
  | _ :: value => (String.ofList (word.takeWhile (· != '=')), some (String.ofList value))
  | [] => (String.ofList word, none)

/-- Take in the letters of a word of short options. -/
def letters? (i : Invocation) (word : List Char) : Option Invocation :=
  if word.all (· == 'v') then some { i with verbosity := i.verbosity + word.length } else none

/-- **Take in the words after the command.** -/
def words? : List String → Invocation → Option Invocation
  | [], i => some i
  | word :: rest, i =>
    match word.toList with
    | ['-', '-'] => some (i.withTargets rest)
    | '-' :: '-' :: cs =>
      match splitValue ('-' :: '-' :: cs) with
      | (name, some value) => do words? rest (← i.assign? name value)
      | (name, none) =>
        if takesValue name then
          match rest with
          | value :: rest => do words? rest (← i.assign? name value)
          | [] => none
        else do words? rest (← i.raise? name)
    | '-' :: c :: cs => do words? rest (← i.letters? (c :: cs))
    | _ => words? rest (i.withTargets [word])

end Invocation

/-- What the words of a command line ask for. -/
inductive Command where
  | help
  | build (i : Invocation)
  | misuse
  deriving DecidableEq, Repr, Inhabited

namespace Command

/-- What the words after the command ask for. -/
def ofOperands (words : List String) : Command :=
  match Invocation.words? words {} with
  | some i => if i.helped then .help else if i.targets.isEmpty then .misuse else .build i
  | none => .misuse

/-- Whether a word is an option. -/
def isOption (word : String) : Bool :=
  word.startsWith "-" && word != "-" && word != "--"

/-- Read the words from the command on; help may have been asked for before it. -/
def ofRest (helped : Bool) : List String → Command
  | "--help" :: words => ofRest true words
  | word :: words =>
    if helped then (if isOption word then .misuse else .help)
    else match word, words with
      | "build", words | "--", "build" :: words => ofOperands words
      | _, _ => .misuse
  | [] => if helped then .help else .misuse

/-- **Read the words of a command line.** -/
def ofWords (words : List String) : Command :=
  ofRest false words

end Command

end Schemata
