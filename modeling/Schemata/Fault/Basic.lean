import Schemata.Text.Utf8
import Schemata.Value.Carried

/-!
# What can go wrong

One type for every cause of failure, each constructor holding what a message
about it needs to say.  The first group are the faults of declarations, which are
reported with a code and a suggestion (`Fault.report?`); the second group are the
faults of values and of the surroundings, which are reported by their message
alone.
-/

namespace Schemata

/-- Which rule is broken by something that is given. -/
inductive Misfit where
  /-- It is of the wrong kind for what is done with it. -/
  | kind
  /-- It is of the right kind but not among the values allowed. -/
  | range
  /-- It has no result in decimal arithmetic. -/
  | arithmetic
  /-- It is too large. -/
  | magnitude
  /-- It is not written as it has to be. -/
  | form
  /-- It is looked for where it is not. -/
  | absence
  /-- It is a name that stands for nothing known. -/
  | lookup
  /-- It is a key under which nothing is kept. -/
  | key
  /-- It is a name that cannot be used. -/
  | name
  /-- It gives up by itself. -/
  | failure
  deriving DecidableEq, Repr, Inhabited

/-- A cause of failure. -/
inductive Fault where
  /-- A schema was asked for by a name that nothing is stored under. -/
  | missingSchema (name : String) (requester : Option String)
  /-- A type published as an array also declares what only an object can have. -/
  | inheritanceConflict (type : String) (catchAll : List String)
  /-- Names are required that no property of the type or its bases has. -/
  | unknownRequired (type : String) (missing : List Wording)
  /-- Two types claim one name. -/
  | duplicateName (name first second : String)
  /-- The type graph nests deeper than allowed. -/
  | tooDeep (subject : String) (limit : Int)
  /-- The configured release of the document format is not supported. -/
  | unsupportedRelease (shown : String)
  /-- The configured depth is not a positive integer. -/
  | invalidDepth (shown : String)
  /-- An annotation mentions a name that nothing declares. -/
  | unresolvedName (type : String) (name : String)
  /-- A signaling not-a-number was compared. -/
  | signalingComparison
  /-- A signaling not-a-number was used as a key. -/
  | signalingKey
  /-- A value of this kind cannot be a key. -/
  | unhashable (kind : String)
  /-- An infinity has no integer part; `true` for a double, `false` for a decimal. -/
  | infiniteInteger (binary : Bool)
  /-- Not-a-number has no integer part. -/
  | undefinedInteger (binary : Bool)
  /-- A text is not the numeral of an integer in a base; the text is held as it is
  shown. -/
  | notInteger (base : Int) (shown : String)
  /-- A value of this kind has no integer part. -/
  | notNumeric (kind : String)
  /-- Bytes inside a value are not UTF-8. -/
  | undecodable (failure : Text.Utf8Failure)
  /-- A file is not UTF-8. -/
  | undecodableFile (failure : Text.Utf8Failure)
  /-- A mapping key of this kind has no text. -/
  | invalidKey (kind : String)
  /-- A document cannot have a key of this kind. -/
  | unwritableKey (kind : String)
  /-- A value of this kind has no JSON form. -/
  | notJson (kind : String)
  /-- A value of this kind is no mapping. -/
  | notMapping (kind : String)
  /-- A value of this kind cannot be walked through. -/
  | notIterable (kind : String)
  /-- No kind of leaf value has this name; held as it is shown. -/
  | unknownKind (shown : String)
  /-- A name that nothing declares. -/
  | undefinedName (name : String)
  /-- Something given does not fit; the message says what is wrong with it. -/
  | unfit (misfit : Misfit) (message : String)
  /-- A path that is too long, or goes through a name that is. -/
  | overlongPath (path : String)
  /-- A module leaves the program with an exit code. -/
  | exit (code : Int)
  /-- Nesting without end was cut off. -/
  | endlessNesting
  /-- The host gave up with a message. -/
  | aborted (message : String)
  deriving Repr

end Schemata
