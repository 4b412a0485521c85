import Schemata.Value.Literal

/-!
# Reports

How a fault is told.  Every fault has a message.  The faults of declarations have
a whole report beside it: a code, a category, the type or property the fault is
about, what to do about it, and details for a program to read.

The category decides the exit code of a run that ends with the report, unless the
report names one of its own.  A report about a declaration always lists its
subject among the details.
-/

namespace Schemata

/-- Who a fault is to be blamed on. -/
inductive Category where
  | input
  | configuration
  | internal
  deriving DecidableEq, Repr, Inhabited

namespace Category

/-- The word for a category. -/
def word : Category → String
  | .input => "input"
  | .configuration => "configuration"
  | .internal => "internal"

/-- All categories. -/
def all : List Category := [.input, .configuration, .internal]

/-- The category a word stands for. -/
def ofWord? (s : String) : Option Category :=
  all.find? fun c => c.word == s

/-- The exit code of a run that ends with a fault of this category. -/
def exitCode : Category → Int
  | .input => 2
  | .configuration => 10
  | .internal => 70

end Category

/-- What to do about a fault. -/
structure Suggestion where
  action : String
  fix : String
  sample : Option String := none
  deriving DecidableEq, Repr, Inhabited

/-- A suggestion as a value. -/
def Suggestion.render (s : Suggestion) : Value :=
  .ofFields [("action", .text s.action), ("fix", .text s.fix), ("example", .ofText? s.sample)]

/-- What is told about a fault of a declaration. -/
structure Report where
  message : String
  code : String
  category : Category
  suggestion : Option Suggestion := none
  details : List (String × Value) := []
  exitCode : Int
  subject : Option String := none
  deriving Repr, Inhabited

namespace Report

/-- A report with the exit code of its category unless it has one of its own. -/
def general (message code : String) (category : Category) (suggestion : Option Suggestion)
    (details : List (String × Value)) (exitCode : Option Int) : Report where
  message := message
  code := code
  category := category
  suggestion := suggestion
  details := details
  exitCode := exitCode.getD category.exitCode

/-- A report about a declaration that cannot become a consistent schema.  The
subject is among the details, unless they already give one. -/
def configuration (message code : String) (subject : Option String)
    (suggestion : Option Suggestion) (details : List (String × Value)) : Report :=
  let details := match subject, getKey? "subject" details with
    | some s, none => details ++ [("subject", .text s)]
    | _, _ => details
  { general message code .configuration suggestion details none with subject := subject }

/-- A report about a declaration that cannot be read. -/
def unreadable (message code : String) (suggestion : Option Suggestion)
    (details : List (String × Value)) : Report :=
  general message code .input suggestion details none

/-- A report as a value. -/
def render (r : Report) : Value :=
  .ofFields
    [("message", .text r.message), ("code", .text r.code), ("category", .text r.category.word),
     ("suggestion", .ofOption (r.suggestion.map Suggestion.render)),
     ("details", .ofFields r.details)]

/-- A type published as an array declares what only an object can have. -/
def inheritanceConflict (message subject : String) (details : List (String × Value)) : Report :=
  configuration message "E1002" (some subject) none details

end Report

namespace Fault

/-- A text between single quotation marks, as it is. -/
def marked (s : String) : String := "'" ++ s ++ "'"

/-- The name given to the type of document numbers a double or a decimal is. -/
def infinityName (binary : Bool) : String :=
  if binary then "float infinity" else "Infinity"

/-- The name given to not-a-number. -/
def nanName (binary : Bool) : String :=
  if binary then "float NaN" else "NaN"

/-- The place of a failing byte sequence in a file. -/
def placeText (f : Text.Utf8Failure) : String :=
  if f.width = 1 then
    "byte 0x" ++ String.ofList (Text.hexText 2 f.byte.toNat) ++ " in position " ++
      toString f.position
  else
    "bytes in position " ++ toString f.position ++ "-" ++ toString (f.position + f.width - 1)

/-- Why a byte sequence is not UTF-8. -/
def reasonText : Text.Utf8Error → String
  | .invalidStart => "invalid start byte"
  | .invalidContinuation => "invalid continuation byte"
  | .unexpectedEnd => "unexpected end of data"

/-- **The message of a fault.** -/
def message : Fault → String
  | .missingSchema name requester =>
    let place := match requester with
      | some r => if r.isEmpty then "" else " (requested by " ++ r ++ ")"
      | none => ""
    "No schema named " ++ marked name ++ " is registered" ++ place ++ "."
  | .inheritanceConflict type _ =>
    "Type " ++ marked type ++
      " is published as an array but also declares object-only constraints."
  | .unknownRequired type missing =>
    "Type " ++ marked type ++ " marks unknown properties as required: " ++
      ", ".intercalate (missing.map Carried.plain) ++ "."
  | .duplicateName name first second =>
    "Schema name " ++ marked name ++ " is claimed by both " ++ first ++ " and " ++ second ++ "."
  | .tooDeep subject limit =>
    "Type graph below " ++ marked subject ++ " exceeds the maximum depth of " ++
      toString limit ++ "."
  | .unsupportedRelease shown =>
    "openapi_version must be a 3.1.x release, got " ++ shown ++ "."
  | .invalidDepth shown => "max_depth must be a positive integer, got " ++ shown ++ "."
  | .unresolvedName type name =>
    "Cannot resolve the annotations of " ++ marked type ++ ": name " ++ marked name ++
      " is not defined"
  | .signalingComparison => "[<class 'decimal.InvalidOperation'>]"
  | .signalingKey => "Cannot hash a signaling NaN value."
  | .unhashable kind => "unhashable type: " ++ marked kind
  | .infiniteInteger binary => "cannot convert " ++ infinityName binary ++ " to integer"
  | .undefinedInteger binary => "cannot convert " ++ nanName binary ++ " to integer"
  | .notInteger base shown =>
    "invalid literal for int() with base " ++ toString base ++ ": " ++ shown
  | .notNumeric kind =>
    "int() argument must be a string, a bytes-like object or a real number, not " ++ marked kind
  | .undecodable f =>
    "'utf-8' codec can't decode byte 0x" ++ String.ofList (Text.hexText 2 f.byte.toNat) ++
      " in position " ++ toString f.position ++ ": invalid utf-8"
  | .undecodableFile f =>
    "'utf-8' codec can't decode " ++ placeText f ++ ": " ++ reasonText f.error
  | .invalidKey kind => "`" ++ kind ++ "` not valid as object key"
  | .unwritableKey kind =>
    "keys must be str, int, float, bool or None, not " ++ kind
  | .notJson kind => "Object of type " ++ kind ++ " is not JSON serializable"
  | .notMapping kind => marked kind ++ " object has no attribute 'get'"
  | .notIterable kind => marked kind ++ " object is not iterable"
  | .unknownKind shown => shown ++ " is not a valid PrimitiveKind"
  | .undefinedName name => "name " ++ marked name ++ " is not defined"
  | .unfit _ message => message
  | .overlongPath path => "[Errno 36] File name too long: " ++ Text.quoted path
  | .exit code => toString code
  | .endlessNesting => "maximum recursion depth exceeded"
  | .aborted message => message

/-- **The report on a fault of a declaration**; the other faults have none. -/
def report? (f : Fault) : Option Report :=
  let configuration (code : String) (subject : String) (suggestion : Option Suggestion)
      (details : List (String × Value)) : Option Report :=
    some (Report.configuration f.message code (some subject) suggestion details)
  match f with
  | .missingSchema name requester =>
    let subject := match requester with
      | some r => if r.isEmpty then name else r
      | none => name
    configuration "E1001" subject
      (some ⟨"register the schema",
        "Call ensure_schema() for the type behind " ++ marked name ++ " before referencing it.",
        none⟩)
      [("name", .text name)]
  | .inheritanceConflict type catchAll =>
    some (Report.inheritanceConflict f.message type [("catch_all", .ofTexts catchAll)])
  | .unknownRequired type missing =>
    configuration "E1003" type
      (some ⟨"fix the required list",
        "Only name properties declared on the type or one of its bases.", none⟩)
      [("missing", .list (missing.map Value.ofWording))]
  | .duplicateName name first second =>
    configuration "E1004" second
      (some ⟨"rename one schema", "Give one of the types an explicit schema name.",
        some "@schema_component(name=\"BillingAddress\")"⟩)
      [("name", .text name), ("types", .ofTexts [first, second])]
  | .tooDeep subject limit =>
    configuration "E1005" subject
      (some ⟨"raise max_depth",
        "Set [tool.schemacraft] max_depth or SCHEMACRAFT_MAX_DEPTH.", none⟩)
      [("max_depth", .int limit)]
  | .unsupportedRelease _ =>
    configuration "E1000" "openapi_version"
      (some ⟨"fix the configuration",
        "Set [tool.schemacraft] openapi_version or SCHEMACRAFT_OPENAPI_VERSION to 3.1.0.",
        none⟩)
      []
  | .invalidDepth _ =>
    configuration "E1000" "max_depth"
      (some ⟨"fix the configuration",
        "Set [tool.schemacraft] max_depth or SCHEMACRAFT_MAX_DEPTH to a positive integer.",
        none⟩)
      []
  | .unresolvedName type _ =>
    some (Report.unreadable f.message "E2001"
      (some ⟨"declare referenced types at module level",
        "Forward references are resolved against the defining module's globals.", none⟩)
      [("type", .text type)])
  | _ => none

end Fault

end Schemata
