import Schemata.Declared.Conversion

/-!
# Signatures

What a function takes: parameters that are given by place or by name, and parameters that
are given by name only.  `Signature.bind` gives every argument its parameter, and says what
is wrong where that cannot be done: a name that is no parameter, a parameter given twice,
more arguments than there are places, or a required parameter that is left out.  The four
are looked for in this order.
-/

namespace Schemata

/-- A parameter of a function. -/
structure Parameter where
  name : String
  required : Bool := true
  deriving Repr, Inhabited

/-- What a function takes. -/
structure Signature where
  /-- The name by which messages call it. -/
  function : String
  /-- Given by place or by name. -/
  placed : List Parameter
  /-- Given by name only. -/
  named : List Parameter := []
  /-- It is called on an object, which counts as an argument. -/
  onObject : Bool := false
  deriving Repr, Inhabited

namespace Signature

/-- Refuse a call. -/
def refuse {α : Type} (s : Signature) (reason : String) : Except Fault α :=
  wrongKind (s.function ++ "() " ++ reason)

/-- Names in quotation marks, the last one after an `and`. -/
def enumerated (names : List String) : String :=
  match names.map fun n => "'" ++ n ++ "'" with
  | [a] => a
  | [a, b] => a ++ " and " ++ b
  | quoted => commaList (quoted.dropLast ++ (quoted.getLast?.map ("and " ++ ·)).toList)

/-- The parameters that arguments by name are for: every name is one, and none is given
by place already. -/
def checkNames (s : Signature) (placed : List String) : List (String × Value) → Except Fault Unit
  | [] => .ok ()
  | (n, _) :: r =>
    if !(s.placed ++ s.named).any (·.name == n) then
      s.refuse ("got an unexpected keyword argument '" ++ n ++ "'")
    else if placed.contains n then s.refuse ("got multiple values for argument '" ++ n ++ "'")
    else s.checkNames placed r

/-- How many arguments may be given by place. -/
def placesText (s : Signature) : String :=
  let own := if s.onObject then 1 else 0
  let most := s.placed.length + own
  let optional := (s.placed.filter fun p => !p.required).length
  if optional = 0 then countedText most "positional argument"
  else "from " ++ toString (most - optional) ++ " to " ++ toString most ++ " positional arguments"

/-- No more arguments are given by place than there are places. -/
def checkPlaces (s : Signature) (args : Nat) (named : List (String × Value)) :
    Except Fault Unit :=
  if args ≤ s.placed.length then .ok ()
  else
    let given := args + if s.onObject then 1 else 0
    let beside := (named.filter fun e => s.named.any (·.name == e.1)).length
    let count := if beside = 0 then toString given
      else countedText given "positional argument" ++ " (and " ++
        countedText beside "keyword-only argument" ++ ")"
    s.refuse ("takes " ++ s.placesText ++ " but " ++ count ++
      (if given = 1 ∧ beside = 0 then " was" else " were") ++ " given")

/-- Every required parameter is given. -/
def checkRequired (s : Signature) (sort : String) (parameters : List Parameter)
    (given : List (String × Value)) : Except Fault Unit :=
  let missing := parameters.filter fun p => p.required && (getKey? p.name given).isNone
  if missing.isEmpty then .ok ()
  else s.refuse ("missing " ++ toString missing.length ++ " required " ++ sort ++ " argument" ++
    (if missing.length = 1 then "" else "s") ++ ": " ++ enumerated (missing.map Parameter.name))

/-- **The arguments under the names of their parameters.** -/
def bind (s : Signature) (args : List Value) (named : List (String × Value)) :
    Except Fault (List (String × Value)) := do
  let placed := (s.placed.map Parameter.name).zip args
  s.checkNames (placed.map (·.1)) named
  s.checkPlaces args.length named
  let given := placed ++ named
  s.checkRequired "positional" s.placed given
  s.checkRequired "keyword-only" s.named given
  return given

/-- **The arguments in the order of the parameters**, null for one that is not given. -/
def arguments (s : Signature) (args : List Value) (named : List (String × Value)) :
    Except Fault (List Value) := do
  let given ← s.bind args named
  return (s.placed ++ s.named).map fun p => (getKey? p.name given).getD .null

end Signature

end Schemata
