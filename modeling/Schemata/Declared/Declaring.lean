import Schemata.Declared.Evaluation

/-!
# Declaring

A class is declared under a name once everything it is derived from has been looked at: what
it inherits is settled, its parameters are collected, and a class that only states what
others have to offer is derived from nothing else.  A name declared again stands for the
later declaration.
-/

namespace Schemata

namespace Program

variable (p : Program)

/-! ## Parameters of classes -/

mutual

/-- The variables in a type, in the order met. -/
def parametersIn : Token → List Token
  | .typeVar n => [.typeVar n]
  | .generic _ args => parametersInAll args
  | .union _ ms => parametersInAll ms
  | .annotated t _ => parametersIn t
  | .classVar t => parametersIn t
  | _ => []
termination_by structural t => t

/-- The variables in some types. -/
def parametersInAll : List Token → List Token
  | [] => []
  | t :: ts => parametersIn t ++ parametersInAll ts
termination_by structural ts => ts

end

/-- The arguments of a root among bases. -/
def rootArguments? : Token → Option (List Token)
  | .generic (.builtin .generic) args => some args
  | _ => none

/-- **The parameters of a class** with these bases: the variables of the root that lists
them, or else the variables of all bases. -/
def parametersOf (bases : List Token) : Except Fault (List Token) :=
  let met := Token.distinct (parametersInAll bases)
  if bases.any (Token.same (.builtin .generic)) then wrongKind "Cannot inherit from plain Generic"
  else match bases.filterMap rootArguments? with
    | [] => .ok met
    | [listed] =>
      let text (ts : List Token) : String := commaList (ts.map p.spell)
      match met.filter fun t => !listed.any t.same with
      | [] => .ok listed
      | missing =>
        wrongKind ("Some type variables (" ++ text missing ++ ") are not listed in Generic[" ++
          text listed ++ "]")
    | _ => wrongKind "Cannot inherit from Generic[...] multiple times."

/-! ## Declaring -/

/-- Fails when a class that states what others have to offer is derived from a class that
does more than that. -/
def checkProtocol (c : Class) : Except Fault Unit :=
  let isProtocol (c : Class) : Bool := c.bases.any (Token.same (.builtin .protocol))
  let fits (t : Token) : Bool := match t with
    | .builtin b =>
      b = .object || b = .generic || b = .protocol || b = .iterable || b = .collection
    | t => ((p.class? t).map isProtocol).getD false
  if !isProtocol c then .ok ()
  else match c.bases.find? fun t => !fits t with
    | none => .ok ()
    | some t =>
      wrongKind ("Protocols can only inherit from other protocols, got " ++ p.spell t)

/-- **Declare a class** under a name, given the types that it is derived from as they are
written. -/
def declareClass (name : String) (c : Class) (written : List Token) : Except Fault Program := do
  let c ← p.settle c
  let parameters ← if c.ancestry.any (Token.same (.builtin .generic)) then p.parametersOf written
    else pure []
  p.checkProtocol c
  return { p with
    classes := p.classes ++ [{ c with parameters := parameters }]
    names := setKey name (.declared p.classes.length) p.names }

/-- Declare a brand under a name. -/
def declareBrand (name : String) (b : Brand) : Program :=
  { p with
    brands := p.brands ++ [b]
    names := setKey name (.brand p.brands.length) p.names }

end Program

end Schemata
