import Schemata.Declared.Inheritance
import Schemata.Declared.Naming
import Schemata.Declared.TypeText

/-!
# Evaluating types

`Program.eval` turns a type as it is written into a token, given what every name stands
for.  Putting types together follows rules, and each rule has its refusals.

* **Arguments.**  Where a type is wanted, null stands for its type and a text for a type
  that is looked up later (`Program.asArgument`).  A root that has to be applied, a variable
  of a class and a tuple of values are refused.
* **Unions.**  A union is flat and has no repeats.  Written with its name, every member
  must be an argument and be able to serve as a key.  Written with bars, classes and applied
  builtin types join as they are; any other type makes a union of the first notation, and
  what is no type at all is refused.
* **Literal types** list every value once for its kind, unless one of the values cannot be
  a key; then all of them stay.
* **Applied types** have as many arguments as parameters.  An enumeration takes the name of a
  member instead and stands for that member.

The types of fields go one step further: what is looked up later is looked up now
(`Program.resolve`), in the scope of the class.
-/

namespace Schemata

namespace Token

/-- Whether a bar joins this type as it is. -/
def joinsByBar : Token → Bool
  | .none => true
  | .builtin b => b.isClass
  | .declared _ => true
  | .generic (.builtin b) _ => b.aliased?.isNone && b != .generic && b != .protocol
  | .union piped _ => piped
  | _ => false

/-- Whether a bar beside this type makes a union of the notation with a name. -/
def joinsByName : Token → Bool
  | .builtin b => !b.isClass
  | .brand _ => true
  | .generic (.builtin b) _ => b.aliased?.isSome || b == .generic || b == .protocol
  | .generic (.declared _) _ => true
  | .union piped _ => !piped
  | .literal _ | .annotated .. | .classVar _ | .typeVar _ | .forward _ => true
  | _ => false

/-- The union of some members, flat and without repeats. -/
def joined (piped : Bool) (ts : List Token) : Token :=
  match distinct (ts.flatMap members) with
  | [t] => t
  | ts => .union piped ts

/-- A type with metadata; metadata on a type that already has some is added to it. -/
def annotatedWith (t : Token) (ms : List Metadata) : Token :=
  match t with
  | .annotated a ns => .annotated a (ns ++ ms)
  | a => .annotated a ms

/-- A type that a text writes out, to be looked up later. -/
def forwardTo (s : String) : Except Fault Token :=
  if (TypeExpr.ofText? s).isSome then .ok (.forward s)
  else .error (.unfit .form ("Forward reference must be an expression -- got " ++ Text.quoted s))

/-- Null as its type and a text as a type to be looked up. -/
def converted : Token → Except Fault Token
  | .none => .ok (.builtin .nothing)
  | .value v =>
    match v.text? with
    | some s => forwardTo s
    | _ => .ok (.value v)
  | t => .ok t

end Token

namespace Program

variable (p : Program)

/-! ## Arguments -/

/-- Something is no argument. -/
def invalidArgument {α : Type} (shown : String) : Except Fault α :=
  wrongKind (shown ++ " is not valid as type argument")

/-- The longest spelling of a refused argument that a message gives. -/
def longestShown : Nat := 100

/-- **A token as an argument**, given how messages start that refuse a tuple, and whether
what is of the class alone, a variable of it, may stand here. -/
def asArgument (message : String) (ofClass : Bool) (t : Token) : Except Fault Token := do
  let t ← t.converted
  match t with
  | .generic (.builtin b) _ =>
    if b = .generic ∨ b = .protocol then invalidArgument (p.spell t) else return t
  | .classVar _ => if ofClass then return t else invalidArgument (p.spell t)
  | .builtin b =>
    if b = .generic ∨ b = .protocol ∨ (b = .classVariable ∧ !ofClass) then
      invalidArgument ("Plain " ++ p.spell t)
    else return t
  | .value (.tuple xs) =>
    let shown := (Value.tuple xs).spelled
    wrongKind (message ++ " Got " ++ String.ofList (shown.toList.take longestShown) ++ ".")
  | t => return t

/-! ## Unions -/

/-- A union written with its name. -/
def unionOf (ts : List Token) : Except Fault Token := do
  if ts.isEmpty then wrongKind "Cannot take a Union of no types."
  let ts ← ts.mapM (p.asArgument "Union[arg, ...]: each arg must be a type." false)
  Token.checkKeys (ts.flatMap Token.members)
  return Token.joined false ts

/-- A type or null. -/
def optionalOf (t : Token) : Except Fault Token := do
  p.unionOf [← p.asArgument "typing.Optional requires a single type." false t, .none]

/-- What a builtin class is an instance of. -/
def classKindName (b : Builtin) : String :=
  match b with
  | .enumeration => "EnumType"
  | .model => "ModelMetaclass"
  | .protocol => "_ProtocolMeta"
  | .anything => "_AnyMeta"
  | .sequence | .mutableSequence | .iterable | .collection | .abstractSet | .mutableSet
  | .mapping | .mutableMapping => "ABCMeta"
  | _ => "type"

/-- What kind of thing a token is, where a bar cannot join it. -/
def sortName (t : Token) : String :=
  match t with
  | .none => "NoneType"
  | .builtin b => classKindName b
  | .declared _ =>
    let kinds := (p.lineage t).filterMap fun t => match t with
      | .builtin b => some (classKindName b)
      | _ => none
    (kinds.find? (· != "type")).getD "type"
  | .generic .. => "types.GenericAlias"
  | .union .. => "types.UnionType"
  | .brand _ => "NewType"
  | .crafted _ => "TypeDescriptor"
  | .initVar _ => "InitVar"
  | .ellipsis => "ellipsis"
  | .value v => v.kindPath
  | _ => "type"

/-- Two types with a bar between them. -/
def pipe (a b : Token) : Except Fault Token :=
  let refused : Except Fault Token :=
    wrongKind ("unsupported operand type(s) for |: '" ++ p.sortName a ++ "' and '" ++
      p.sortName b ++ "'")
  if a matches .none && b matches .none then refused
  else if a.joinsByBar && b.joinsByBar then .ok (.joined true [a, b])
  else if a.joinsByName || b.joinsByName then p.unionOf [a, b]
  else refused

/-- Types with bars between them. -/
def pipeOf : List Token → Except Fault Token
  | [] => .ok .none
  | t :: ts => ts.foldlM p.pipe t

/-! ## Literal types, metadata and variables -/

/-- A literal type. -/
def literalOf (vs : List Value) : Token :=
  match Value.checkKeys vs with
  | .ok () => .literal (Value.distinctKinds vs)
  | .error _ => .literal vs

/-- Something has no part of a name. -/
def missingPart {α : Type} (t : Token) (name : String) : Except Fault α :=
  let owner := match t with
    | .builtin _ | .declared _ => "type object '" ++ p.shortName t ++ "'"
    | t => "'" ++ p.sortName t ++ "' object"
  .error (.unfit .absence (owner ++ " has no attribute '" ++ name ++ "'"))

/-- A type with metadata.  What comes from no module carries none. -/
def annotatedOf (t : Token) (ms : List Metadata) : Except Fault Token := do
  if ms.isEmpty then
    wrongKind ("Annotated[...] should be used with at least two arguments " ++
      "(a type and an annotation).")
  let t ← p.asArgument "Annotated[t, ...]: t must be a type." true t
  match t with
  | .ellipsis => p.missingPart t "__module__"
  | .value v => if v.isPlain then p.missingPart t "__module__" else return t.annotatedWith ms
  | t => return t.annotatedWith ms

/-- A variable of a class. -/
def classVarOf (t : Token) : Except Fault Token := do
  return .classVar (← p.asArgument "typing.ClassVar accepts only single type." false t)

/-! ## Applied types -/

/-- As many arguments as parameters. -/
def checkCount (shown : String) (parameters given : Nat) : Except Fault Unit :=
  if parameters = 0 then wrongKind (shown ++ " is not a generic class")
  else if given = parameters then .ok ()
  else
    wrongKind ("Too " ++ (if parameters < given then "many" else "few") ++ " arguments for " ++
      shown ++ "; actual " ++ toString given ++ ", expected " ++ toString parameters)

/-- An alias of a tuple applied to the types of its items, or to one with dots after it. -/
def applyTuple (args : List Token) : Except Fault (List Token) :=
  match args.reverse with
  | .ellipsis :: t :: ts => do
    let items ← (t :: ts).reverse.mapM (p.asArgument "Tuple[t, ...]: t must be a type." false)
    return items ++ [.ellipsis]
  | _ => args.mapM (p.asArgument "Tuple[t0, t1, ...]: each t must be a type." false)

/-- A root applied to variables. -/
def applyRoot (b : Builtin) (args : List Token) : Except Fault (List Token) := do
  let name := b.facts.name
  if args.isEmpty then wrongKind ("Parameter list to " ++ name ++ "[...] cannot be empty")
  let args ← args.mapM Token.converted
  if !args.all fun t => t matches .typeVar _ then
    wrongKind ("Parameters to " ++ name ++ "[...] must all be type variables " ++
      "or parameter specification variables.")
  if (Token.distinct args).length ≠ args.length then
    wrongKind ("Parameters to " ++ name ++ "[...] must all be unique")
  return args

/-- Whether a builtin class can be applied to arguments of any kind and number. -/
def appliesFreely (b : Builtin) : Bool :=
  b.facts.container.isSome || b = .deque || b = .orderedDict

/-- The refusal to apply a type. -/
def notApplicable {α : Type} (name : String) : Except Fault α :=
  wrongKind ("type '" ++ name ++ "' is not subscriptable")

/-- A member of an enumeration, asked for by its name where arguments would stand. -/
def memberNamed (members : List (String × Value)) (args : List Token) : Except Fault Token := do
  Token.checkKeys args
  let missing : Except Fault Token :=
    let shown := args.map p.spell
    .error (.unfit .key (if shown.length = 1 then commaList shown
      else "(" ++ commaList shown ++ ")"))
  match args with
  | [.value v] =>
    (((v.text?).bind fun s => getKey? s members).map fun m => .ok (.value m)).getD missing
  | _ => missing

/-- A builtin type applied to arguments. -/
def applyBuiltin (b : Builtin) (args : List Token) : Except Fault Token := do
  let t := Token.builtin b
  match b with
  | .tupleAlias => return .generic (.builtin b) (← p.applyTuple args)
  | .listAlias | .setAlias | .dictAlias =>
    let args ← args.mapM (p.asArgument "Parameters to generic types must be types." false)
    checkCount (p.spell t) (if b = .dictAlias then 2 else 1) args.length
    return .generic (.builtin b) args
  | .generic | .protocol => return .generic (.builtin b) (← applyRoot b args)
  | .model => wrongKind "Type parameters should be placed on typing.Generic, not BaseModel"
  | .enumeration => p.memberNamed [] args
  | b =>
    if appliesFreely b then return .generic (.builtin b) args
    else if b.isBrand then wrongKind "'NewType' object is not subscriptable"
    else notApplicable (if b = .uuid || b = .anything then b.facts.name else b.qualifiedName)

/-- A declared class applied to arguments. -/
def applyDeclared (i : Nat) (args : List Token) : Except Fault Token := do
  let t := Token.declared i
  match p.classes[i]? with
  | none => return .generic (.declared i) (← args.mapM Token.converted)
  | some c =>
    let applies (s : Token) : Bool := match s with | .builtin b => appliesFreely b | _ => false
    if let .enumeration e := c.form then p.memberNamed e.members args
    else if p.descends t .generic then
      let args ← args.mapM Token.converted
      checkCount (p.spell t) c.parameters.length args.length
      return .generic (.declared i) args
    else if p.descends t .model then
      wrongKind (p.spell t ++ " cannot be parametrized because it does not inherit from " ++
        "typing.Generic")
    else if (p.lineage t).any applies then return .generic (.declared i) args
    else notApplicable c.name

/-- A type applied to arguments. -/
def apply (head : Token) (args : List Token) : Except Fault Token :=
  match head with
  | .builtin b => p.applyBuiltin b args
  | .declared i => p.applyDeclared i args
  | .brand _ => wrongKind "'NewType' object is not subscriptable"
  | t => wrongKind ("'" ++ p.sortName t ++ "' object is not subscriptable")

/-! ## Expressions -/

mutual

/-- **The token an expression stands for**, given what names stand for. -/
def eval (lookup : String → Option Token) : TypeExpr → Except Fault Token
  | .name s =>
    match lookup s with
    | some t => .ok t
    | none => .error (.undefinedName s)
  | .apply head args =>
    match lookup head with
    | some h => do p.apply h (← evalAll lookup args)
    | none => .error (.undefinedName head)
  | .ellipsis => .ok .ellipsis
  | .optional t => do p.optionalOf (← eval lookup t)
  | .union ts => do p.unionOf (← evalAll lookup ts)
  | .pipe ts => do p.pipeOf (← evalAll lookup ts)
  | .literal vs => .ok (literalOf vs)
  | .annotated t ms => do p.annotatedOf (← eval lookup t) ms
  | .classVar t => do p.classVarOf (← eval lookup t)
  | .initVar t => do return .initVar (← eval lookup t)
  | .part t name => do p.missingPart (← eval lookup t) name
  | .token t => .ok t
termination_by structural e => e

/-- The tokens some expressions stand for. -/
def evalAll (lookup : String → Option Token) : List TypeExpr → Except Fault (List Token)
  | [] => .ok []
  | t :: ts => do return (← eval lookup t) :: (← evalAll lookup ts)
termination_by structural ts => ts

end

/-! ## Types of fields -/

mutual

/-- A token in which everything that is looked up later has been looked up. -/
def resolve (find : String → Except Fault Token) : Token → Except Fault Token
  | .forward s => find s
  | .generic h args => do return .generic h (← resolveArguments find h args)
  | .union piped ms => do
    let ms ← resolveAll find ms
    return .joined piped ms
  | .annotated t ms => do return (← resolve find t).annotatedWith ms
  | .classVar t => do return .classVar (← resolve find t)
  | t => .ok t
termination_by structural t => t

/-- Tokens in which everything that is looked up later has been looked up. -/
def resolveAll (find : String → Except Fault Token) : List Token → Except Fault (List Token)
  | [] => .ok []
  | t :: ts => do return (← resolve find t) :: (← resolveAll find ts)
termination_by structural ts => ts

/-- The arguments of an applied type; a builtin one may have texts among them. -/
def resolveArguments (find : String → Except Fault Token) (h : Head) :
    List Token → Except Fault (List Token)
  | [] => .ok []
  | t :: ts => do
    let t ← match h, t with
      | .builtin _, .value v =>
        match v.text? with
        | some s =>
          let _ ← Token.forwardTo s
          find s
        | none => resolve find (.value v)
      | _, t => resolve find t
    return t :: (← resolveArguments find h ts)
termination_by structural ts => ts

end

/-- The message about what no field can be. -/
def fieldMessage : String := "Forward references must evaluate to types."

/-- What a text writes out, looked up; texts inside it are shorter, so that its length
bounds the nesting. -/
def lookUp (lookup : String → Option Token) (ofClass : Bool) : Nat → String → Except Fault Token
  | 0, s => .ok (.forward s)
  | n + 1, s =>
    match TypeExpr.ofText? s with
    | none => .ok (.forward s)
    | some e => do
      let t ← p.asArgument fieldMessage ofClass (← p.eval lookup e)
      resolve (lookUp lookup ofClass n) t

/-- What names stand for inside a class: its own name is the class itself. -/
def scope (name : String) (own : Token) (s : String) : Option Token :=
  if s = name then some own else p.lookup s

/-- The type that an expression gives a field, in a scope. -/
def fieldToken (lookup : String → Option Token) (e : TypeExpr) : Except Fault Token := do
  let t ← p.asArgument fieldMessage true (← p.eval lookup e)
  match t with
  | .forward s => p.lookUp lookup true (s.length + 1) s
  | t => resolve (fun s => p.lookUp lookup false (s.length + 1) s) t

/-- The type of a field, in the scope of a class. -/
def fieldType (c : Class) (own : Token) (e : TypeExpr) : Except Fault Token :=
  match p.fieldToken (p.scope c.name own) e with
  | .error (.undefinedName name) => .error (.unresolvedName c.qualname name)
  | r => r

/-- The types of some fields, in the scope of a class. -/
def fieldTypes (c : Class) (own : Token) (fs : List Field) :
    Except Fault (List (String × Token)) :=
  fs.mapM fun f => do return (f.name, ← p.fieldType c own f.type)

/-- **The types of all fields that a class and the classes above it declare**, all in
the scope of the class. -/
def hints (own : Token) (c : Class) : Except Fault (List (String × Token)) := do
  let fields := (p.classesAmong c.ancestry.reverse).flatMap Class.fields ++ c.fields
  return setKeys (← p.fieldTypes c own fields) []

/-- Fails when the type of a field of a class, or of one above it, cannot be made.  Names
that nothing declares yet are no failure: their types are made later. -/
def checkFieldTypes (lookup : String → Option Token) (own : Token) (c : Class) :
    Except Fault Unit :=
  let classes :=
    ((own, c) :: c.ancestry.filterMap fun t => (p.class? t).map fun c => (t, c)).reverse
  classes.forM fun (t, c) => c.fields.forM fun f =>
    let scope (s : String) : Option Token := if s = c.name then some t else lookup s
    match p.fieldToken scope f.type with
    | .error (.undefinedName _) => .ok ()
    | .error fault => if f.name.startsWith "_" then .ok () else .error fault
    | .ok _ => .ok ()

end Program

end Schemata
