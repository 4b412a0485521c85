import Schemata.Descriptor.Reading
import Schemata.Proofs.Fault.Causes

/-!
# How reading a type can fail

A type is read from what its declaration says, and the types of its fields are evaluated on the
way.  There is little that can go wrong with that, and it is told apart here by where it comes from.

* Putting types together has its refusals: something does not fit, or cannot be a key
  (`Fault.OfType`).
* A name that is written in a type may stand for nothing (`Fault.OfNaming`).
* For the type of a field such a name is told together with the class that it was written in.  This
  is what is left when a type is read (`Fault.OfReading`), and it is the only one of these faults
  that comes with a report.

`Program.failsOnly_read` is the result.  The lemmas before it follow the evaluation of types,
function by function.
-/

namespace Schemata

/-- A fault of types that cannot be put together. -/
def Fault.OfType (e : Fault) : Prop :=
  e.OfKey ∨ ∃ misfit message, e = .unfit misfit message

/-- A fault of a type that is written out. -/
def Fault.OfNaming (e : Fault) : Prop :=
  e.OfType ∨ ∃ name, e = .undefinedName name

/-- A fault of a type that is read. -/
def Fault.OfReading (e : Fault) : Prop :=
  e.OfType ∨ ∃ type name, e = .unresolvedName type name

namespace FailsOnly

variable {α β : Type} {P : Fault → Prop}

theorem mapM {f : α → Except Fault β} (h : ∀ a, FailsOnly P (f a)) (as : List α) :
    FailsOnly P (as.mapM f) := by
  induction as with
  | nil => exact .ok _
  | cons a as ih =>
    rw [List.mapM_cons]
    exact (h a).bind fun _ => ih.bind fun _ => .ok _

theorem foldlM {f : β → α → Except Fault β} (h : ∀ b a, FailsOnly P (f b a)) (b : β)
    (as : List α) : FailsOnly P (as.foldlM f b) := by
  induction as generalizing b with
  | nil => exact .ok _
  | cons a as ih =>
    rw [List.foldlM_cons]
    exact (h b a).bind ih

/-- What is done after something has been refused under a condition. -/
theorem guarded {c : Prop} [Decidable c] {r : Except Fault α} {f : α → Except Fault β}
    (h : FailsOnly P r) (hf : ∀ a, FailsOnly P (f a)) (a : α) :
    FailsOnly P (if c then r >>= f else f a) :=
  .ite (h.bind hf) (hf a)

theorem wrongKind (message : String) :
    FailsOnly Fault.OfType (wrongKind message : Except Fault α) :=
  .error (.inr ⟨_, _, rfl⟩)

theorem checkKeys (ts : List Token) : FailsOnly Fault.OfType (Token.checkKeys ts) :=
  (Token.failsOnly_checkKeys ts).mono fun _ => .inl

theorem checkKey (t : Token) : FailsOnly Fault.OfType t.checkKey :=
  t.failsOnly_checkKey.mono fun _ => .inl

/-- What fails over types alone fails over types that are written out. -/
theorem naming {r : Except Fault α} (h : FailsOnly Fault.OfType r) : FailsOnly Fault.OfNaming r :=
  h.mono fun _ => .inl

/-- What fails over types alone fails over types that are read. -/
theorem reading {r : Except Fault α} (h : FailsOnly Fault.OfType r) :
    FailsOnly Fault.OfReading r :=
  h.mono fun _ => .inl

end FailsOnly

/-! ## Putting types together -/

namespace Token

theorem failsOnly_forwardTo (s : String) : FailsOnly Fault.OfType (forwardTo s) :=
  .ite (.ok _) (.error (.inr ⟨_, _, rfl⟩))

theorem failsOnly_converted (t : Token) : FailsOnly Fault.OfType t.converted := by
  unfold converted
  split
  · exact .ok _
  · split
    · exact failsOnly_forwardTo _
    · exact .ok _
  · exact .ok _

end Token

namespace Program

variable (p : Program)

theorem failsOnly_asArgument (message : String) (ofClass : Bool) (t : Token) :
    FailsOnly Fault.OfType (p.asArgument message ofClass t) := by
  refine t.failsOnly_converted.bind fun t => ?_
  split
  · exact .ite (.wrongKind _) (.ok _)
  · exact .ite (.ok _) (.wrongKind _)
  · exact .ite (.wrongKind _) (.ok _)
  · exact .wrongKind _
  · exact .ok _

theorem failsOnly_unionOf (ts : List Token) : FailsOnly Fault.OfType (p.unionOf ts) := by
  unfold unionOf
  dsimp only
  refine .guarded (.wrongKind _) (fun _ => ?_) ()
  exact (FailsOnly.mapM (p.failsOnly_asArgument _ _) ts).bind fun _ =>
    (FailsOnly.checkKeys _).bind fun _ => .ok _

theorem failsOnly_optionalOf (t : Token) : FailsOnly Fault.OfType (p.optionalOf t) :=
  (p.failsOnly_asArgument _ _ t).bind fun _ => p.failsOnly_unionOf _

theorem failsOnly_pipe (a b : Token) : FailsOnly Fault.OfType (p.pipe a b) :=
  .ite (.wrongKind _) (.ite (.ok _) (.ite (p.failsOnly_unionOf _) (.wrongKind _)))

theorem failsOnly_pipeOf (ts : List Token) : FailsOnly Fault.OfType (p.pipeOf ts) := by
  cases ts with
  | nil => exact .ok _
  | cons t ts => exact .foldlM p.failsOnly_pipe t ts

theorem failsOnly_missingPart {α : Type} (t : Token) (name : String) :
    FailsOnly Fault.OfType (p.missingPart t name : Except Fault α) :=
  .error (.inr ⟨_, _, rfl⟩)

theorem failsOnly_annotatedOf (t : Token) (ms : List Metadata) :
    FailsOnly Fault.OfType (p.annotatedOf t ms) := by
  unfold annotatedOf
  dsimp only
  refine .guarded (.wrongKind _) (fun _ => ?_) ()
  refine (p.failsOnly_asArgument _ _ t).bind fun t => ?_
  split
  · exact p.failsOnly_missingPart _ _
  · exact .ite (p.failsOnly_missingPart _ _) (.ok _)
  · exact .ok _

theorem failsOnly_classVarOf (t : Token) : FailsOnly Fault.OfType (p.classVarOf t) :=
  (p.failsOnly_asArgument _ _ t).bind fun _ => .ok _

/-! ## Applying types -/

theorem failsOnly_checkCount (shown : String) (parameters given : Nat) :
    FailsOnly Fault.OfType (checkCount shown parameters given) :=
  .ite (.wrongKind _) (.ite (.ok _) (.wrongKind _))

theorem failsOnly_applyTuple (args : List Token) : FailsOnly Fault.OfType (p.applyTuple args) := by
  unfold applyTuple
  split
  · exact (FailsOnly.mapM (p.failsOnly_asArgument _ _) _).bind fun _ => .ok _
  · exact .mapM (p.failsOnly_asArgument _ _) _

theorem failsOnly_applyRoot (b : Builtin) (args : List Token) :
    FailsOnly Fault.OfType (applyRoot b args) := by
  unfold applyRoot
  dsimp only
  refine .guarded (.wrongKind _) (fun _ => ?_) ()
  refine (FailsOnly.mapM Token.failsOnly_converted args).bind fun args => ?_
  exact .guarded (.wrongKind _) (fun _ => .guarded (.wrongKind _) (fun _ => .ok _) ()) ()

theorem failsOnly_memberNamed (members : List (String × Value)) (args : List Token) :
    FailsOnly Fault.OfType (p.memberNamed members args) := by
  have hmissing (message : String) :
      FailsOnly Fault.OfType (.error (.unfit .key message) : Except Fault Token) :=
    .error (.inr ⟨_, _, rfl⟩)
  refine (FailsOnly.checkKeys args).bind fun _ => ?_
  split
  next v =>
    cases (v.text?).bind fun s => getKey? s members with
    | some m => exact .ok _
    | none => exact hmissing _
  · exact hmissing _

theorem failsOnly_applyBuiltin (b : Builtin) (args : List Token) :
    FailsOnly Fault.OfType (p.applyBuiltin b args) := by
  have hmapped (message : String) :
      FailsOnly Fault.OfType (args.mapM (p.asArgument message false)) :=
    .mapM (p.failsOnly_asArgument _ _) args
  unfold applyBuiltin
  dsimp only
  split
  · exact (p.failsOnly_applyTuple args).bind fun _ => .ok _
  iterate 3 exact (hmapped _).bind fun _ => (failsOnly_checkCount _ _ _).bind fun _ => .ok _
  iterate 2 exact (failsOnly_applyRoot _ args).bind fun _ => .ok _
  · exact .wrongKind _
  · exact p.failsOnly_memberNamed _ args
  · exact .ite (.ok _) (.ite (.wrongKind _) (.wrongKind _))

theorem failsOnly_applyDeclared (i : Nat) (args : List Token) :
    FailsOnly Fault.OfType (p.applyDeclared i args) := by
  have hconverted : FailsOnly Fault.OfType (args.mapM Token.converted) :=
    .mapM Token.failsOnly_converted args
  unfold applyDeclared
  dsimp only
  split
  · exact hconverted.bind fun _ => .ok _
  · split
    · exact p.failsOnly_memberNamed _ args
    · refine .ite (hconverted.bind fun _ => (failsOnly_checkCount _ _ _).bind fun _ => .ok _) ?_
      exact .ite (.wrongKind _) (.ite (.ok _) (.wrongKind _))

theorem failsOnly_apply (head : Token) (args : List Token) :
    FailsOnly Fault.OfType (p.apply head args) := by
  unfold apply
  split
  · exact p.failsOnly_applyBuiltin _ args
  · exact p.failsOnly_applyDeclared _ args
  · exact .wrongKind _
  · exact .wrongKind _

/-! ## Types as they are written -/

section

variable (lookup : String → Option Token)

mutual

/-- **A type that is written out** fails to be evaluated over names, or as types do. -/
theorem failsOnly_eval (e : TypeExpr) : FailsOnly Fault.OfNaming (p.eval lookup e) := by
  cases e with
  | name s =>
    rw [eval]
    split
    · exact .ok _
    · exact .error (.inr ⟨s, rfl⟩)
  | apply head args =>
    rw [eval]
    split
    · exact (failsOnly_evalAll args).bind fun _ => (p.failsOnly_apply _ _).naming
    · exact .error (.inr ⟨head, rfl⟩)
  | ellipsis | literal _ | token _ => exact .ok _
  | optional t => exact (failsOnly_eval t).bind fun _ => (p.failsOnly_optionalOf _).naming
  | union ts => exact (failsOnly_evalAll ts).bind fun _ => (p.failsOnly_unionOf _).naming
  | pipe ts => exact (failsOnly_evalAll ts).bind fun _ => (p.failsOnly_pipeOf _).naming
  | annotated t ms => exact (failsOnly_eval t).bind fun _ => (p.failsOnly_annotatedOf _ ms).naming
  | classVar t => exact (failsOnly_eval t).bind fun _ => (p.failsOnly_classVarOf _).naming
  | initVar t => exact (failsOnly_eval t).bind fun _ => .ok _
  | part t name => exact (failsOnly_eval t).bind fun _ => (p.failsOnly_missingPart _ name).naming
termination_by structural e

theorem failsOnly_evalAll (ts : List TypeExpr) :
    FailsOnly Fault.OfNaming (p.evalAll lookup ts) := by
  cases ts with
  | nil => exact .ok _
  | cons t ts => exact (failsOnly_eval t).bind fun _ => (failsOnly_evalAll ts).bind fun _ => .ok _
termination_by structural ts

end

end

section

variable {find : String → Except Fault Token}

mutual

theorem failsOnly_resolve (hfind : ∀ s, FailsOnly Fault.OfNaming (find s)) (t : Token) :
    FailsOnly Fault.OfNaming (resolve find t) := by
  cases t with
  | forward s => exact hfind s
  | generic h args => exact (failsOnly_resolveArguments hfind h args).bind fun _ => .ok _
  | union piped ms => exact (failsOnly_resolveAll hfind ms).bind fun _ => .ok _
  | annotated t ms => exact (failsOnly_resolve hfind t).bind fun _ => .ok _
  | classVar t => exact (failsOnly_resolve hfind t).bind fun _ => .ok _
  | _ => exact .ok _
termination_by structural t

theorem failsOnly_resolveAll (hfind : ∀ s, FailsOnly Fault.OfNaming (find s)) (ts : List Token) :
    FailsOnly Fault.OfNaming (resolveAll find ts) := by
  cases ts with
  | nil => exact .ok _
  | cons t ts =>
    exact (failsOnly_resolve hfind t).bind fun _ =>
      (failsOnly_resolveAll hfind ts).bind fun _ => .ok _
termination_by structural ts

theorem failsOnly_resolveArguments (hfind : ∀ s, FailsOnly Fault.OfNaming (find s)) (h : Head)
    (ts : List Token) :
    FailsOnly Fault.OfNaming (resolveArguments find h ts) := by
  cases ts with
  | nil => exact .ok _
  | cons t ts =>
    have hrest (t : Token) : FailsOnly Fault.OfNaming
        (do return t :: (← resolveArguments find h ts) : Except Fault (List Token)) :=
      (failsOnly_resolveArguments hfind h ts).bind fun _ => .ok _
    have hresolve : FailsOnly Fault.OfNaming
        (do return (← resolve find t) :: (← resolveArguments find h ts) :
          Except Fault (List Token)) :=
      (failsOnly_resolve hfind t).bind hrest
    cases h with
    | declared i => exact hresolve
    | builtin b =>
      cases t with
      | value v =>
        rw [resolveArguments]
        cases v.text? with
        | some s => exact (Token.failsOnly_forwardTo s).naming.bind fun _ => (hfind s).bind hrest
        | none => exact hresolve
      | _ => exact hresolve
termination_by structural ts

end

end

theorem failsOnly_lookUp (lookup : String → Option Token) (ofClass : Bool) (n : Nat) (s : String) :
    FailsOnly Fault.OfNaming (p.lookUp lookup ofClass n s) := by
  induction n generalizing s with
  | zero => exact .ok _
  | succ n ih =>
    rw [lookUp]
    split
    · exact .ok _
    · refine (p.failsOnly_eval lookup _).bind fun _ => ?_
      exact (p.failsOnly_asArgument _ _ _).naming.bind fun _ => failsOnly_resolve ih _

/-! ## Types of fields -/

theorem failsOnly_fieldToken (lookup : String → Option Token) (e : TypeExpr) :
    FailsOnly Fault.OfNaming (p.fieldToken lookup e) := by
  refine (p.failsOnly_eval lookup e).bind fun _ => ?_
  refine (p.failsOnly_asArgument _ _ _).naming.bind fun t => ?_
  split
  · exact p.failsOnly_lookUp _ _ _ _
  · exact failsOnly_resolve (fun s => p.failsOnly_lookUp _ _ _ s) _

/-- **The type of a field** is told by its class where it names what is not declared. -/
theorem failsOnly_fieldType (c : Class) (own : Token) (e : TypeExpr) :
    FailsOnly Fault.OfReading (p.fieldType c own e) := by
  have htoken := p.failsOnly_fieldToken (p.scope c.name own) e
  unfold fieldType
  split
  next name _ => exact .error (.inr ⟨c.qualname, name, rfl⟩)
  next hother =>
    intro fault hfault
    rcases htoken fault hfault with htype | ⟨name, rfl⟩
    · exact .inl htype
    · exact absurd hfault (hother name)

theorem failsOnly_hints (own : Token) (c : Class) :
    FailsOnly Fault.OfReading (p.hints own c) := by
  refine FailsOnly.bind (.mapM (fun f => ?_) _) fun _ => .ok _
  exact (p.failsOnly_fieldType c own f.type).bind fun _ => .ok _

/-! ## Reading -/

theorem failsOnly_optional? (t : Token) : FailsOnly Fault.OfType (p.optional? t) := by
  unfold optional?
  split
  · refine .ite (.ok _) ?_
    split
    · exact .ok _
    · exact (p.failsOnly_unionOf _).bind fun _ => .ok _
  · exact .ok _

theorem failsOnly_itemType (origin : Builtin) (args : List Token) :
    FailsOnly Fault.OfType (itemType origin args) := by
  refine .ite ((FailsOnly.checkKeys _).bind fun _ => ?_) ?_
  · split <;> exact .ok _
  · split <;> exact .ok _

theorem failsOnly_readItems (t : Token) (origin : Builtin) (args : List Token) :
    FailsOnly Fault.OfType (p.readItems t origin args) :=
  (failsOnly_itemType origin args).bind fun _ => .ok _

theorem failsOnly_readClass (own : Token) (c : Class) :
    FailsOnly Fault.OfReading (p.readClass own c) := by
  unfold readClass
  dsimp only
  split
  · exact .ok _
  · refine FailsOnly.bind (.mapM (fun f => ?_) _) fun _ => .ok _
    exact (p.failsOnly_fieldType c own f.type).bind fun _ => .ok _
  · exact ((p.failsOnly_hints own c).bind fun _ => .ok _).bind fun _ => .ok _
  · refine FailsOnly.bind (.ite (.ok _) ?_) fun _ => .ok _
    exact (p.failsOnly_hints own c).bind fun _ => .ok _

theorem failsOnly_readStructure (t : Token) :
    FailsOnly Fault.OfReading (p.readStructure t) := by
  have hunknown : FailsOnly Fault.OfReading
      (do t.checkKey; return p.readUnknown t : Except Fault Descriptor) :=
    (FailsOnly.checkKey t).reading.bind fun _ => .ok _
  have hitems (origin : Builtin) (args : List Token) :
      FailsOnly Fault.OfReading (p.readItems t origin args) :=
    (p.failsOnly_readItems t origin args).reading
  unfold readStructure
  split
  · exact .ok _
  · split
    · exact .ok _
    · exact hitems _ _
    · exact hunknown
  · split
    · exact .ite (.ok _) (hitems _ _)
    · exact .ok _
    · exact hitems _ _
    · exact .ok _
  · split <;> exact .ok _
  · split
    · exact p.failsOnly_readClass _ _
    · exact .ok _
  · exact hunknown

/-- **Reading a type fails** over types that cannot be put together, or over a name that stands for
nothing. -/
theorem failsOnly_read (ks : Kinds) (t : Token) : FailsOnly Fault.OfReading (p.read ks t) := by
  unfold read
  dsimp only
  split
  · exact .ok _
  · refine (p.failsOnly_optional? _).reading.bind fun _ => ?_
    split
    · exact .ok _
    · split
      · exact .ok _
      · exact p.failsOnly_readStructure _

end Program

end Schemata
