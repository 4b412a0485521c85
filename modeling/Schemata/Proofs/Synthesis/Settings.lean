import Schemata.Synthesis.Schema

/-!
# What the settings do not show in

An environment is a program with the kinds that are known to it, and two settings: how deep types
may nest, and whether the defaults of properties are published.  The settings are looked at in two
places, where types are counted and where properties are dressed.  All that is asked about a type
before that has the same answer under any settings.
-/

namespace Schemata

namespace Environment

/-- The environment with other settings. -/
def adjusted (env : Environment) (limit : Nat) (capturing : Bool) : Environment :=
  { env with maxDepth := limit, captureDefaults := capturing }

variable {env : Environment} {limit : Nat} {capturing : Bool}

@[simp] theorem basesFrom_adjusted (fuel : Nat) (seen : List Identity) (d : Descriptor) :
    (env.adjusted limit capturing).basesFrom fuel seen d = env.basesFrom fuel seen d := by
  induction fuel generalizing seen d with
  | zero => rfl
  | succ fuel ih =>
    unfold basesFrom
    simp only [ih]
    rfl

@[simp] theorem baseChain_adjusted (d : Descriptor) :
    (env.adjusted limit capturing).baseChain d = env.baseChain d :=
  basesFrom_adjusted _ _ d

@[simp] theorem primitiveKind_adjusted (d : Descriptor) :
    (env.adjusted limit capturing).primitiveKind d = env.primitiveKind d := by
  simp [primitiveKind]

@[simp] theorem isInline_adjusted (d : Descriptor) :
    (env.adjusted limit capturing).isInline d = env.isInline d := by
  simp [isInline]

@[simp] theorem publishesArray_adjusted (d : Descriptor) :
    (env.adjusted limit capturing).publishesArray d = env.publishesArray d := by
  simp [publishesArray]

@[simp] theorem isAwaited_adjusted (d : Descriptor) :
    (env.adjusted limit capturing).isAwaited d = env.isAwaited d := by
  simp [isAwaited]

@[simp] theorem isArrayVisited_adjusted (d : Descriptor) :
    (env.adjusted limit capturing).isArrayVisited d = env.isArrayVisited d := by
  simp [isArrayVisited]

@[simp] theorem checkRequired_adjusted (d : Descriptor) (o : ObjectParts) :
    (env.adjusted limit capturing).checkRequired d o = env.checkRequired d o := by
  simp [checkRequired]

@[simp] theorem namedLeaf_adjusted (d : Descriptor) (kind : Kind) :
    (env.adjusted limit capturing).namedLeaf d kind = env.namedLeaf d kind := by
  simp [namedLeaf]

end Environment

end Schemata
