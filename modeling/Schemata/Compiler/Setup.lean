import Schemata.Compiler.Basic
import Schemata.Settings

/-!
# Setting up a compiler

A compiler is made from settings.  The release of the document format and the depth are
looked at when it is made, in this order, and refused if they are not fit.  Where references
point is looked at only when something is rendered.
-/

namespace Schemata.Compiler

/-- A compiler with the given settings. -/
def ofSettings (p : Program) (kinds : Kinds) (s : Settings) : Except Fault Compiler := do
  let release ← s.release
  let depth ← s.depth
  return {
    environment :=
      { program := p, kinds := kinds, maxDepth := depth, captureDefaults := s.capturesDefaults }
    refPrefix := s.refPrefix
    release := release }

end Schemata.Compiler
