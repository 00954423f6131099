/-!
# Phases of a Program

How far a program has come. Stages are compiled one by one; linking closes the
cycle that the first of them opened, and compiling another stage opens it
again.

## Main definitions

* `Phase`: How far a program has come.
* `Phase.isCycleOpen`, `Phase.canLink`, `Phase.isLinked`: What a phase allows.
-/

namespace ShaderBuild

/-- How far a program has come. -/
inductive Phase where
  | empty
  /-- A source has been handed to the device, which has not answered yet. -/
  | sourceLoaded
  | compiled
  | compileFailed
  | linkFailed
  | linked
  /-- Linked, with every requested block bound. -/
  | autoresolveBound
  deriving DecidableEq, Repr

namespace Phase

/-- What a phase is called in messages. -/
def name : Phase → String
  | .empty => "Empty"
  | .sourceLoaded => "SourceLoaded"
  | .compiled => "Compiled"
  | .compileFailed => "CompileFailed"
  | .linkFailed => "LinkFailed"
  | .linked => "Linked"
  | .autoresolveBound => "AutoresolveBound"

/-- Every phase, in the order a program reaches them. -/
def all : List Phase :=
  [.empty, .sourceLoaded, .compiled, .compileFailed, .linkFailed, .linked, .autoresolveBound]

/-- The phase with a given name. -/
def named? (s : String) : Option Phase :=
  all.find? fun phase => phase.name = s

/-- A stage has been added and linking not reached. The stages of one program
    share their include paths, so these are fixed as long as this holds. -/
def isCycleOpen : Phase → Bool
  | .sourceLoaded | .compiled | .compileFailed => true
  | _ => false

/-- Some stage has been compiled, and the last one compiled without failure. -/
def canLink : Phase → Bool
  | .compiled | .linkFailed | .linked | .autoresolveBound => true
  | _ => false

/-- The device has a linked program. -/
def isLinked : Phase → Bool
  | .linked | .autoresolveBound => true
  | _ => false

end Phase

end ShaderBuild
