import ShaderBuild.Device.Session
import ShaderBuild.Include.Flatten
import ShaderBuild.Program.Phase
import ShaderBuild.Uniform.Registry

/-!
# Programs

A program is what its device calls it, how far it has come, and three lists:
where its includes are searched, which uniform blocks its stages asked to have
bound, and which blocks the last linking did bind.

## Main definitions

* `BoundBlock`: A block bound by linking.
* `Program`: A program on some device.
* `Refusal`: Why an operation does not fit the phase of a program.
* `StageSource`: Where the source of a stage comes from.
-/

namespace ShaderBuild

/-- A uniform block that linking bound to a registered buffer. -/
structure BoundBlock where
  name : String
  index : UInt32
  bindingPoint : UInt32
  buffer : UInt32
  deriving DecidableEq, Repr

/-- A program on some device. -/
structure Program where
  handle : Handle
  phase : Phase
  includePaths : List Path
  /-- The blocks to bind, in the order the compiled stages asked for them. -/
  autoresolve : List String
  /-- The blocks that the last linking bound. -/
  bound : List BoundBlock
  deriving DecidableEq, Repr

/-- A program that has just been created. -/
def Program.new (handle : Handle) : Program :=
  ⟨handle, .empty, [], [], []⟩

/-- Why an operation does not fit the phase of a program. -/
inductive Refusal where
  | includePathFixed (path : Path)
  | stageFailed
  | cannotLink
  | notLinked
  deriving DecidableEq, Repr

/-- The wording of a refusal. -/
def Refusal.message (p : Program) : Refusal → String
  | .includePathFixed path => s!"Cannot add include path `{path.text}` to program {p.handle} " ++
      s!"while in {p.phase.name} state"
  | .stageFailed => s!"Program {p.handle} has a failed stage; call remove_all_shaders() first"
  | .cannotLink => s!"Cannot link program {p.handle} in {p.phase.name} state"
  | .notLinked => s!"Program {p.handle} is not linked ({p.phase.name})"

/-- Where the source of a stage comes from. Text given directly has a name that
    stands for a path in diagnostics. -/
inductive StageSource where
  | file (path : Path)
  | code (name : Path) (content : Text)
  deriving DecidableEq, Repr

namespace StageSource

/-- What a source is called in diagnostics. -/
def path : StageSource → Path
  | .file path => path
  | .code name _ => name

/-- The pass over a source. -/
def flatten (f : Flattener) : StageSource → Logged (Except Failure Flattened)
  | .file path => f.file path
  | .code name content => f.source name content

end StageSource

/-- What programs share besides their device: the files, and the include paths
    searched after those of a program. -/
structure Surroundings where
  tree : Tree
  sharedPaths : List Path
  deriving Inhabited

end ShaderBuild
