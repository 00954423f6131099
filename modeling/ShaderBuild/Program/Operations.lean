import ShaderBuild.Program.Basic

/-!
# Operations on Programs

What can be done with a program on a shared device. Every operation checks the
phase first and only then takes the lock, so a call that does not fit is
refused even by a device that is out of order.

Adding a stage changes nothing before the source has been flattened; from then
on the device decides. Linking starts by forgetting the blocks that were bound
before, even if the lock is then refused, and binds the requested ones in order
until one cannot be bound. Blocks bound before that one stay bound, and the
program is released in either case.

## Main definitions

* `Program.create`, `Program.delete`: The two ends of a program's life.
* `Program.addIncludePath`, `Program.addStage`, `Program.removeStages`:
  Compiling.
* `Program.link`: Linking and binding.
* `Program.blockIndex`, `Program.bindBlock`, `Program.bindBlockAt`: Single
  blocks of a linked program.
-/

namespace ShaderBuild

namespace Program

open Operation

variable {σ ω : Type} [Device σ]

/-- A new program on the device. -/
def create : Operation σ ω Program := do
  lock
  match ← ask .create with
  | .error failure => fail failure
  | .ok handle => do
    note .debug s!"Created program {handle}"
    pure (Program.new handle)

/-- The end of a program. A device that is out of order is left alone, and
    nothing is reported. -/
def delete : Operation σ Program Unit :=
  fun s => if s.shared.poisoned then .ok () s else ask (.delete s.owner.handle) s

/-- Refuse the operation unless it fits the phase of the program. -/
def require (fits : Phase → Bool) (refusal : Refusal) : Operation σ Program Unit := do
  let p ← owner
  if fits p.phase then pure () else fail (.invalidState (refusal.message p))

/-- Change the phase of the program. -/
def enter (phase : Phase) : Operation σ Program Unit :=
  update fun p => { p with phase }

/-- Search includes in one more directory. -/
def addIncludePath (path : Path) : Operation σ Program Unit := do
  require (fun phase => !phase.isCycleOpen) (.includePathFixed path)
  update fun p => { p with includePaths := p.includePaths ++ [path] }

/-- The version line for the context of the device. -/
def version : Operation σ ω String := do
  lock
  let v ← ask .version
  pure v.directive

/-- Compile a flattened source as a stage. -/
def compile (stage : Stage) (path : Path) (source : Flattened) : Operation σ Program Unit := do
  let p ← owner
  lock
  -- The phase that stays if the device crashes over the source.
  enter .sourceLoaded
  match ← ask (.compile p.handle stage source.text) with
  | .ok () => do
    note .debug (s!"Compiled {stage.name} stage {path.text} for program {p.handle} " ++
      s!"({source.autoresolve.length} autoresolve block(s))")
    update fun p => { p with autoresolve := p.autoresolve ++ source.autoresolve }
    enter .compiled
  | .error failure => do
    enter .compileFailed
    note .error s!"Failed to compile {path.text}"
    fail failure

/-- Flatten a source and compile it as a stage. -/
def addStage (around : Surroundings) (stage : Stage) (source : StageSource) :
    Operation σ Program Unit := do
  require (· ≠ .compileFailed) .stageFailed
  let line ← version
  let p ← owner
  let flattened ← absorb (source.flatten
    ⟨⟨p.includePaths, around.sharedPaths⟩, around.tree, line.toList⟩)
  compile stage source.path flattened

/-- Detach every stage. -/
def removeStages : Operation σ Program Unit := do
  let p ← owner
  lock
  ask (.removeStages p.handle)
  update fun p => { p with phase := .empty, autoresolve := [], bound := [] }

/-- Let the block at an index read from a buffer, through the binding point the
    buffer is registered for. -/
def attach (index : UInt32) (b : UniformBuffer) : Operation σ Program Unit := do
  let p ← owner
  ask (.bindBuffer b.bindingPoint b.buffer)
  ask (.bindBlock p.handle index b.bindingPoint)

/-- Bind the named blocks in order. The result is the failure at the first one
    that cannot be bound. -/
def bindAll (registry : Registry) : List String → Operation σ Program (Option Failure)
  | [] => pure none
  | name :: rest => do
    let p ← owner
    match ← ask (.blockIndex p.handle name), registry.find? name with
    | none, _ => pure (some (.blockMissing name))
    | some _, none => pure (some (.bufferMissing name))
    | some index, some b => do
      attach index b
      note .trace (s!"Autoresolved `{name}`: block {index} -> " ++
        s!"binding point {b.bindingPoint} (buffer {b.buffer})")
      update fun p => { p with bound := p.bound ++ [⟨name, index, b.bindingPoint, b.buffer⟩] }
      bindAll registry rest

/-- Bind every requested block of a program that has just been linked. -/
def bindRequested (registry : Registry) : Operation σ Program Unit := do
  let p ← owner
  ask (.bind p.handle)
  let failed ← bindAll registry p.autoresolve
  -- The program is released whether or not every block was bound.
  ask .release
  match failed with
  | some failure => fail failure
  | none => do
    enter .autoresolveBound
    note .info (s!"Linked program {p.handle} and autoresolved " ++
      s!"{(← owner).bound.length} uniform block(s)")

/-- Link the program and bind the blocks its stages asked for. -/
def link (registry : Registry) : Operation σ Program Unit := do
  require Phase.canLink .cannotLink
  update fun p => { p with bound := [] }
  lock
  let p ← owner
  match ← ask (.link p.handle) with
  | .error failure => do
    enter .linkFailed
    fail failure
  | .ok () => do
    enter .linked
    if p.autoresolve = [] then note .info s!"Linked program {p.handle}"
    else bindRequested registry

/-- The index of a uniform block. -/
def blockIndex (block : String) : Operation σ Program (Option UInt32) := do
  let p ← owner
  lock
  ask (.blockIndex p.handle block)

/-- Bind a buffer to a uniform block by its name. -/
def bindBlock (block : String) (b : UniformBuffer) : Operation σ Program Unit := do
  require Phase.isLinked .notLinked
  lock
  let p ← owner
  match ← ask (.blockIndex p.handle block) with
  | none => fail (.invalidResource s!"Uniform block `{block}` not found in program {p.handle}")
  | some index => attach index b

/-- Bind a buffer to a uniform block by its index. -/
def bindBlockAt (index : UInt32) (b : UniformBuffer) : Operation σ Program Unit := do
  require Phase.isLinked .notLinked
  lock
  attach index b

end Program

end ShaderBuild
