import ShaderBuild.Files.Edit
import ShaderBuild.Program.Operations
import ShaderBuild.Workspace.Named

/-!
# Workspaces

Programs, devices and registries under names, together with what they all
share: the files and the shared include paths. A workspace is driven by
commands. Each command is answered with its outcome and with everything that
happened on the way: the calls made on each device, and the log entries.

Devices and registries exist as soon as they are named. A program exists from
its creation until it is discarded or another is created under its name.

## Main definitions

* `Workspace`: Everything there is.
* `Action`: What can be done with an existing program.
* `Command`: What can be done in a workspace.
* `Report`: The answer to a command.
* `Workspace.perform`: What a command does.
-/

namespace ShaderBuild

/-- A program and the name of its device. -/
structure Placed where
  device : String
  program : Program
  deriving DecidableEq, Repr

/-- Programs, devices and registries by name, and what they share. -/
structure Workspace (σ : Type) where
  devices : Named (Shared σ)
  programs : Named Placed
  registries : Named Registry
  around : Surroundings
  deriving Inhabited

/-- What can be done with an existing program. -/
inductive Action where
  | addIncludePath (path : Path)
  | addStage (stage : Stage) (source : StageSource)
  | removeStages
  | link (registry : String)
  | blockIndex (block : String)
  | bindBlock (block : String) (buffer : UniformBuffer)
  | bindBlockAt (index : UInt32) (buffer : UniformBuffer)
  | version
  | inspect

/-- What can be done with a registry. -/
inductive RegistryAction where
  | register (buffer : UniformBuffer)
  | find (name : String)
  | remove (name : String)
  | count
  | names
  | clear

/-- What can be done in a workspace. -/
inductive Command (σ : Type) where
  | create (program device : String)
  | discard (program : String)
  | act (program : String) (action : Action)
  | registry (registry : String) (action : RegistryAction)
  | addSharedPath (path : Path)
  | sharedPaths
  /-- Put a node at a path, or remove what is there. -/
  | put (path : Path) (node : Option Node)
  /-- Change a device from outside. -/
  | configure (device : String) (change : σ → σ)
  /-- Poison the lock of a device. -/
  | poison (device : String)

/-- What a command answers when it succeeds. -/
inductive Reply where
  | done
  | created (handle : Handle)
  | discarded (existed : Bool)
  | paths (paths : List Path)
  | buffer (buffer : Option UniformBuffer)
  | count (n : Nat)
  | names (names : List String)
  | blockIndex (index : Option UInt32)
  | version (line : String)
  | program (program : Program)
  deriving DecidableEq, Repr

/-- Why a command has no reply. -/
inductive Trouble where
  | failed (failure : Failure)
  | crashed
  | noProgram
  deriving DecidableEq, Repr

/-- The answer to a command. Each call comes with the name of its device. -/
structure Report where
  outcome : Except Trouble Reply
  calls : List (String × Call)
  log : List Entry

/-- The report of a command that makes no calls and no entries. -/
def Report.quiet (outcome : Except Trouble Reply) : Report :=
  ⟨outcome, [], []⟩

/-- The trouble an interruption leads to. -/
def Interruption.trouble : Interruption → Trouble
  | .failed failure => .failed failure
  | .crashed => .crashed

/-- The report of an operation on a device, from what it came to and the session
    as it was left. -/
def Report.ofSession {σ ω : Type} (device : String) (outcome : Except Interruption Reply)
    (s : Session σ ω) : Report :=
  ⟨outcome.mapError Interruption.trouble, s.calls.map (device, ·), s.log⟩

/-- What an action does, given the registries by name. -/
def Action.run {σ : Type} [Device σ] (around : Surroundings) (registryOf : String → Registry) :
    Action → Operation σ Program Reply
  | .addIncludePath path => do Program.addIncludePath path; pure .done
  | .addStage stage source => do Program.addStage around stage source; pure .done
  | .removeStages => do Program.removeStages; pure .done
  | .link registry => do Program.link (registryOf registry); pure .done
  | .blockIndex block => do pure (.blockIndex (← Program.blockIndex block))
  | .bindBlock block buffer => do Program.bindBlock block buffer; pure .done
  | .bindBlockAt index buffer => do Program.bindBlockAt index buffer; pure .done
  | .version => do pure (.version (← Program.version))
  | .inspect => do pure (.program (← Operation.owner))

/-- What an action answers, and what becomes of the registry. -/
def RegistryAction.run (r : Registry) : RegistryAction → Logged (Except Failure Reply) × Registry
  | .register b =>
    let result := r.register b.name b.bindingPoint b.buffer
    match result.value with
    | .ok (registered, after) => (⟨.ok (.buffer (some registered)), result.entries⟩, after)
    | .error failure => (⟨.error failure, result.entries⟩, r)
  | .find name => (pure (.ok (.buffer (r.find? name))), r)
  | .remove name => (pure (.ok (.buffer (r.remove name).1)), (r.remove name).2)
  | .count => (pure (.ok (.count r.count)), r)
  | .names => (pure (.ok (.names r.names)), r)
  | .clear => (pure (.ok (.count r.clear.count)), r.clear)

namespace Workspace

variable {σ : Type}

/-- What the entries of a workspace give as their source. -/
def source : String := "galaxy3d::glsl::Engine"

/-- The device of a given name. -/
def device [Inhabited σ] (w : Workspace σ) (name : String) : Shared σ :=
  (w.devices.get? name).getD default

/-- The registry of a given name. -/
def registry (w : Workspace σ) (name : String) : Registry :=
  (w.registries.get? name).getD default

variable [Device σ] [Inhabited σ]

/-- Run an operation on a device: what it came to, the session as it was left,
    and the workspace with the device as it became. -/
def runOn {ω α : Type} (w : Workspace σ) (device : String) (owner : ω) (op : Operation σ ω α) :
    Except Interruption α × Session σ ω × Workspace σ :=
  let (outcome, s) := Operation.run op (Session.start owner (w.device device))
  (outcome, s, { w with devices := w.devices.assign device s.shared })

/-- The end of a program that is no longer in the workspace. -/
def retire (w : Workspace σ) (placed : Placed) (reply : Reply) : Report × Workspace σ :=
  let (outcome, s, w) := w.runOn placed.device placed.program Program.delete
  (.ofSession placed.device (outcome.map fun _ => reply) s, w)

/-- Create a program under a name, and discard the one that had it. -/
def create (w : Workspace σ) (program device : String) : Report × Workspace σ :=
  match w.runOn device () Program.create with
  | (.error stop, s, w) => (.ofSession device (.error stop) s, w)
  | (.ok p, s, w) =>
    let created := Report.ofSession device (.ok (.created p.handle)) s
    let stored := { w with programs := w.programs.assign program ⟨device, p⟩ }
    match w.programs.get? program with
    | none => (created, stored)
    | some replaced =>
      let (report, w) := stored.retire replaced (.created p.handle)
      (⟨report.outcome, created.calls ++ report.calls, created.log ++ report.log⟩, w)

/-- Discard a program. -/
def discard (w : Workspace σ) (program : String) : Report × Workspace σ :=
  match w.programs.get? program with
  | none => (.quiet (.ok (.discarded false)), w)
  | some placed =>
    { w with programs := w.programs.erase program }.retire placed (.discarded true)

/-- Do something with an existing program. -/
def act (w : Workspace σ) (program : String) (action : Action) : Report × Workspace σ :=
  match w.programs.get? program with
  | none => (.quiet (.error .noProgram), w)
  | some placed =>
    let (outcome, s, w) := w.runOn placed.device placed.program (action.run w.around w.registry)
    (.ofSession placed.device outcome s,
      { w with programs := w.programs.assign program { placed with program := s.owner } })

/-- Do something with a registry. -/
def actOnRegistry (w : Workspace σ) (registry : String) (action : RegistryAction) :
    Report × Workspace σ :=
  let result := action.run (w.registry registry)
  (⟨result.1.value.mapError .failed, [], result.1.entries⟩,
    { w with registries := w.registries.assign registry result.2 })

/-- Search includes of all programs in one more directory. -/
def addSharedPath (w : Workspace σ) (path : Path) : Report × Workspace σ :=
  (⟨.ok .done, [], [Entry.report .debug source s!"Shared include path added: {path.text}"]⟩,
    { w with around := { w.around with sharedPaths := w.around.sharedPaths ++ [path] } })

/-- Put a node at a path, or remove what is there. -/
def put (w : Workspace σ) (path : Path) (node : Option Node) : Report × Workspace σ :=
  (.quiet (.ok .done),
    { w with around := { w.around with tree := w.around.tree.edit path node } })

/-- What a command does. -/
def perform (w : Workspace σ) : Command σ → Report × Workspace σ
  | .create program device => w.create program device
  | .discard program => w.discard program
  | .act program action => w.act program action
  | .registry registry action => w.actOnRegistry registry action
  | .addSharedPath path => w.addSharedPath path
  | .sharedPaths => (.quiet (.ok (.paths w.around.sharedPaths)), w)
  | .put path node => w.put path node
  | .configure device change =>
    let d := w.device device
    (.quiet (.ok .done),
      { w with devices := w.devices.assign device { d with device := change d.device } })
  | .poison device =>
    (.quiet (.ok .done),
      { w with devices := w.devices.assign device { w.device device with poisoned := true } })

end Workspace

end ShaderBuild
