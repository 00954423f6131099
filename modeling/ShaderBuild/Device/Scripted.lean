import ShaderBuild.Device.Basic

/-!
# Scripted Devices

A device that does as it is told: it compiles nothing, and its settings say
which stages fail, which uniform blocks a linked program has, and over which
kind of request it crashes. What it does keep track of is what a program can
observe, namely the handles given out and which of them are linked.

## Main definitions

* `Request.Kind`: A request without its details.
* `Scripted`: The settings and what the device remembers.
* `Scripted.Change`: Settings to replace.
-/

namespace ShaderBuild

/-- A request without its details. -/
inductive Request.Kind where
  | version
  | create
  | delete
  | compile
  | removeStages
  | link
  | blockIndex
  | bind
  | release
  | bindBuffer
  | bindBlock
  deriving DecidableEq, Repr

/-- The kind of a request. -/
def Request.kind : Request → Request.Kind
  | .version => .version
  | .create => .create
  | .delete _ => .delete
  | .compile .. => .compile
  | .removeStages _ => .removeStages
  | .link _ => .link
  | .blockIndex .. => .blockIndex
  | .bind _ => .bind
  | .release => .release
  | .bindBuffer .. => .bindBuffer
  | .bindBlock .. => .bindBlock

/-- A device that does as it is told. -/
structure Scripted where
  version : ContextVersion := ⟨4, 5, false⟩
  /-- The uniform blocks of every linked program, with their indices. -/
  blocks : List (String × UInt32) := []
  compileFailures : List (Stage × Failure) := []
  linkFailure : Option Failure := none
  createFailure : Option Failure := none
  /-- The kind of request over which the device crashes. -/
  crashOver : Option Request.Kind := none
  /-- The handle of the next program. -/
  nextHandle : Handle := 1
  /-- The programs that are linked. -/
  linked : List Handle := []

namespace Scripted

instance : Inhabited Scripted := ⟨{}⟩

/-- Settings to replace. What is not given stays as it is. -/
structure Change where
  version : Option ContextVersion
  blocks : Option (List (String × UInt32))
  compileFailures : Option (List (Stage × Failure))
  linkFailure : Option (Option Failure)
  createFailure : Option (Option Failure)
  crashOver : Option (Option Request.Kind)
  nextHandle : Option Handle

/-- The device with settings replaced. -/
def change (d : Scripted) (c : Change) : Scripted :=
  { d with
    version := c.version.getD d.version
    blocks := c.blocks.getD d.blocks
    compileFailures := c.compileFailures.getD d.compileFailures
    linkFailure := c.linkFailure.getD d.linkFailure
    createFailure := c.createFailure.getD d.createFailure
    crashOver := c.crashOver.getD d.crashOver
    nextHandle := c.nextHandle.getD d.nextHandle }

/-- The device with a program not linked. -/
def unlink (d : Scripted) (program : Handle) : Scripted :=
  { d with linked := d.linked.filter (· ≠ program) }

/-- A failure to report, or success. -/
def outcome : Option Failure → Except Failure Unit
  | some failure => .error failure
  | none => .ok ()

/-- Link a program. A crash comes before anything is done. -/
def link (d : Scripted) (program : Handle) : Scripted :=
  if d.crashOver = some .link then d
  else if d.linkFailure.isNone then { d with linked := program :: (d.unlink program).linked }
  else d.unlink program

/-- What the device replies, and what becomes of it. -/
def respond (d : Scripted) : (r : Request) → r.Reply × Scripted
  | .version => (d.version, d)
  | .create =>
    match d.createFailure with
    | some failure => (.error failure, d)
    | none => (.ok d.nextHandle,
        { d.unlink d.nextHandle with nextHandle := d.nextHandle + 1 })
  | .delete program => ((), d.unlink program)
  | .compile _ stage _ => (outcome (d.compileFailures.lookup stage), d)
  | .removeStages program => ((), d.unlink program)
  | .link program => (outcome d.linkFailure, d.link program)
  | .blockIndex program block =>
    (if program ∈ d.linked then d.blocks.lookup block else none, d)
  | .bind _ => ((), d)
  | .release => ((), d)
  | .bindBuffer .. => ((), d)
  | .bindBlock .. => ((), d)

instance : Device Scripted where
  answer d r := (⟨(d.respond r).1, d.crashOver = some r.kind⟩, (d.respond r).2)

end Scripted

end ShaderBuild
