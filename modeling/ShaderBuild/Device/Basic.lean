import ShaderBuild.Failure
import ShaderBuild.Text.Basic
import ShaderBuild.Version

/-!
# Devices

What is asked of a graphics device, and what counts as one. A device is any
state that answers requests. The kind of reply depends on the request, so a
request is a value and its reply type is computed from it; a journal of calls
is then simply a list of requests with their answers.

A device can crash in the middle of a request. Its state afterwards is
whatever it had become, and the reply, if there was one, is lost to the
caller. The answer still records it, because it tells what the device had
done: a crash does not take back a handle that was given out.

## Main definitions

* `Request`: What is asked of a device.
* `Request.Reply`: The kind of reply to a request.
* `Answer`: A reply, and whether the device crashed over the request.
* `Device`: Anything that answers requests.
* `Call`: A request that was made, with its answer.
-/

namespace ShaderBuild

/-- What a device calls one of its programs. -/
abbrev Handle := UInt32

/-- What is asked of a device. -/
inductive Request where
  /-- The version of the context. -/
  | version
  /-- A new program. -/
  | create
  /-- Forget a program. -/
  | delete (program : Handle)
  /-- Compile a source and attach it to a program. -/
  | compile (program : Handle) (stage : Stage) (source : Text)
  /-- Detach everything from a program. -/
  | removeStages (program : Handle)
  | link (program : Handle)
  /-- The index of a uniform block of a linked program. -/
  | blockIndex (program : Handle) (block : String)
  /-- Make a program the current one. -/
  | bind (program : Handle)
  /-- Make no program the current one. -/
  | release
  /-- Put a buffer at a binding point. -/
  | bindBuffer (bindingPoint buffer : UInt32)
  /-- Let a uniform block read from a binding point. -/
  | bindBlock (program : Handle) (index bindingPoint : UInt32)
  deriving DecidableEq, Repr

/-- The kind of reply to a request. -/
@[reducible] def Request.Reply : Request → Type
  | .version => ContextVersion
  | .create => Except Failure Handle
  | .compile .. | .link _ => Except Failure Unit
  | .blockIndex .. => Option UInt32
  | .delete _ | .removeStages _ | .bind _ | .release | .bindBuffer .. | .bindBlock .. => Unit

/-- A reply, and whether the device crashed over the request. A crash keeps the
    reply from the caller. -/
structure Answer (r : Request) where
  reply : r.Reply
  crashed : Bool

/-- Anything that answers requests. -/
class Device (σ : Type) where
  answer : σ → (r : Request) → Answer r × σ

/-- A request that was made, with its answer. -/
structure Call where
  request : Request
  answer : Answer request

end ShaderBuild
