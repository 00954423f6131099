import ShaderBuild.Device.Basic
import ShaderBuild.Log.Entry

/-!
# Working with a Shared Device

A device is shared by many programs, so it is locked while it is used. A crash
happens under the lock and poisons it for good: from then on nobody gets the
device, and every attempt fails without reaching it.

An operation has an owner, the thing it changes (usually a program), and works
with one shared device. It may finish, fail for a reason that is reported, or
be torn down by a crash; in all three cases what had been changed before stays
changed. Calls and log entries are collected in the order they are made.

## Main definitions

* `Shared`: A device with the state of its lock.
* `Session`: What an operation works on and has collected.
* `Operation`: A computation in a session that may be cut short.
* `lock`, `ask`: The two ways to the device.
* `fail`: A failure, reported once.
* `run`: What an operation comes to.

## Theorems

* `bind_run`: An operation followed by another runs the other where it finished.
* `run_map`: What is made of a result afterwards changes nothing else.
* `lock_poisoned`: A poisoned lock fails.
* `lock_free`: A lock that is not poisoned is no obstacle.
-/

namespace ShaderBuild

/-- A device with the state of its lock. -/
structure Shared (σ : Type) where
  device : σ
  poisoned : Bool

instance {σ : Type} [Inhabited σ] : Inhabited (Shared σ) := ⟨⟨default, false⟩⟩

/-- What an operation works on, with the calls and the entries it has made,
    oldest first. -/
structure Session (σ ω : Type) where
  owner : ω
  shared : Shared σ
  calls : List Call
  log : List Entry

/-- The session of an operation that has just started. -/
def Session.start {σ ω : Type} (owner : ω) (shared : Shared σ) : Session σ ω :=
  ⟨owner, shared, [], []⟩

/-- What cuts an operation short. -/
inductive Interruption where
  /-- A failure, which has been reported. -/
  | failed (failure : Failure)
  /-- The device crashed. -/
  | crashed

/-- A computation in a session that may be cut short. What was done before it
    was cut short stays done. -/
abbrev Operation (σ ω : Type) := EStateM Interruption (Session σ ω)

namespace Operation

variable {σ ω α : Type}

/-- What the entries of a program give as their source. -/
def source : String := "galaxy3d::glsl::ShaderProgram"

/-- The owner of the operation. -/
def owner : Operation σ ω ω :=
  fun s => .ok s.owner s

/-- Change the owner. -/
def update (f : ω → ω) : Operation σ ω Unit :=
  fun s => .ok () { s with owner := f s.owner }

/-- Make one entry. -/
def note (severity : Severity) (message : String) : Operation σ ω Unit :=
  fun s => .ok () { s with log := s.log ++ [Entry.report severity source message] }

/-- Report a failure and stop. -/
def fail (failure : Failure) : Operation σ ω α :=
  fun s => .error (.failed failure) { s with log := s.log ++ [Entry.ofFailure source failure] }

/-- Go on with the value of a computation that reports by itself, or stop with
    its failure. -/
def absorb (x : Logged (Except Failure α)) : Operation σ ω α :=
  fun s =>
    let after := { s with log := s.log ++ x.entries }
    match x.value with
    | .ok a => .ok a after
    | .error failure => .error (.failed failure) after

/-- Take the lock on the device, which fails once it is poisoned. -/
def lock : Operation σ ω Unit :=
  fun s => if s.shared.poisoned then fail (.backend "Device lock poisoned") s else .ok () s

/-- Make a request of the device, under the lock. A crash poisons the lock. -/
def ask [Device σ] (r : Request) : Operation σ ω r.Reply :=
  fun s =>
    let result := Device.answer s.shared.device r
    let after := { s with
      shared := ⟨result.2, s.shared.poisoned || result.1.crashed⟩
      calls := s.calls ++ [⟨r, result.1⟩] }
    if result.1.crashed then .error .crashed after else .ok result.1.reply after

/-- Run an operation: what it came to, and the session as it was left. -/
def run (op : Operation σ ω α) (s : Session σ ω) : Except Interruption α × Session σ ω :=
  match op s with
  | .ok a after => (.ok a, after)
  | .error stop after => (.error stop, after)

theorem bind_run {β : Type} (x : Operation σ ω α) (f : α → Operation σ ω β) (s : Session σ ω) :
    (x >>= f) s = match x s with
      | .ok a after => f a after
      | .error stop after => .error stop after := by
  simp only [bind, EStateM.bind]
  cases x s <;> rfl

theorem run_map {β : Type} (x : Operation σ ω α) (f : α → β) (s : Session σ ω) :
    run (x >>= fun a => pure (f a)) s = ((run x s).1.map f, (run x s).2) := by
  simp only [run, bind_run]
  cases x s with
  | ok a after => rfl
  | error stop after => rfl

@[simp] theorem owner_run (s : Session σ ω) : owner s = .ok s.owner s := rfl

@[simp] theorem update_run (f : ω → ω) (s : Session σ ω) :
    update f s = .ok () { s with owner := f s.owner } := rfl

@[simp] theorem fail_run (failure : Failure) (s : Session σ ω) :
    (fail failure : Operation σ ω α) s =
      .error (.failed failure) { s with log := s.log ++ [Entry.ofFailure source failure] } := rfl

theorem lock_poisoned {s : Session σ ω} (h : s.shared.poisoned = true) :
    (lock : Operation σ ω Unit) s = fail (.backend "Device lock poisoned") s := by
  simp only [lock, h, if_true]

theorem lock_free {s : Session σ ω} (h : s.shared.poisoned = false) :
    (lock : Operation σ ω Unit) s = .ok () s := by
  simp only [lock, h, Bool.false_eq_true, if_false]

end Operation

end ShaderBuild
