import ShaderBuild.Program.Operations
import ShaderBuild.Proofs.Device.Journal

/-!
# Steps of Program Operations

What the parts that operations on programs are made of do to a session, one
equation for each, so that a proof about an operation never opens them.

The parts that go to the device are described for a device that is calm, and
the check of the phase both ways: where it lets the operation go on, and where
it refuses it. Which entries are made is left open; the calls are not.

## Theorems

* `enter_run`: A change of phase.
* `require_run`: A phase that fits is no obstacle.
* `require_refused`: A phase that does not fit ends the operation.
* `attach_run`: Binding a buffer to a block takes two requests.
* `version_run`: The version line comes from the device.
* `absorb_run`, `absorb_failed`: A pass that succeeds is carried on, and one that
  fails ends the operation.
* `compile_accepted`, `compile_rejected`: Compiling what the device accepts, and
  what it does not.
* `addStage_unread`, `addStage_flattened`: A source that cannot be flattened, and
  one that can and is compiled.
* `addStage_accepted`, `addStage_rejected`: A stage that the device accepts, and
  one that it does not.
-/

namespace ShaderBuild

namespace Program

open Operation

variable {σ ω : Type}

@[simp] theorem enter_run (phase : Phase) (s : Session σ Program) :
    enter phase s = .ok () { s with owner := { s.owner with phase } } := rfl

theorem require_run {fits : Phase → Bool} (refusal : Refusal) {s : Session σ Program}
    (h : fits s.owner.phase = true) : require fits refusal s = .ok () s := by
  simp only [require, bind_run, owner_run, h, if_true]
  rfl

theorem require_refused {fits : Phase → Bool} (refusal : Refusal) {s : Session σ Program}
    (h : fits s.owner.phase = false) :
    require fits refusal s = fail (.invalidState (refusal.message s.owner)) s := by
  simp only [require, bind_run, owner_run, h, Bool.false_eq_true, if_false]

theorem attach_run [Device σ] {s : Session σ Program} (calm : Device.Calm s.shared.device)
    (index : UInt32) (b : UniformBuffer) :
    attach index b s = .ok () (s.asked [.bindBuffer b.bindingPoint b.buffer,
      .bindBlock s.owner.handle index b.bindingPoint]) := by
  simp only [attach, bind_run, owner_run]
  rw [ask_run calm]
  dsimp only
  rw [ask_run (Device.calm_after calm _), Session.asked_asked]
  rfl

theorem version_run [Device σ] {s : Session σ ω} (free : s.shared.poisoned = false)
    (calm : Device.Calm s.shared.device) :
    (version : Operation σ ω String) s =
      .ok (Device.answer s.shared.device .version).1.reply.directive (s.asked [.version]) := by
  simp only [version, bind_run]
  rw [lock_free free]
  dsimp only
  rw [ask_run calm]
  rfl

theorem absorb_run {α : Type} {x : Logged (Except Failure α)} {a : α} (h : x.value = .ok a)
    (s : Session σ ω) : absorb x s = .ok a { s with log := s.log ++ x.entries } := by
  simp only [absorb, h]

theorem absorb_failed {α : Type} {x : Logged (Except Failure α)} {e : Failure}
    (h : x.value = .error e) (s : Session σ ω) :
    absorb x s = .error (.failed e) { s with log := s.log ++ x.entries } := by
  simp only [absorb, h]

theorem compile_accepted [Device σ] {s : Session σ Program} (free : s.shared.poisoned = false)
    (calm : Device.Calm s.shared.device) {stage : Stage} (path : Path) {source : Flattened}
    (reply : (Device.answer s.shared.device
      (.compile s.owner.handle stage source.text)).1.reply = .ok ()) :
    ∃ log, compile stage path source s =
      .ok () { s.asked [.compile s.owner.handle stage source.text] with
        owner := { s.owner with
          phase := .compiled
          autoresolve := s.owner.autoresolve ++ source.autoresolve }
        log } := by
  simp only [compile, bind_run, owner_run]
  rw [lock_free free]
  simp only [enter_run]
  rw [ask_run (by exact calm)]
  simp only [reply]
  exact ⟨_, rfl⟩

theorem compile_rejected [Device σ] {s : Session σ Program} (free : s.shared.poisoned = false)
    (calm : Device.Calm s.shared.device) {stage : Stage} (path : Path) {source : Flattened}
    {e : Failure} (reply : (Device.answer s.shared.device
      (.compile s.owner.handle stage source.text)).1.reply = .error e) :
    ∃ log, compile stage path source s =
      .error (.failed e) { s.asked [.compile s.owner.handle stage source.text] with
        owner := { s.owner with phase := .compileFailed }
        log } := by
  simp only [compile, bind_run, owner_run]
  rw [lock_free free]
  simp only [enter_run]
  rw [ask_run (by exact calm)]
  simp only [reply]
  exact ⟨_, rfl⟩

theorem addStage_unread [Device σ] {around : Surroundings} (stage : Stage)
    {source : StageSource} {s : Session σ Program} (fits : s.owner.phase ≠ .compileFailed)
    (free : s.shared.poisoned = false) (calm : Device.Calm s.shared.device) {e : Failure}
    (failed : (source.flatten ⟨⟨s.owner.includePaths, around.sharedPaths⟩, around.tree,
      (Device.answer s.shared.device .version).1.reply.directive.toList⟩).value = .error e) :
    ∃ log, addStage around stage source s =
      .error (.failed e) { s.asked [.version] with log } := by
  -- The guard passes and the version is asked for, so it ends where the source is read.
  simp only [addStage, bind_run]
  rw [require_run .stageFailed (decide_eq_true fits)]
  dsimp only
  rw [version_run free calm]
  simp only [owner_run, Session.asked_owner]
  rw [absorb_failed failed]
  exact ⟨_, rfl⟩

theorem addStage_flattened [Device σ] {around : Surroundings} (stage : Stage)
    {source : StageSource} {s : Session σ Program} (fits : s.owner.phase ≠ .compileFailed)
    (free : s.shared.poisoned = false) (calm : Device.Calm s.shared.device) {flattened : Flattened}
    (value : (source.flatten ⟨⟨s.owner.includePaths, around.sharedPaths⟩, around.tree,
      (Device.answer s.shared.device .version).1.reply.directive.toList⟩).value = .ok flattened) :
    ∃ log, addStage around stage source s =
      compile stage source.path flattened { s.asked [.version] with log } := by
  simp only [addStage, bind_run]
  rw [require_run .stageFailed (decide_eq_true fits)]
  dsimp only
  rw [version_run free calm]
  simp only [owner_run, Session.asked_owner]
  rw [absorb_run value]
  exact ⟨_, rfl⟩

theorem addStage_accepted [Device σ] {around : Surroundings} {stage : Stage}
    {source : StageSource} {s : Session σ Program} (fits : s.owner.phase ≠ .compileFailed)
    (free : s.shared.poisoned = false) (calm : Device.Calm s.shared.device) {flattened : Flattened}
    (value : (source.flatten ⟨⟨s.owner.includePaths, around.sharedPaths⟩, around.tree,
      (Device.answer s.shared.device .version).1.reply.directive.toList⟩).value = .ok flattened)
    (reply : (Device.answer (Device.after s.shared.device [.version])
      (.compile s.owner.handle stage flattened.text)).1.reply = .ok ()) :
    ∃ log, addStage around stage source s =
      .ok () { s.asked [.version, .compile s.owner.handle stage flattened.text] with
        owner := { s.owner with
          phase := .compiled
          autoresolve := s.owner.autoresolve ++ flattened.autoresolve }
        log } := by
  -- Two requests, one from each part.
  rcases addStage_flattened stage fits free calm value with ⟨before, run⟩
  rcases compile_accepted (s := { s.asked [.version] with log := before }) free
    (Device.calm_after calm _) source.path reply with ⟨log, compiled⟩
  refine ⟨log, run.trans (compiled.trans ?_)⟩
  rw [s.asked_cons .version [_]]
  rfl

theorem addStage_rejected [Device σ] {around : Surroundings} {stage : Stage}
    {source : StageSource} {s : Session σ Program} (fits : s.owner.phase ≠ .compileFailed)
    (free : s.shared.poisoned = false) (calm : Device.Calm s.shared.device) {flattened : Flattened}
    (value : (source.flatten ⟨⟨s.owner.includePaths, around.sharedPaths⟩, around.tree,
      (Device.answer s.shared.device .version).1.reply.directive.toList⟩).value = .ok flattened)
    {e : Failure} (reply : (Device.answer (Device.after s.shared.device [.version])
      (.compile s.owner.handle stage flattened.text)).1.reply = .error e) :
    ∃ log, addStage around stage source s =
      .error (.failed e) { s.asked [.version, .compile s.owner.handle stage flattened.text] with
        owner := { s.owner with phase := .compileFailed }
        log } := by
  rcases addStage_flattened stage fits free calm value with ⟨before, run⟩
  rcases compile_rejected (s := { s.asked [.version] with log := before }) free
    (Device.calm_after calm _) source.path reply with ⟨log, rejected⟩
  refine ⟨log, run.trans (rejected.trans ?_)⟩
  rw [s.asked_cons .version [_]]
  rfl

end Program

end ShaderBuild
