import ShaderBuild.Proofs.Include.Simulation
import ShaderBuild.Proofs.Program.Steps

/-!
# Adding a Stage

What adding a stage comes to, for every program, every source and every device
that answers.

There are four ends, and which of them it is depends on three things in turn.
The program may already have a failed stage; then nothing is asked of the device
at all. The source may be impossible to flatten; then the device has been asked
for its version and nothing else, and the program is as it was, whatever it had
been. Otherwise the device is handed the source, and accepts or rejects it.

Whether a source can be flattened, and what it asks to have bound, does not
depend on the version line, which is only put in front. So the ends are told
apart by the source without that line, and only the request to compile has it.
A text and a file differ in one thing, which is that the file has to be read
(`StageSource.expansion`).

## Main definitions

* `StageSource.expansion`: What a source comes to, with no line in front.
* `compileRequest`, `compileReply`: How a device is asked to compile a source, and
  what it replies.

## Theorems

* `StageSource.value_flatten`, `StageSource.flatten_failed`,
  `StageSource.flatten_ok`: A pass puts its line in front of the expansion.
* `stage_refused`, `stage_unread`, `stage_accepted`, `stage_rejected`: The four ends.
* `addStage_comesTo`: What adding a stage comes to.
-/

namespace ShaderBuild

namespace StageSource

/-- What a source comes to with no line put in front: a file has to be read, and then it
    is the text with everything it includes in place. -/
def expansion (source : StageSource) (search : SearchPath) (tree : Tree) :
    Except Failure Flattened :=
  match source with
  | .code name content => expand search tree [] ⟨name, content⟩
  | .file path =>
    match tree.readText path with
    | .error fault => .error (.unreadable path fault.message)
    | .ok content => expand search tree [] ⟨path, content⟩

theorem value_flatten (source : StageSource) (f : Flattener) :
    (source.flatten f).value = (source.expansion f.search f.tree).map f.finish := by
  cases source with
  | code name content => exact f.value_source name content
  | file path =>
      refine (f.value_file path).trans ?_
      simp only [expansion]
      cases f.tree.readText path with
      | error fault => rfl
      | ok content => rfl

section Version

variable {source : StageSource} {search : SearchPath} {tree : Tree}

theorem flatten_failed {e : Failure} (h : source.expansion search tree = .error e)
    (version : Text) : (source.flatten ⟨search, tree, version⟩).value = .error e := by
  rw [value_flatten, h]
  rfl

theorem flatten_ok {flat : Flattened} (h : source.expansion search tree = .ok flat)
    (version : Text) : (source.flatten ⟨search, tree, version⟩).value =
      .ok ⟨version ++ flat.text, flat.autoresolve, flat.included⟩ := by
  rw [value_flatten, h]
  rfl

end Version

theorem expansion_request (name : Path) (search : SearchPath) (tree : Tree) :
    (StageSource.code name "#autoresolve Camera\n".toList).expansion search tree =
      .ok ⟨['\n'], ["Camera"], []⟩ :=
  expand_request search tree name

end StageSource

namespace Program

open Operation

variable {σ : Type} [Device σ] {around : Surroundings} {stage : Stage} {source : StageSource}

/-- The request to compile a source behind the version line of a device. -/
def compileRequest (d : σ) (p : Program) (stage : Stage) (flat : Flattened) : Request :=
  .compile p.handle stage ((Device.answer d .version).1.reply.directive.toList ++ flat.text)

/-- What a device replies to a source, once it has been asked for its version. -/
def compileReply (d : σ) (p : Program) (stage : Stage) (flat : Flattened) : Except Failure Unit :=
  (Device.answer (Device.after d [.version]) (.compile p.handle stage
    ((Device.answer d .version).1.reply.directive.toList ++ flat.text))).1.reply

section Ends

variable {p : Program} {shared : Shared σ}

theorem stage_refused (failed : p.phase = .compileFailed) :
    ComesTo shared (run (addStage around stage source) (Session.start p shared))
      (.error (.failed (.invalidState (Refusal.stageFailed.message p)))) p [] := by
  have unfit : decide ((Session.start p shared).owner.phase ≠ .compileFailed) = false :=
    decide_eq_false (not_not_intro failed)
  refine comesTo_error ?_
  rw [addStage, bind_run, require_refused .stageFailed unfit, Session.asked_nil]
  exact ⟨_, rfl⟩

variable (fits : p.phase ≠ .compileFailed) (free : shared.poisoned = false)
  (calm : Device.Calm shared.device)
include fits free calm

theorem stage_unread {e : Failure}
    (failed : source.expansion ⟨p.includePaths, around.sharedPaths⟩ around.tree = .error e) :
    ComesTo shared (run (addStage around stage source) (Session.start p shared))
      (.error (.failed e)) p [.version] := comesTo_error
    (addStage_unread (s := Session.start p shared) stage fits free calm
      (StageSource.flatten_failed failed _))

variable {flat : Flattened}
  (value : source.expansion ⟨p.includePaths, around.sharedPaths⟩ around.tree = .ok flat)
include value

theorem stage_accepted (reply : compileReply shared.device p stage flat = .ok ()) :
    ComesTo shared (run (addStage around stage source) (Session.start p shared)) (.ok ())
      { p with phase := .compiled, autoresolve := p.autoresolve ++ flat.autoresolve }
      [.version, compileRequest shared.device p stage flat] := comesTo_ok
    (addStage_accepted (s := Session.start p shared) fits free calm
      (StageSource.flatten_ok value _) reply)

theorem stage_rejected {e : Failure}
    (reply : compileReply shared.device p stage flat = .error e) :
    ComesTo shared (run (addStage around stage source) (Session.start p shared))
      (.error (.failed e)) { p with phase := .compileFailed }
      [.version, compileRequest shared.device p stage flat] := comesTo_error
    (addStage_rejected (s := Session.start p shared) fits free calm
      (StageSource.flatten_ok value _) reply)

end Ends

/-- What adding a stage comes to. A program with a failed stage refuses without
    asking anything. A source that cannot be flattened costs a request for the
    version and changes nothing. Any other source is compiled behind the version
    line, and the device decides whether the blocks it asks for are added. -/
theorem addStage_comesTo (around : Surroundings) (stage : Stage) (source : StageSource)
    (p : Program) (shared : Shared σ) (free : shared.poisoned = false)
    (calm : Device.Calm shared.device) :
    let result := run (addStage around stage source) (Session.start p shared)
    if p.phase = .compileFailed then
      ComesTo shared result (.error (.failed (.invalidState (Refusal.stageFailed.message p)))) p []
    else match source.expansion ⟨p.includePaths, around.sharedPaths⟩ around.tree with
    | .error e => ComesTo shared result (.error (.failed e)) p [.version]
    | .ok flat =>
      let request := compileRequest shared.device p stage flat
      match compileReply shared.device p stage flat with
      | .ok () => ComesTo shared result (.ok ())
          { p with phase := .compiled, autoresolve := p.autoresolve ++ flat.autoresolve }
          [.version, request]
      | .error e => ComesTo shared result (.error (.failed e)) { p with phase := .compileFailed }
          [.version, request] := by
  intro result
  -- In the order of the checks: the phase, the source, the device.
  by_cases failed : p.phase = .compileFailed
  · rw [if_pos failed]
    exact stage_refused failed
  · rw [if_neg failed]
    cases value : source.expansion ⟨p.includePaths, around.sharedPaths⟩ around.tree with
    | error e => exact stage_unread failed free calm value
    | ok flat =>
        -- The source is whole from here on, so it is the device that decides.
        dsimp only
        cases reply : compileReply shared.device p stage flat with
        | ok done => exact stage_accepted failed free calm value reply
        | error e => exact stage_rejected failed free calm value reply

/-- A linked program is given one more stage, from a file that asks for a block. -/
theorem addStage_comesTo_linked :
    let p : Program := ⟨1, .linked, [], ["Lights"], []⟩
    let shared : Shared Scripted := ⟨{}, false⟩
    let tree : Tree := ⟨[(["sky.vert"], .file ("#autoresolve Camera\n".toList.map Char.toUInt8))]⟩
    ComesTo shared (run (addStage ⟨tree, []⟩ .vertex (.file ⟨"sky.vert"⟩)) (Session.start p shared))
      (.ok ()) { p with phase := .compiled, autoresolve := ["Lights", "Camera"] }
      [.version, .compile 1 .vertex "#version 450\n\n".toList] := by
  intro p shared tree
  have ends := addStage_comesTo ⟨tree, []⟩ .vertex (.file ⟨"sky.vert"⟩) p shared rfl
    (Scripted.calm rfl)
  rw [if_neg (by decide)] at ends
  have line : ContextVersion.directive ⟨4, 5, false⟩ = "#version 450\n" := by rfl
  have read : tree.readText ⟨"sky.vert"⟩ = .ok "#autoresolve Camera\n".toList := rfl
  simp only [StageSource.expansion, read, expand_request, compileRequest,
    show (Device.answer shared.device .version).1.reply.directive = _ from line] at ends
  exact ends

end Program

end ShaderBuild
