import ShaderBuild.Proofs.Program.Linking
import ShaderBuild.Proofs.Program.Staging
import ShaderBuild.Workspace.Basic

/-!
# Effects of Actions

Everything an action can do, said once. An effect is one way an action on a
device in order can go: its outcome, the program it leaves, the requests it
makes, and when it goes that way. A property that every action keeps is then a
case for each effect, and nobody has to open an operation again.

Most effects leave the program as it was. Those that do not are few: a search
path more, a stage accepted or rejected, all stages removed, and the four ends
of linking.

## Main definitions

* `Action.fits`: The phases an action fits.
* `Action.Effect`: The ways an action can go.

## Theorems

* `require_comesTo`: An operation behind a check of the phase.
* `link_refused`, `link_plain`, `link_bound`: The ends of linking.
* `bindBlock_missing`, `bindBlock_attached`: The ends of binding one block.
* `Action.effect_of_run`: An action on a device in order has one of its effects.
-/

namespace ShaderBuild

namespace Program

open Operation

variable {σ : Type} [Device σ] {p : Program} {shared : Shared σ}

theorem require_comesTo {α : Type} {fits : Phase → Bool} {refusal : Refusal}
    {f : Unit → Operation σ Program α} (unfit : fits p.phase = false) :
    ComesTo shared (run (require fits refusal >>= f) (Session.start p shared))
      (.error (.failed (.invalidState (refusal.message p)))) p [] := by
  refine comesTo_error ?_
  rw [bind_run, require_refused (s := Session.start p shared) refusal unfit, Session.asked_nil]
  exact ⟨_, rfl⟩

theorem addIncludePath_comesTo (path : Path) (fits : p.phase.isCycleOpen = false) :
    ComesTo shared (run (addIncludePath path) (Session.start p shared)) (.ok ())
      { p with includePaths := p.includePaths ++ [path] } [] := by
  have closed : (!(Session.start p shared).owner.phase.isCycleOpen) = true := by
    rw [Session.start, fits]
    rfl
  refine comesTo_ok ?_
  rw [addIncludePath, bind_run, require_run (.includePathFixed path) closed, Session.asked_nil]
  exact ⟨_, rfl⟩

variable (free : shared.poisoned = false) (calm : Device.Calm shared.device)
include free calm

theorem version_comesTo :
    ComesTo shared (run version (Session.start p shared))
      (.ok (Device.answer shared.device .version).1.reply.directive) p [.version] :=
  comesTo_ok ⟨_, version_run (s := Session.start p shared) free calm⟩

theorem removeStages_comesTo :
    ComesTo shared (run removeStages (Session.start p shared)) (.ok ())
      { p with phase := .empty, autoresolve := [], bound := [] } [.removeStages p.handle] := by
  refine comesTo_ok ?_
  simp only [removeStages, bind_run, owner_run]
  rw [lock_free (by exact free)]
  dsimp only
  rw [ask_run (by exact calm)]
  exact ⟨_, rfl⟩

theorem blockIndex_comesTo (block : String) :
    ComesTo shared (run (blockIndex block) (Session.start p shared))
      (.ok (Device.answer shared.device (.blockIndex p.handle block)).1.reply) p
      [.blockIndex p.handle block] := by
  refine comesTo_ok ?_
  simp only [blockIndex, bind_run, owner_run]
  rw [lock_free (by exact free)]
  dsimp only
  rw [ask_run (by exact calm)]
  exact ⟨_, rfl⟩

section Linked

variable (fits : p.phase.isLinked = true)
include fits

theorem bindBlock_missing {block : String} {b : UniformBuffer}
    (missing : (Device.answer shared.device (.blockIndex p.handle block)).1.reply = none) :
    ComesTo shared (run (bindBlock block b) (Session.start p shared))
      (.error (.failed (.invalidResource
        s!"Uniform block `{block}` not found in program {p.handle}"))) p
      [.blockIndex p.handle block] := by
  refine comesTo_error ?_
  simp only [bindBlock, bind_run]
  rw [require_run .notLinked (by exact fits)]
  dsimp only
  rw [lock_free (by exact free)]
  simp only [owner_run]
  rw [ask_run (by exact calm)]
  simp only [Session.start, missing]
  exact ⟨_, rfl⟩

theorem bindBlock_attached {block : String} {b : UniformBuffer} {index : UInt32}
    (found : (Device.answer shared.device (.blockIndex p.handle block)).1.reply = some index) :
    ComesTo shared (run (bindBlock block b) (Session.start p shared)) (.ok ()) p
      [.blockIndex p.handle block, .bindBuffer b.bindingPoint b.buffer,
        .bindBlock p.handle index b.bindingPoint] := by
  let s := Session.start p shared
  refine comesTo_ok ?_
  simp only [bindBlock, bind_run]
  rw [require_run .notLinked (by exact fits)]
  dsimp only
  rw [lock_free (by exact free)]
  simp only [owner_run]
  rw [ask_run (by exact calm)]
  simp only [Session.start, found]
  rw [attach_run (by exact Device.calm_after calm [.blockIndex p.handle block]),
    Session.asked_asked]
  exact ⟨_, rfl⟩

theorem bindBlockAt_comesTo (index : UInt32) (b : UniformBuffer) :
    ComesTo shared (run (bindBlockAt index b) (Session.start p shared)) (.ok ()) p
      [.bindBuffer b.bindingPoint b.buffer, .bindBlock p.handle index b.bindingPoint] := by
  refine comesTo_ok ?_
  simp only [bindBlockAt, bind_run]
  rw [require_run .notLinked (by exact fits)]
  dsimp only
  rw [lock_free (by exact free)]
  dsimp only
  rw [attach_run (by exact calm)]
  exact ⟨_, rfl⟩

end Linked

section Linking

variable {registry : Registry} (fits : p.phase.canLink = true)
include fits

theorem link_refused {e : Failure}
    (reply : (Device.answer shared.device (.link p.handle)).1.reply = .error e) :
    ComesTo shared (run (link registry) (Session.start p shared)) (.error (.failed e))
      { p with phase := .linkFailed, bound := [] } [.link p.handle] := by
  refine comesTo_error ?_
  rw [link_answered (s := Session.start p shared) registry fits free calm _ reply]
  exact ⟨_, rfl⟩

theorem link_plain (reply : (Device.answer shared.device (.link p.handle)).1.reply = .ok ())
    (plain : p.autoresolve = []) :
    ComesTo shared (run (link registry) (Session.start p shared)) (.ok ())
      { p with phase := .linked, bound := [] } [.link p.handle] := by
  refine comesTo_ok ?_
  rw [link_answered (s := Session.start p shared) registry fits free calm _ reply]
  rw [if_pos (by exact plain)]
  exact ⟨_, rfl⟩

variable (registry) in
theorem link_bound (reply : (Device.answer shared.device (.link p.handle)).1.reply = .ok ())
    (asks : p.autoresolve ≠ []) :
    ∃ blocks, LongestBound registry p.handle
        (Device.after shared.device [.link p.handle, .bind p.handle]) p.autoresolve blocks ∧
      match p.autoresolve[blocks.length]? with
      | none => ComesTo shared (run (link registry) (Session.start p shared)) (.ok ())
          { p with phase := .autoresolveBound, bound := blocks }
          (.link p.handle :: bindingRequests p.handle blocks none)
      | some name => ComesTo shared (run (link registry) (Session.start p shared))
          (.error (.failed (obstacle (Device.after shared.device [.link p.handle, .bind p.handle])
            p.handle blocks name)))
          { p with phase := .linked, bound := blocks }
          (.link p.handle :: bindingRequests p.handle blocks (some name)) := by
  let linked : Session σ Program := { (Session.start p shared).asked [.link p.handle] with
    owner := { p with phase := .linked, bound := [] } }
  rcases bindRequested_run registry linked (Device.calm_after calm _) with
    ⟨blocks, longest, log, bound⟩
  -- Linking is over by the time the names are asked for, so their loop starts from a program
  -- that is linked and has nothing bound.
  refine ⟨blocks, longest, ?_⟩
  have linking : link registry (Session.start p shared) = bindRequested registry linked := by
    rw [link_answered (s := Session.start p shared) registry fits free calm _ reply]
    rw [if_neg (by exact asks)]
    rfl
  rw [show linked.owner.autoresolve = p.autoresolve from rfl] at bound
  cases stopped : p.autoresolve[blocks.length]? with
  | none =>
      rw [stopped] at bound
      exact comesTo_ok ⟨log, linking.trans bound⟩
  | some name =>
      rw [stopped] at bound
      exact comesTo_error ⟨log, linking.trans bound⟩

end Linking

end Program

namespace Action

open Operation Program

/-- The phases an action fits. -/
def fits : Action → Phase → Bool
  | .addIncludePath _, phase => !phase.isCycleOpen
  | .addStage .., phase => phase ≠ .compileFailed
  | .link _, phase => phase.canLink
  | .bindBlock .., phase => phase.isLinked
  | .bindBlockAt .., phase => phase.isLinked
  | .removeStages, _ => true
  | .blockIndex _, _ => true
  | .version, _ => true
  | .inspect, _ => true

variable {σ : Type} [Device σ]

/-- The ways an action on a device in order can go: the outcome, the program it
    leaves and the requests it makes. -/
inductive Effect (around : Surroundings) (registryOf : String → Registry) (d : σ) (p : Program) :
    Action → Except Interruption Reply → Program → List Request → Prop where
  | refused {action : Action} {message : String} (unfit : action.fits p.phase = false) :
    Effect around registryOf d p action (.error (.failed (.invalidState message))) p []
  | searching {path : Path} (fits : p.phase.isCycleOpen = false) :
    Effect around registryOf d p (.addIncludePath path) (.ok .done)
      { p with includePaths := p.includePaths ++ [path] } []
  | unread {stage : Stage} {source : StageSource} {e : Failure} (fits : p.phase ≠ .compileFailed)
      (failed : source.expansion ⟨p.includePaths, around.sharedPaths⟩ around.tree = .error e) :
    Effect around registryOf d p (.addStage stage source) (.error (.failed e)) p [.version]
  | accepted {stage : Stage} {source : StageSource} {flat : Flattened}
      (fits : p.phase ≠ .compileFailed)
      (value : source.expansion ⟨p.includePaths, around.sharedPaths⟩ around.tree = .ok flat)
      (reply : compileReply d p stage flat = .ok ()) :
    Effect around registryOf d p (.addStage stage source) (.ok .done)
      { p with phase := .compiled, autoresolve := p.autoresolve ++ flat.autoresolve }
      [.version, compileRequest d p stage flat]
  | rejected {stage : Stage} {source : StageSource} {flat : Flattened} {e : Failure}
      (fits : p.phase ≠ .compileFailed)
      (value : source.expansion ⟨p.includePaths, around.sharedPaths⟩ around.tree = .ok flat)
      (reply : compileReply d p stage flat = .error e) :
    Effect around registryOf d p (.addStage stage source) (.error (.failed e))
      { p with phase := .compileFailed } [.version, compileRequest d p stage flat]
  | removed :
    Effect around registryOf d p .removeStages (.ok .done)
      { p with phase := .empty, autoresolve := [], bound := [] } [.removeStages p.handle]
  | unlinked {registry : String} {e : Failure} (fits : p.phase.canLink = true)
      (reply : (Device.answer d (.link p.handle)).1.reply = .error e) :
    Effect around registryOf d p (.link registry) (.error (.failed e))
      { p with phase := .linkFailed, bound := [] } [.link p.handle]
  | linked {registry : String} (fits : p.phase.canLink = true)
      (reply : (Device.answer d (.link p.handle)).1.reply = .ok ()) (plain : p.autoresolve = []) :
    Effect around registryOf d p (.link registry) (.ok .done)
      { p with phase := .linked, bound := [] } [.link p.handle]
  | bound {registry : String} {blocks : List BoundBlock} (fits : p.phase.canLink = true)
      (reply : (Device.answer d (.link p.handle)).1.reply = .ok ()) (asks : p.autoresolve ≠ [])
      (longest : LongestBound (registryOf registry) p.handle
        (Device.after d [.link p.handle, .bind p.handle]) p.autoresolve blocks)
      (all : p.autoresolve[blocks.length]? = none) :
    Effect around registryOf d p (.link registry) (.ok .done)
      { p with phase := .autoresolveBound, bound := blocks }
      (.link p.handle :: bindingRequests p.handle blocks none)
  | stopped {registry : String} {blocks : List BoundBlock} {name : String}
      (fits : p.phase.canLink = true)
      (reply : (Device.answer d (.link p.handle)).1.reply = .ok ())
      (longest : LongestBound (registryOf registry) p.handle
        (Device.after d [.link p.handle, .bind p.handle]) p.autoresolve blocks)
      (next : p.autoresolve[blocks.length]? = some name) :
    Effect around registryOf d p (.link registry)
      (.error (.failed (obstacle (Device.after d [.link p.handle, .bind p.handle]) p.handle
        blocks name)))
      { p with phase := .linked, bound := blocks }
      (.link p.handle :: bindingRequests p.handle blocks (some name))
  | indexed {block : String} :
    Effect around registryOf d p (.blockIndex block)
      (.ok (.blockIndex (Device.answer d (.blockIndex p.handle block)).1.reply)) p
      [.blockIndex p.handle block]
  | missing {block : String} {b : UniformBuffer} {message : String}
      (fits : p.phase.isLinked = true)
      (reply : (Device.answer d (.blockIndex p.handle block)).1.reply = none) :
    Effect around registryOf d p (.bindBlock block b)
      (.error (.failed (.invalidResource message))) p [.blockIndex p.handle block]
  | attached {block : String} {b : UniformBuffer} {index : UInt32}
      (fits : p.phase.isLinked = true)
      (reply : (Device.answer d (.blockIndex p.handle block)).1.reply = some index) :
    Effect around registryOf d p (.bindBlock block b) (.ok .done) p
      [.blockIndex p.handle block, .bindBuffer b.bindingPoint b.buffer,
        .bindBlock p.handle index b.bindingPoint]
  | attachedAt {index : UInt32} {b : UniformBuffer} (fits : p.phase.isLinked = true) :
    Effect around registryOf d p (.bindBlockAt index b) (.ok .done) p
      [.bindBuffer b.bindingPoint b.buffer, .bindBlock p.handle index b.bindingPoint]
  | versioned :
    Effect around registryOf d p .version
      (.ok (.version (Device.answer d .version).1.reply.directive)) p [.version]
  | inspected :
    Effect around registryOf d p .inspect (.ok (.program p)) p []

theorem inspect_comesTo (around : Surroundings) (registryOf : String → Registry)
    {p : Program} {shared : Shared σ} :
    ComesTo shared (Operation.run (Action.inspect.run around registryOf) (Session.start p shared))
      (.ok (.program p)) p [] := by
  refine comesTo_ok ?_
  rw [Session.asked_nil]
  exact ⟨_, rfl⟩

section Run

variable (around : Surroundings) (registryOf : String → Registry) {p : Program}
  {shared : Shared σ} (free : shared.poisoned = false) (calm : Device.Calm shared.device)
include free calm

theorem effect_of_addStage (stage : Stage) (source : StageSource)
    (fits : p.phase ≠ .compileFailed) :
    ∃ outcome left requests,
      Effect around registryOf shared.device p (.addStage stage source) outcome left requests ∧
      ComesTo shared (Operation.run ((Action.addStage stage source).run around registryOf)
        (Session.start p shared)) outcome left requests := by
  -- First the source, then the device: the three ways on when the guard has passed.
  cases value : source.expansion ⟨p.includePaths, around.sharedPaths⟩ around.tree with
  | error e =>
      exact ⟨_, _, _, .unread fits value, (stage_unread fits free calm value).map _⟩
  | ok flat =>
      cases reply : compileReply shared.device p stage flat with
      | ok done =>
          exact ⟨_, _, _, .accepted fits value reply,
            (stage_accepted fits free calm value reply).map _⟩
      | error e =>
          exact ⟨_, _, _, .rejected fits value reply,
            (stage_rejected fits free calm value reply).map _⟩

theorem effect_of_link (registry : String) (fits : p.phase.canLink = true) :
    ∃ outcome left requests,
      Effect around registryOf shared.device p (.link registry) outcome left requests ∧
      ComesTo shared (Operation.run ((Action.link registry).run around registryOf)
        (Session.start p shared)) outcome left requests := by
  cases reply : (Device.answer shared.device (.link p.handle)).1.reply with
  | error e =>
      exact ⟨_, _, _, .unlinked fits reply, (link_refused free calm fits reply).map _⟩
  | ok done =>
      by_cases plain : p.autoresolve = []
      · exact ⟨_, _, _, .linked fits reply plain, (link_plain free calm fits reply plain).map _⟩
      · rcases link_bound free calm (registryOf registry) fits reply plain with
          ⟨blocks, longest, ends⟩
        cases stopped : p.autoresolve[blocks.length]? with
        | none =>
            rw [stopped] at ends
            exact ⟨_, _, _, .bound fits reply plain longest stopped, ends.map _⟩
        | some name =>
            rw [stopped] at ends
            exact ⟨_, _, _, .stopped fits reply longest stopped, ends.map _⟩

/-- An action on a device in order has one of its effects. -/
theorem effect_of_run (action : Action) :
    ∃ outcome left requests,
      Effect around registryOf shared.device p action outcome left requests ∧
      ComesTo shared (Operation.run (action.run around registryOf) (Session.start p shared))
        outcome left requests := by
  -- By the guard first: an action that does not fit is refused, whichever it is.
  cases checked : action.fits p.phase with
  | false =>
      cases action with
      | addIncludePath path =>
          exact ⟨_, _, _, .refused checked, (require_comesTo checked).map _⟩
      | addStage stage source =>
          exact ⟨_, _, _, .refused checked, (require_comesTo checked).map _⟩
      | link registry => exact ⟨_, _, _, .refused checked, (require_comesTo checked).map _⟩
      | bindBlock block b => exact ⟨_, _, _, .refused checked, (require_comesTo checked).map _⟩
      | bindBlockAt index b => exact ⟨_, _, _, .refused checked, (require_comesTo checked).map _⟩
      | removeStages => cases checked
      | blockIndex block => cases checked
      | version => cases checked
      | inspect => cases checked
  | true =>
      cases action with
      | addIncludePath path =>
          have fits : p.phase.isCycleOpen = false := by simpa [Action.fits] using checked
          exact ⟨_, _, _, .searching fits, (addIncludePath_comesTo path fits).map _⟩
      | addStage stage source =>
          exact effect_of_addStage around registryOf free calm stage source
            (of_decide_eq_true checked)
      | link registry => exact effect_of_link around registryOf free calm registry checked
      | bindBlock block b =>
          cases reply : (Device.answer shared.device (.blockIndex p.handle block)).1.reply with
          | none =>
              exact ⟨_, _, _, .missing checked reply,
                (bindBlock_missing free calm checked reply).map _⟩
          | some index =>
              exact ⟨_, _, _, .attached checked reply,
                (bindBlock_attached free calm checked reply).map _⟩
      | bindBlockAt index b =>
          exact ⟨_, _, _, .attachedAt checked, (bindBlockAt_comesTo free calm checked index b).map _⟩
      | removeStages => exact ⟨_, _, _, .removed, (removeStages_comesTo free calm).map _⟩
      | blockIndex block =>
          exact ⟨_, _, _, .indexed, (blockIndex_comesTo free calm block).map _⟩
      | version => exact ⟨_, _, _, .versioned, (version_comesTo free calm).map _⟩
      | inspect => exact ⟨_, _, _, .inspected, inspect_comesTo around registryOf⟩

end Run

end Action

end ShaderBuild
