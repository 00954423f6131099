import ShaderBuild.Proofs.Include.Simulation
import ShaderBuild.Proofs.Program.Steps
import ShaderBuild.Workspace.Basic

/-!
# Programs on a Poisoned Device

What becomes of a program when its device is out of order. Every action that
needs the device fails and makes no call, whatever phase the program is in:
either the phase does not fit and the action is refused, or the lock is.

What an action changes before it takes the lock stays changed, though. Only
linking changes anything so early. It forgets the blocks that were bound, and
nothing else, so a program whose blocks are all bound is still in the phase
that says so and has no bound blocks left. `Action.Forgets` is exactly when
that happens; in all other cases the program is left as it was.

## Main definitions

* `Operation.Fails`: An operation fails and leaves only its owner and log
  entries behind.
* `Program.unlocked`: What an attempt to link leaves if the lock is refused.
* `Action.needsDevice`: The action goes to the device.
* `Action.Forgets`: The action drops bound blocks before it takes the lock.
* `Action.runAll`: Some actions, one after another.

## Theorems

* `fails_lock`: A poisoned lock fails.
* `Fails.bind`, `fails_bind`: An operation fails with a part that fails.
* `fails_update_bind`: What was changed before the failure stays changed.
* `fails_require_bind`: A check of the phase does not save what fails behind it.
* `unlocked_eq_self_iff`: When an attempt to link changes nothing.
* `fails_link`: Linking fails, and forgets what was bound if it was allowed.
* `Action.fails_run`: Every action that goes to the device fails.
* `Action.run_poisoned`: What becomes of a program on a poisoned device.
-/

namespace ShaderBuild

namespace Operation

variable {σ ω α β : Type} {s : Session σ ω} {left : ω}

/-- An operation fails, leaving its owner as given and nothing else behind but
    log entries. -/
def Fails (x : Operation σ ω α) (s : Session σ ω) (left : ω) : Prop :=
  ∃ failure log, x s = .error (.failed failure) { s with owner := left, log }

theorem fails_fail (failure : Failure) : Fails (fail failure : Operation σ ω α) s s.owner :=
  ⟨failure, _, rfl⟩

theorem fails_lock (poisoned : s.shared.poisoned = true) :
    Fails (lock : Operation σ ω Unit) s s.owner := by
  rw [Fails, lock_poisoned poisoned]
  exact fails_fail _

theorem Fails.bind {x : Operation σ ω α} (h : Fails x s left) (f : α → Operation σ ω β) :
    Fails (x >>= f) s left := by
  rcases h with ⟨failure, log, h⟩
  exact ⟨failure, log, by rw [bind_run, h]⟩

theorem fails_bind {x : Operation σ ω α} {a : α} (hx : x s = .ok a s)
    {f : α → Operation σ ω β} (h : Fails (f a) s left) : Fails (x >>= f) s left := by
  rcases h with ⟨failure, log, h⟩
  exact ⟨failure, log, by rw [bind_run, hx]; exact h⟩

theorem fails_update_bind (change : ω → ω) {f : Unit → Operation σ ω β}
    (h : Fails (f ()) { s with owner := change s.owner } left) :
    Fails (update change >>= f) s left := by
  rcases h with ⟨failure, log, h⟩
  exact ⟨failure, log, by rw [bind_run, update_run]; exact h⟩

end Operation

namespace Program

open Operation

variable {σ : Type} {s : Session σ Program}

theorem fails_require {fits : Phase → Bool} (refusal : Refusal)
    (h : fits s.owner.phase = false) : Fails (require fits refusal) s s.owner := by
  rw [Fails, require_refused refusal h]
  exact fails_fail _

theorem fails_require_bind {α : Type} (fits : Phase → Bool) (refusal : Refusal)
    {f : Unit → Operation σ Program α} (h : Fails (f ()) s s.owner) :
    Fails (require fits refusal >>= f) s s.owner := by
  -- Whether or not the check lets it pass, the operation fails and the owner is kept.
  cases hfits : fits s.owner.phase with
  | false => exact (fails_require refusal hfits).bind f
  | true => exact fails_bind (require_run refusal hfits) h

/-- What an attempt to link leaves of a program if the lock is refused. -/
def unlocked (p : Program) : Program :=
  if p.phase.canLink then { p with bound := [] } else p

theorem unlocked_eq_self_iff (p : Program) :
    p.unlocked = p ↔ ¬ (p.phase.canLink = true ∧ p.bound ≠ []) := by
  unfold unlocked
  -- With nothing bound there is nothing to forget, and the program is the same.
  by_cases fits : p.phase.canLink = true
  · rw [if_pos fits]
    constructor
    · intro same hforgets
      exact hforgets.2 (congrArg Program.bound same).symm
    · intro kept
      cases hbound : p.bound with
      | nil => rw [← hbound]
      | cons b rest =>
          rw [hbound] at kept
          exact absurd ⟨fits, List.cons_ne_nil b rest⟩ kept
  · rw [if_neg fits]
    exact ⟨fun _ hforgets => fits hforgets.1, fun _ => rfl⟩

section Poisoned

variable [Device σ] (poisoned : s.shared.poisoned = true)
include poisoned

theorem fails_version : Fails (version : Operation σ Program String) s s.owner :=
  (fails_lock poisoned).bind _

theorem fails_addStage (around : Surroundings) (stage : Stage) (source : StageSource) :
    Fails (addStage around stage source) s s.owner :=
  fails_require_bind _ _ ((fails_version poisoned).bind _)

theorem fails_removeStages : Fails removeStages s s.owner :=
  fails_bind (owner_run s) ((fails_lock poisoned).bind _)

theorem fails_blockIndex (block : String) : Fails (blockIndex block) s s.owner :=
  fails_bind (owner_run s) ((fails_lock poisoned).bind _)

theorem fails_bindBlock (block : String) (b : UniformBuffer) :
    Fails (bindBlock block b) s s.owner :=
  fails_require_bind _ _ ((fails_lock poisoned).bind _)

theorem fails_bindBlockAt (index : UInt32) (b : UniformBuffer) :
    Fails (bindBlockAt index b) s s.owner :=
  fails_require_bind _ _ ((fails_lock poisoned).bind _)

theorem fails_link (registry : Registry) : Fails (link registry) s s.owner.unlocked := by
  unfold unlocked
  by_cases fits : s.owner.phase.canLink = true
  · rw [if_pos fits]
    refine fails_bind (require_run .cannotLink fits) (fails_update_bind _ ?_)
    -- The lock comes after the bound blocks have been dropped.
    exact (fails_lock (s := { s with owner := { s.owner with bound := [] } }) poisoned).bind _
  · rw [if_neg fits]
    exact (fails_require .cannotLink (Bool.eq_false_iff.2 fits)).bind _

end Poisoned

end Program

namespace Action

open Operation

/-- The action goes to the device. -/
def needsDevice : Action → Bool
  | .addIncludePath _ | .inspect => false
  | _ => true

/-- The action drops bound blocks before it takes the lock. -/
def Forgets (p : Program) : Action → Prop
  | .link _ => p.phase.canLink = true ∧ p.bound ≠ []
  | _ => False

/-- A program and its device after some actions, one after another. -/
def runAll {σ : Type} [Device σ] (around : Surroundings) (registryOf : String → Registry) :
    List Action → Program → Shared σ → Program × Shared σ
  | [], p, shared => (p, shared)
  | action :: rest, p, shared =>
    let s := (Operation.run (action.run around registryOf) (Session.start p shared)).2
    runAll around registryOf rest s.owner s.shared

variable {σ : Type} [Device σ]

theorem fails_run (around : Surroundings) (registryOf : String → Registry) {action : Action}
    {s : Session σ Program} (needs : action.needsDevice = true)
    (poisoned : s.shared.poisoned = true) :
    ∃ left, Fails (action.run around registryOf) s left ∧
      (left = s.owner ↔ ¬ action.Forgets s.owner) ∧
      (action.Forgets s.owner → left = { s.owner with bound := [] }) := by
  -- All but linking leave the owner alone and forget nothing.
  have kept : s.owner = s.owner ↔ ¬ False := ⟨fun _ => not_false, fun _ => rfl⟩
  cases action with
  | addIncludePath path => cases needs
  | inspect => cases needs
  | addStage stage source =>
      exact ⟨_, (Program.fails_addStage poisoned around stage source).bind _, kept, False.elim⟩
  | removeStages => exact ⟨_, (Program.fails_removeStages poisoned).bind _, kept, False.elim⟩
  | blockIndex block =>
      exact ⟨_, (Program.fails_blockIndex poisoned block).bind _, kept, False.elim⟩
  | bindBlock block b =>
      exact ⟨_, (Program.fails_bindBlock poisoned block b).bind _, kept, False.elim⟩
  | bindBlockAt index b =>
      exact ⟨_, (Program.fails_bindBlockAt poisoned index b).bind _, kept, False.elim⟩
  | version => exact ⟨_, (Program.fails_version poisoned).bind _, kept, False.elim⟩
  | link registry =>
      refine ⟨_, (Program.fails_link poisoned (registryOf registry)).bind _,
        Program.unlocked_eq_self_iff s.owner, ?_⟩
      intro forgets
      exact if_pos forgets.1

/-- What becomes of a program on a poisoned device: the action fails without a
    call, and the program is kept exactly if there is nothing to forget. -/
theorem run_poisoned (around : Surroundings) (registryOf : String → Registry) (action : Action)
    (p : Program) (shared : Shared σ) (needs : action.needsDevice = true)
    (poisoned : shared.poisoned = true) :
    let result := Operation.run (action.run around registryOf) (Session.start p shared)
    (∃ failure, result.1 = .error (.failed failure)) ∧ result.2.calls = [] ∧
      result.2.shared = shared ∧
      (result.2.owner = p ↔ ¬ action.Forgets p) ∧
      (action.Forgets p → result.2.owner = { p with bound := [] }) := by
  rcases fails_run (s := Session.start p shared) around registryOf needs poisoned with
    ⟨left, ⟨failure, log, fails⟩, same, forgotten⟩
  intro result
  have ended : result = (.error (.failed failure), ⟨left, shared, [], log⟩) := by
    simp only [result, Operation.run, fails]
    rfl
  rw [ended]
  exact ⟨⟨failure, rfl⟩, rfl, rfl, same, forgotten⟩

/-- Detaching the stages of a bound program. -/
theorem run_poisoned_removeStages :
    let p : Program := ⟨1, .autoresolveBound, [], ["Camera"], [⟨"Camera", 0, 2, 7⟩]⟩
    let shared : Shared Scripted := ⟨{}, true⟩
    (Operation.run (Action.removeStages.run default fun _ => default)
      (Session.start p shared)).2.owner = p := by
  intro p shared
  exact (run_poisoned default (fun _ => default) .removeStages p shared rfl rfl).2.2.2.1.2 id

/-- A program that has been compiled, linked and bound, and is then linked again
    on a poisoned device. -/
theorem link_poisoned_forgets_blocks :
    let registryOf : String → Registry :=
      fun _ => ⟨[("Camera", ⟨"Camera", 2, 7⟩)], by decide, by decide⟩
    let device : Scripted := { blocks := [("Camera", 0)] }
    let source : StageSource := .code ⟨"sky.vert"⟩ "#autoresolve Camera\n".toList
    let (p, shared) := runAll default registryOf [.addStage .vertex source, .link "main"]
      (Program.new 1) ⟨device, false⟩
    let result := Operation.run ((Action.link "main").run default registryOf)
      (Session.start p ⟨shared.device, true⟩)
    (p.phase = .autoresolveBound ∧ p.bound = [⟨"Camera", 0, 2, 7⟩]) ∧
      result.2.calls.isEmpty = true ∧ result.2.owner.phase = .autoresolveBound ∧
      result.2.owner.bound = [] := by
  intro registryOf device source
  have flattened : ∀ f : Flattener,
      (source.flatten f).value = .ok (f.finish ⟨['\n'], ["Camera"], []⟩) := by
    intro f
    refine (f.value_source _ _).trans ?_
    rw [expand_request]
    rfl
  have compiled : ∃ calls log, Program.addStage default .vertex source
      (Session.start (Program.new 1) ⟨device, false⟩) =
        .ok () ⟨⟨1, .compiled, [], ["Camera"], []⟩, ⟨device, false⟩, calls, log⟩ := by
    rcases Program.addStage_accepted (s := Session.start (Program.new 1) ⟨device, false⟩)
      (by decide) rfl (Scripted.calm rfl) (flattened _) rfl with ⟨log, run⟩
    exact ⟨_, log, run⟩
  rcases compiled with ⟨calls, log, compiled⟩
  -- Flattening recurses on a weight, so the stage is added by the lemma above
  -- and only the linking is left to be computed.
  have added : runAll default registryOf [.addStage .vertex source, .link "main"]
      (Program.new 1) ⟨device, false⟩ =
        runAll default registryOf [.link "main"] ⟨1, .compiled, [], ["Camera"], []⟩
          ⟨device, false⟩ := by
    rw [runAll]
    simp only [Action.run, Operation.run, bind_run]
    rw [compiled]
    rfl
  rw [added]
  simp only [registryOf, device]
  decide +kernel

end Action

end ShaderBuild
