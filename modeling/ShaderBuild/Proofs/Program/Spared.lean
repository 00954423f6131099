import ShaderBuild.Proofs.Device.Calmed
import ShaderBuild.Proofs.Program.Effects
import ShaderBuild.Proofs.Program.History
import ShaderBuild.Proofs.Program.Parts
import ShaderBuild.Proofs.Program.Poisoned

/-!
# Programs Spared by Crashes

The histories of programs over which no device has crashed.

A turn may find a device that would crash over something it is not asked, or one
that is poisoned, and still go well or fail in an orderly way. All that counts is
that it was not torn down. Such a turn is known as well as one on a calm device:
its calls and the program it leaves are those of one of the effects of its action,
on the calmed device (`Action.effect_of_spared`). The exception is a turn that was
refused the lock, which has made no call and has at most forgotten what was bound.

## Main definitions

* `Spared`: A program that has had some turns, none of them torn down.

## Theorems

* `Made.agrees`: What is made of the usual parts does the same on a calmed device.
* `Action.agrees_run`: So do all actions.
* `effect_of_idle`: An action that does not go to the device needs none in order.
* `unlocked_or_effect`: The ways an action can go on a calm device.
* `effect_of_spared`: What a turn that was not torn down has done.
* `Lived.spared`: Devices in order spare a program.
-/

namespace ShaderBuild

namespace Operation

variable {σ : Type} [Device σ] {h : Handle} {α : Type} {x : Generic α}

/-- An operation that meets no crash does the same on the calmed device. -/
theorem Made.agrees (made : Made h x) {s : Session σ Program} (named : s.owner.handle = h)
    (spared : (run (x σ) s).1 ≠ .error .crashed) :
    run (x (Calmed σ)) s.calmed = ((run (x σ) s).1, (run (x σ) s).2.calmed) := by
  -- Induction on how the operation is made: only an answer can tear it down.
  induction made generalizing s with
  | pure a => rfl
  | fail e => rfl
  | owner rest ih => exact ih s.owner named named spared
  | update kept => rfl
  | note mild message => rfl
  | absorb honest => exact agrees_absorb _ s spared
  | lock => exact agrees_lock s spared
  | ask concerns compiles => exact agrees_ask _ s spared
  | compile accepted rejected ih =>
      refine agrees_bind (agrees_ask _ s) (fun reply after asked spared => ?_) spared
      have kept : after.owner.handle = h := owner_of_ask asked ▸ named
      cases reply with
      | ok done => exact ih kept spared
      | error e => simp only [rejected]; rfl
  | bind first rest ih later =>
      refine agrees_bind (ih named) (fun a after ran spared => later a ?_ spared) spared
      have kept := first.handle named
      rwa [ran] at kept

end Operation

theorem Program.agrees_link {σ : Type} [Device σ] (registry : Registry) :
    Operation.Agrees (link registry : Operation σ Program Unit) (link registry) :=
  fun _ spared => (made_link registry).agrees rfl spared

namespace Action

open Operation Program

variable {σ : Type} [Device σ]

/-- An action agrees with itself on a calmed device. -/
theorem agrees_run (around : Surroundings) (registryOf : String → Registry) (action : Action) :
    Agrees (action.run around registryOf : Operation σ Program Reply)
      (action.run around registryOf) :=
  fun s spared => (action.made around registryOf s.owner.handle).agrees rfl spared

variable (around : Surroundings) (registryOf : String → Registry) {action : Action}
  {p : Program} {shared : Shared σ}

theorem effect_of_idle (needs : action.needsDevice = false) :
    ∃ outcome left requests,
      Effect around registryOf shared.device p action outcome left requests ∧
      ComesTo shared (Operation.run (action.run around registryOf) (Session.start p shared))
        outcome left requests := by
  -- Neither of the two asks the device anything, so it does not matter how it is.
  cases action with
  | addIncludePath path =>
      cases opened : p.phase.isCycleOpen with
      | false => exact ⟨_, _, _, .searching opened, (addIncludePath_comesTo path opened).map _⟩
      | true =>
          have unfit : (!p.phase.isCycleOpen) = false := by rw [opened]; rfl
          exact ⟨_, _, _, .refused unfit, (require_comesTo unfit).map _⟩
  | inspect => exact ⟨_, _, _, .inspected, inspect_comesTo around registryOf⟩
  | _ => cases needs

/-- An action on a calm device is refused the lock, or it has one of its effects. -/
theorem unlocked_or_effect (calm : Device.Calm shared.device) (action : Action) :
    (∃ outcome left,
      ComesTo shared (Operation.run (action.run around registryOf) (Session.start p shared))
        outcome left [] ∧ (left = p ∨ left = { p with bound := [] })) ∨
      ∃ outcome left requests,
        Effect around registryOf shared.device p action outcome left requests ∧
        ComesTo shared (Operation.run (action.run around registryOf) (Session.start p shared))
          outcome left requests := by
  cases poisoned : shared.poisoned with
  | false => exact Or.inr (effect_of_run around registryOf poisoned calm action)
  | true =>
      cases needs : action.needsDevice with
      | false => exact Or.inr (effect_of_idle around registryOf needs)
      | true =>
          -- Refused the lock, it makes no call; only linking has changed anything by then.
          obtain ⟨left, ⟨failure, log, fails⟩, kept, forgets⟩ :=
            fails_run (s := Session.start p shared) around registryOf needs poisoned
          refine Or.inl ⟨.error (.failed failure), left, comesTo_error ⟨log, ?_⟩, ?_⟩
          · rw [fails, Session.asked_nil]
          · by_cases hforgets : action.Forgets p
            · exact Or.inr (forgets hforgets)
            · exact Or.inl (kept.mpr hforgets)

/-- A turn that was not torn down was refused the lock, or it had an effect of its
    action on the calmed device. -/
theorem effect_of_spared (intact : (Operation.run (action.run around registryOf)
      (Session.start p shared)).1 ≠ .error .crashed) :
    let left := action.session around registryOf p shared
    (left.calls = [] ∧ (left.owner = p ∨ left.owner = { p with bound := [] })) ∨
      ∃ outcome requests,
        Effect around registryOf (Calmed.mk shared.device) p action outcome left.owner requests ∧
        left.calls = Device.journal (Calmed.mk shared.device) requests := by
  intro left
  -- All of it is read off the same action on the calmed device.
  let calmed : Shared (Calmed σ) := ⟨⟨shared.device⟩, shared.poisoned⟩
  have same : Operation.run (action.run around registryOf) (Session.start p calmed) =
      (_, left.calmed) := agrees_run around registryOf action (Session.start p shared) intact
  have ways := unlocked_or_effect around registryOf (p := p) (Calmed.calm calmed.device) action
  rw [same] at ways
  rcases ways with ⟨outcome, owner, ends, kept⟩ | ⟨outcome, owner, requests, effect, ends⟩
  · obtain rfl : left.owner = owner := ends.owner
    exact Or.inl ⟨ends.calls, kept⟩
  · obtain rfl : left.owner = owner := ends.owner
    exact Or.inr ⟨outcome, requests, effect, ends.calls⟩

end Action

/-- A program that was created under a handle, has had some turns, and is now as
    given. No device has crashed over any of the turns. -/
inductive Spared (σ : Type) [Device σ] (h : Handle) : List Turn → Program → Prop where
  | created : Spared σ h [] (Program.new h)
  | acted {turns : List Turn} {p : Program} (before : Spared σ h turns p) (around : Surroundings)
      (registryOf : String → Registry) (action : Action) (shared : Shared σ)
      (intact : (Operation.run (action.run around registryOf) (Session.start p shared)).1 ≠
        .error .crashed) :
    Spared σ h (turns ++ [action.turn around registryOf p shared])
      (action.session around registryOf p shared).owner

/-- Devices in order spare a program. -/
theorem Lived.spared {σ : Type} [Device σ] {h : Handle} {turns : List Turn} {p : Program}
    (lived : Lived σ h turns p) : Spared σ h turns p := by
  induction lived with
  | created => exact .created
  | acted before around registryOf action shared free calm ih =>
      refine ih.acted around registryOf action shared ?_
      obtain ⟨outcome, left, requests, effect, ends⟩ :=
        Action.effect_of_run around registryOf free calm action
      -- No effect ends in a crash.
      rw [ends.outcome]
      cases effect <;> exact nofun

end ShaderBuild
