import ShaderBuild.Proofs.Device.Apart
import ShaderBuild.Proofs.Device.Calmed
import ShaderBuild.Proofs.Log.Reporting
import ShaderBuild.Workspace.Basic

/-!
# What Operations Are Made Of

The parts that operations on programs are put together from, so that what all parts
keep need not be shown of each operation in turn.

An operation works on any kind of device, and what two devices have in common can
only be said of an operation that is the same on both. So it is taken here as what
it is on every kind of device (`Generic`), and `Made` lists the ways to come by one.
All of them are about one program, known by its handle: its owner has that handle
from the beginning to the end, and nothing is asked on behalf of another.

Two of the parts owe something to the log. An operation reports an error only when it
fails; a pass over a source has done so by itself. The exception is a source that the
device rejects, which is a part of its own.

## Main definitions

* `Generic`: An operation on programs, on any kind of device.
* `Operation.Made`: The operation is made of the usual parts.

## Theorems

* `run_bind_ok`, `run_absorb`, `run_ask` and the others: What each part comes to.
* `Made.handle`: The owner has its handle to the end.
* `made_compile`, `made_link` and the others: Operations on programs are made of the
  usual parts.
* `Action.made`: So are all actions.
-/

namespace ShaderBuild

namespace Request

/-- The request hands the device a source. -/
def compiles : Request → Bool
  | .compile .. => true
  | _ => false

end Request

/-- An operation on programs, on any kind of device. -/
abbrev Generic (α : Type) := ∀ (σ : Type) [Device σ], Operation σ Program α

/-- The session once a request has been made, whether or not the device has crashed
    over it. -/
def Session.requested {σ ω : Type} [Device σ] (s : Session σ ω) (r : Request) : Session σ ω :=
  { s with
    shared := ⟨(Device.answer s.shared.device r).2,
      s.shared.poisoned || (Device.answer s.shared.device r).1.crashed⟩
    calls := s.calls ++ [⟨r, (Device.answer s.shared.device r).1⟩] }

namespace Operation

/-- What becomes of a source that the device rejects. -/
def reject {α : Type} (message : String) (e : Failure) : Generic α := fun _ _ => do
  Program.enter .compileFailed
  note .error message
  fail e

/-- The operation on the program under a handle is made of the usual parts. -/
inductive Made (h : Handle) : {α : Type} → Generic α → Prop where
  | pure {α : Type} (a : α) : Made h fun _ _ => pure a
  | fail {α : Type} (e : Failure) : Made h fun _ _ => (fail e : Operation _ Program α)
  | owner {α : Type} {f : Program → Generic α} (rest : ∀ p, p.handle = h → Made h (f p)) :
    Made h fun σ _ => owner >>= fun p => f p σ
  | update {f : Program → Program} (kept : ∀ p, (f p).handle = p.handle) :
    Made h fun _ _ => update f
  | note {severity : Severity} (mild : severity ≠ .error) (message : String) :
    Made h fun _ _ => note severity message
  | absorb {α : Type} {x : Logged (Except Failure α)} (honest : x.Honest) :
    Made h fun _ _ => absorb x
  | lock : Made h fun _ _ => lock
  | ask {r : Request} (concerns : r.Concerns h) (compiles : r.compiles = false) :
    Made h fun _ _ => ask r
  | compile {α : Type} {stage : Stage} {source : Text} {f : Except Failure Unit → Generic α}
      {message : String} (accepted : Made h (f (.ok ())))
      (rejected : ∀ e, f (.error e) = reject message e) :
    Made h fun σ _ => ask (.compile h stage source) >>= fun reply => f reply σ
  | bind {α β : Type} {x : Generic α} {f : α → Generic β} (first : Made h x)
      (rest : ∀ a, Made h (f a)) : Made h fun σ _ => x σ >>= fun a => f a σ

section Run

variable {σ ω α β : Type} {s after : Session σ ω}

theorem run_bind_ok {x : Operation σ ω α} {a : α} (h : run x s = (.ok a, after))
    (f : α → Operation σ ω β) : run (x >>= f) s = run (f a) after := by
  rw [run_bind, h]

theorem run_bind_error {x : Operation σ ω α} {stop : Interruption}
    (h : run x s = (.error stop, after)) (f : α → Operation σ ω β) :
    run (x >>= f) s = (.error stop, after) := by
  rw [run_bind, h]

theorem run_fail (e : Failure) (s : Session σ ω) :
    run (fail e : Operation σ ω α) s =
      (.error (.failed e), { s with log := s.log ++ [Entry.ofFailure source e] }) := rfl

theorem run_absorb (x : Logged (Except Failure α)) (s : Session σ ω) :
    run (absorb x) s = (x.value.mapError .failed, { s with log := s.log ++ x.entries }) := by
  simp only [run, absorb]
  cases x.value <;> rfl

theorem run_lock (s : Session σ ω) :
    run lock s = if s.shared.poisoned then run (fail (.backend "Device lock poisoned")) s
      else (.ok (), s) := by
  simp only [run, lock]
  cases s.shared.poisoned <;> rfl

theorem run_reject [Device σ] (message : String) (e : Failure) (s : Session σ Program) :
    run (reject message e σ : Operation σ Program α) s = (.error (.failed e),
      { s with
        owner := { s.owner with phase := .compileFailed }
        log := s.log ++ [Entry.report .error source message] ++ [Entry.ofFailure source e] }) :=
  rfl

variable [Device σ]

theorem run_ask (r : Request) (s : Session σ ω) :
    run (ask r) s = (if (Device.answer s.shared.device r).1.crashed then .error .crashed
      else .ok (Device.answer s.shared.device r).1.reply, s.requested r) := by
  cases crashed : (Device.answer s.shared.device r).1.crashed with
  | true => simp only [run, ask, Session.requested, crashed, if_true]
  | false => simp only [run, ask, Session.requested, crashed, Bool.false_eq_true, if_false]

theorem owner_of_ask {r : Request} {outcome : Except Interruption r.Reply}
    (asked : run (ask r) s = (outcome, after)) : after.owner = s.owner := by
  rw [run_ask] at asked
  rw [← (Prod.mk.inj asked).2]
  rfl

/-- The device crashes over a source, or accepts it and the operation goes on, or
    rejects it. -/
theorem run_compile {h : Handle} {stage : Stage} {source : Text} {message : String}
    {f : Except Failure Unit → Generic α} (rejected : ∀ e, f (.error e) = reject message e)
    (s : Session σ Program) :
    let r : Request := .compile h stage source
    let answer := (Device.answer s.shared.device r).1
    let result := run (ask r >>= fun reply => f reply σ) s
    answer.crashed = true ∧ result = (.error .crashed, s.requested r) ∨
      answer.crashed = false ∧ answer.reply = .ok () ∧
        result = run (f (.ok ()) σ) (s.requested r) ∨
      ∃ e, answer.crashed = false ∧ answer.reply = .error e ∧
        result = run (reject message e σ) (s.requested r) := by
  intro r answer result
  have asked := run_ask r s
  cases crashed : answer.crashed with
  | true =>
      rw [if_pos crashed] at asked
      exact Or.inl ⟨rfl, run_bind_error asked _⟩
  | false =>
      rw [if_neg (Bool.eq_false_iff.mp crashed)] at asked
      have goes : result = run (f answer.reply σ) (s.requested r) := run_bind_ok asked _
      cases reply : answer.reply with
      | ok done => exact Or.inr (Or.inl ⟨rfl, rfl, by rw [goes, reply]⟩)
      | error e => exact Or.inr (Or.inr ⟨e, rfl, rfl, by rw [goes, reply, rejected]⟩)

variable {h : Handle} {x : Generic α}

/-- The owner has its handle to the end. -/
theorem Made.handle (made : Made h x) {s : Session σ Program} (named : s.owner.handle = h) :
    (run (x σ) s).2.owner.handle = h := by
  -- Induction on how the operation is made. The device never sees the owner.
  induction made generalizing s with
  | pure a => exact named
  | fail e => exact named
  | owner rest ih => exact ih s.owner named named
  | update kept => exact (kept s.owner).trans named
  | note mild message => exact named
  | absorb honest => rwa [run_absorb]
  | lock =>
      rw [run_lock]
      split <;> exact named
  | ask concerns compiles => rwa [run_ask]
  | compile accepted rejected ih =>
      -- After a crash and a rejection the owner is the same; else it goes on with the source.
      rcases run_compile rejected s with ⟨-, ran⟩ | ⟨-, -, ran⟩ | ⟨e, -, -, ran⟩
      · rwa [ran]
      · rw [ran]
        exact ih named
      · rwa [ran, run_reject]
  | @bind α β x f first rest ih later =>
      have kept := ih named
      rcases hx : run (x σ) s with ⟨stop | a, after⟩
      · rw [hx] at kept
        rwa [run_bind_error hx]
      · rw [hx] at kept
        rw [run_bind_ok hx]
        exact later a kept

end Run

end Operation

namespace Program

open Operation

variable {h : Handle}

theorem made_require (fits : Phase → Bool) (refusal : Refusal) :
    Made h fun _ _ => require fits refusal := by
  refine .owner fun p _ => ?_
  cases fits p.phase with
  | true => exact .pure ()
  | false => exact .fail _

theorem made_enter (phase : Phase) : Made h fun _ _ => enter phase :=
  .update fun _ => rfl

theorem made_version : Made h fun _ _ => version :=
  .bind .lock fun _ => .bind (.ask (.of_nobody nofun rfl) rfl) fun _ => .pure _

theorem made_compile (stage : Stage) (path : Path) (source : Flattened) :
    Made h fun _ _ => compile stage path source := by
  -- The part that hands the source to the device is the last one, with its two ways on.
  refine .owner fun p named => .bind .lock fun _ => .bind (made_enter _) fun _ => ?_
  subst named
  exact .compile (.bind (.note (by decide) _) fun _ => .bind (.update fun _ => rfl) fun _ =>
    made_enter _) fun e => rfl

theorem made_addStage (around : Surroundings) (stage : Stage) (source : StageSource) :
    Made h fun _ _ => addStage around stage source :=
  .bind (made_require _ _) fun _ => .bind made_version fun _ => .owner fun _ _ =>
    .bind (.absorb (source.honest_flatten _)) fun _ => made_compile _ _ _

theorem made_removeStages : Made h fun _ _ => removeStages := by
  exact .owner fun p named => .bind .lock fun _ => .bind (.ask (.of_program rfl named) rfl)
    fun _ => .update fun _ => rfl

theorem made_attach (index : UInt32) (b : UniformBuffer) :
    Made h fun _ _ => attach index b := by
  exact .owner fun p named => .bind (.ask (.of_nobody nofun rfl) rfl) fun _ =>
    .ask (.of_program rfl named) rfl

theorem made_bindAll (registry : Registry) (names : List String) :
    Made h fun _ _ => bindAll registry names := by
  induction names with
  | nil => exact .pure none
  | cons name rest ih =>
      refine .owner fun p named => .bind (.ask (.of_program rfl named) rfl) fun index => ?_
      -- It goes on with the rest only if there is such a block and a buffer for it.
      cases index with
      | none => exact .pure _
      | some index =>
          cases registry.find? name with
          | none => exact .pure _
          | some b =>
              exact .bind (made_attach index b) fun _ => .bind (.note (by decide) _) fun _ =>
                .bind (.update fun _ => rfl) fun _ => ih

theorem made_bindRequested (registry : Registry) :
    Made h fun _ _ => bindRequested registry := by
  refine .owner fun p named => .bind (.ask (.of_program rfl named) rfl) fun _ =>
    .bind (made_bindAll registry _) fun failed =>
      .bind (.ask (.of_nobody nofun rfl) rfl) fun _ => ?_
  cases failed with
  | some failure => exact .fail failure
  | none => exact .bind (made_enter _) fun _ => .owner fun _ _ => .note (by decide) _

theorem made_link (registry : Registry) : Made h fun _ _ => link registry := by
  refine .bind (made_require _ _) fun _ => .bind (.update fun _ => rfl) fun _ => .bind .lock fun _ =>
    -- A refusal is noted in the phase; success goes on to the blocks, if any were asked for.
    .owner fun p named => .bind (.ask (.of_program rfl named) rfl) fun reply => ?_
  cases reply with
  | error failure => exact .bind (made_enter _) fun _ => .fail failure
  | ok done =>
      refine .bind (made_enter _) fun _ => ?_
      -- Which blocks were asked for is read before anything is bound.
      by_cases plain : p.autoresolve = []
      · simp only [plain, if_true]
        exact .note (by decide) _
      · simp only [plain, if_false]
        exact made_bindRequested registry

theorem made_blockIndex (block : String) : Made h fun _ _ => blockIndex block := by
  exact .owner fun p named => .bind .lock fun _ => .ask (.of_program rfl named) rfl

theorem made_bindBlock (block : String) (b : UniformBuffer) :
    Made h fun _ _ => bindBlock block b := by
  refine .bind (made_require _ _) fun _ => .bind .lock fun _ => .owner fun p named =>
    .bind (.ask (.of_program rfl named) rfl) fun index => ?_
  cases index with
  | none => exact .fail _
  | some index => exact made_attach index b

theorem made_bindBlockAt (index : UInt32) (b : UniformBuffer) :
    Made h fun _ _ => bindBlockAt index b :=
  .bind (made_require _ _) fun _ => .bind .lock fun _ => made_attach index b

end Program

namespace Action

open Operation Program

/-- Every action on a program is made of the usual parts. -/
theorem made (around : Surroundings) (registryOf : String → Registry) (h : Handle)
    (action : Action) : Made h fun _ _ => action.run around registryOf := by
  cases action with
  | addIncludePath path =>
      exact .bind (.bind (made_require _ _) fun _ => .update fun _ => rfl) fun _ => .pure _
  | addStage stage source => exact .bind (made_addStage _ _ _) fun _ => .pure _
  | removeStages => exact .bind made_removeStages fun _ => .pure _
  | link registry => exact .bind (made_link _) fun _ => .pure _
  | blockIndex block => exact .bind (made_blockIndex _) fun _ => .pure _
  | bindBlock block b => exact .bind (made_bindBlock _ _) fun _ => .pure _
  | bindBlockAt index b => exact .bind (made_bindBlockAt _ _) fun _ => .pure _
  | version => exact .bind made_version fun _ => .pure _
  | inspect => exact .owner fun _ _ => .pure _

end Action

end ShaderBuild
