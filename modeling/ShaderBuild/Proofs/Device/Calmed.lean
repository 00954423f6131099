import ShaderBuild.Proofs.Device.Journal

/-!
# Calmed Devices

What can be said of an operation that has met no crash, if the device might have
crashed over something else.

The laws of operations are about calm devices, but a device need not be calm for
all to go well: it is enough that it does not crash over what it is asked. So a
device is calmed, which leaves every reply as it is and takes the crashes away. An
operation cannot tell the two apart until it meets a crash, and then it is torn
down. Hence an operation that is not torn down does on the calmed device just
what it did on the other, with the same calls (`Agrees`), and all that is known
about calm devices is known about it.

That an operation agrees with itself on the calmed device is shown by taking it
apart: it does so if its parts do, and the only part that meets a device is a
request.

## Main definitions

* `Calmed`: A device that answers like another and crashes over nothing.
* `Session.calmed`: A session with its device calmed.
* `Operation.Agrees`: Two operations do the same up to a crash.

## Theorems

* `Calmed.calm`: A calmed device is calm.
* `Calmed.device_after`: It goes through the same states.
* `run_bind`: An operation followed by another, as a result.
* `agrees_ask`: A request is answered alike, or crashes.
* `agrees_bind`: Operations agree if their parts do.
-/

namespace ShaderBuild

/-- A device that answers like another and crashes over nothing. -/
structure Calmed (σ : Type) where
  device : σ

namespace Calmed

variable {σ : Type} [Device σ]

instance : Device (Calmed σ) where
  answer d r := (⟨(Device.answer d.device r).1.reply, false⟩, ⟨(Device.answer d.device r).2⟩)

theorem calm (d : Calmed σ) : Device.Calm d :=
  fun _ _ => rfl

theorem device_after (d : Calmed σ) (requests : List Request) :
    (Device.after d requests).device = Device.after d.device requests := by
  induction requests generalizing d with
  | nil => rfl
  | cons r rest ih => exact ih (Device.answer d r).2

end Calmed

/-- A session with its device calmed. -/
def Session.calmed {σ ω : Type} (s : Session σ ω) : Session (Calmed σ) ω :=
  ⟨s.owner, ⟨⟨s.shared.device⟩, s.shared.poisoned⟩, s.calls, s.log⟩

namespace Operation

variable {σ ω α β : Type}

theorem run_bind (x : Operation σ ω α) (f : α → Operation σ ω β) (s : Session σ ω) :
    run (x >>= f) s = match run x s with
      | (.ok a, after) => run (f a) after
      | (.error stop, after) => (.error stop, after) := by
  simp only [run, bind_run]
  cases x s with
  | ok a after => rfl
  | error stop after => rfl

/-- Unless the first operation meets a crash, the second comes to the same on the
    calmed device and leaves the same. -/
def Agrees (x : Operation σ ω α) (y : Operation (Calmed σ) ω α) : Prop :=
  ∀ s, (run x s).1 ≠ .error .crashed → run y s.calmed = ((run x s).1, (run x s).2.calmed)

theorem agrees_absorb (x : Logged (Except Failure α)) :
    Agrees (absorb x : Operation σ ω α) (absorb x) := by
  intro s _
  cases h : x.value with
  | ok a =>
      simp only [run, absorb, h]
      rfl
  | error failure =>
      simp only [run, absorb, h]
      rfl

theorem agrees_lock : Agrees (lock : Operation σ ω Unit) lock := by
  intro s _
  -- The calmed session has the same lock.
  cases poisoned : s.shared.poisoned with
  | true =>
      have poisoned' : s.calmed.shared.poisoned = true := poisoned
      simp only [run, lock_poisoned poisoned, lock_poisoned poisoned']
      rfl
  | false =>
      have free : s.calmed.shared.poisoned = false := poisoned
      simp only [run, lock_free poisoned, lock_free free]

theorem agrees_ask [Device σ] (r : Request) :
    Agrees (ask r : Operation σ ω r.Reply) (ask r) := by
  intro s spared
  cases crashed : (Device.answer s.shared.device r).1.crashed with
  | true =>
      refine absurd ?_ spared
      simp only [run, ask, crashed, if_true]
  | false =>
      -- The call is recorded with its answer, which is the calmed one then.
      have calls : (⟨r, (Device.answer s.shared.device r).1⟩ : Call) =
          ⟨r, ⟨(Device.answer s.shared.device r).1.reply, false⟩⟩ := by rw [← crashed]
      have answered : run (ask r) s.calmed =
          (.ok (Device.answer s.shared.device r).1.reply, s.calmed.asked [r]) := by
        rw [run, ask_run (Calmed.calm _)]
        rfl
      rw [answered, run, ask_answered crashed]
      simp only [Session.calmed, Session.asked, Device.journal, calls]
      rfl

/-- Operations agree at a session if their parts do where they get to. -/
theorem agrees_bind {x : Operation σ ω α} {y : Operation (Calmed σ) ω α}
    {f : α → Operation σ ω β} {g : α → Operation (Calmed σ) ω β} {s : Session σ ω}
    (first : (run x s).1 ≠ .error .crashed → run y s.calmed = ((run x s).1, (run x s).2.calmed))
    (rest : ∀ a after, run x s = (.ok a, after) → (run (f a) after).1 ≠ .error .crashed →
      run (g a) after.calmed = ((run (f a) after).1, (run (f a) after).2.calmed))
    (spared : (run (x >>= f) s).1 ≠ .error .crashed) :
    run (y >>= g) s.calmed = ((run (x >>= f) s).1, (run (x >>= f) s).2.calmed) := by
  rw [run_bind] at spared
  rw [run_bind, run_bind]
  -- The second part is reached in both or in neither.
  rcases hx : run x s with ⟨outcome, after⟩
  rw [hx] at first spared
  cases outcome with
  | ok a =>
      rw [first nofun]
      exact rest a after hx spared
  | error stop => rw [first fun torn => spared (congrArg Except.error (Except.error.inj torn))]

end Operation

end ShaderBuild
