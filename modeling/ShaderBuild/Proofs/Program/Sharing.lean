import ShaderBuild.Proofs.Program.Parts

/-!
# Programs on a Shared Device

What an operation on one program has to do with the others on the same device.

There are two things to say, and both are about the parts of operations. An operation
cannot tell apart two sessions in which its program has come equally far and the
device knows the same of it, whatever it knows of others: it comes to the same, with
the same calls, and leaves two sessions like that again (`Made.sameRun`). And on a
calm device it asks for nothing but what concerns its own program (`Made.onBehalf`),
which changes nothing about what the device knows of others.

## Main definitions

* `Session.Alike`: Two sessions of a program that it cannot tell apart.
* `Session.AskedFor`: Nothing was asked in between but what concerns one program.
* `Operation.SameRun`, `Operation.OnBehalf`: The same of what an operation comes to.

## Theorems

* `sameRun_bind`, `sameRun_ask`, `Made.sameRun`: Operations do not tell alike sessions
  apart.
* `AskedFor.trans`, `onBehalf_bind`, `Made.onBehalf`: Operations ask only for their own
  program.
-/

namespace ShaderBuild

/-- Two sessions of the program under a handle are alike: it has come equally far, and
    the device knows the same of it. What the device knows of others may differ. -/
structure Session.Alike {σ τ ω : Type} (status : σ → Handle → τ) (h : Handle)
    (s s' : Session σ ω) : Prop where
  owner : s.owner = s'.owner
  calls : s.calls = s'.calls
  log : s.log = s'.log
  poisoned : s.shared.poisoned = s'.shared.poisoned
  status : status s.shared.device h = status s'.shared.device h

namespace Session.Alike

variable {σ τ ω : Type} {status : σ → Handle → τ} {h : Handle} {s s' : Session σ ω}

theorem logged (alike : Alike status h s s') (entries : List Entry) :
    Alike status h { s with log := s.log ++ entries } { s' with log := s'.log ++ entries } :=
  ⟨alike.owner, alike.calls, congrArg (· ++ entries) alike.log, alike.poisoned, alike.status⟩

theorem updated (alike : Alike status h s s') (f : ω → ω) :
    Alike status h { s with owner := f s.owner } { s' with owner := f s'.owner } :=
  ⟨congrArg f alike.owner, alike.calls, alike.log, alike.poisoned, alike.status⟩

end Session.Alike

/-- Between two sessions, nothing has been asked but requests of the program under a
    handle, and all of them were answered. -/
def Session.AskedFor {σ ω : Type} [Device σ] (h : Handle) (s left : Session σ ω) : Prop :=
  ∃ requests, (∀ r ∈ requests, r.Concerns h) ∧
    left.shared = (s.asked requests).shared ∧ left.calls = (s.asked requests).calls

namespace Session.AskedFor

variable {σ ω : Type} [Device σ] {h : Handle} {s after left : Session σ ω}

theorem nothing (shared : left.shared = s.shared) (calls : left.calls = s.calls) :
    AskedFor h s left :=
  ⟨[], List.forall_mem_nil _, by rwa [asked_nil], by rwa [asked_nil]⟩

theorem one {r : Request} (concerns : r.Concerns h) : AskedFor h s (s.asked [r]) :=
  ⟨[r], List.forall_mem_singleton.mpr concerns, rfl, rfl⟩

theorem trans (first : AskedFor h s after) (rest : AskedFor h after left) : AskedFor h s left := by
  obtain ⟨early, own, shared, calls⟩ := first
  obtain ⟨late, own', shared', calls'⟩ := rest
  refine ⟨early ++ late, List.forall_mem_append.mpr ⟨own, own'⟩, ?_, ?_⟩
  · rw [shared', ← asked_asked, asked, asked, shared]
  · rw [calls', ← asked_asked, asked, asked, shared, calls]

theorem calm (asked : AskedFor h s left) (calm : Device.Calm s.shared.device) :
    Device.Calm left.shared.device := by
  obtain ⟨requests, -, shared, -⟩ := asked
  rw [shared]
  exact Device.calm_after calm requests

end Session.AskedFor

namespace Operation

variable {σ τ α : Type} {status : σ → Handle → τ} {h : Handle}

section Alike

variable {s s' : Session σ Program}

/-- The operation does not tell two sessions apart. -/
def SameRun (status : σ → Handle → τ) (h : Handle) (x : Operation σ Program α)
    (s s' : Session σ Program) : Prop :=
  (run x s).1 = (run x s').1 ∧ Session.Alike status h (run x s).2 (run x s').2

theorem sameRun_bind {β : Type} {x : Operation σ Program α} {f : α → Operation σ Program β}
    (first : SameRun status h x s s')
    (rest : ∀ a after after', run x s = (.ok a, after) → Session.Alike status h after after' →
      SameRun status h (f a) after after') : SameRun status h (x >>= f) s s' := by
  -- Both runs end alike, so the case split on one end settles the other.
  obtain ⟨outcome, alike⟩ := first
  rcases hx : run x s with ⟨stop | a, after⟩
  · rcases hx' : run x s' with ⟨outcome', after'⟩
    rw [hx, hx'] at outcome alike
    obtain rfl : .error stop = outcome' := outcome
    rw [SameRun, run_bind_error hx, run_bind_error hx']
    exact ⟨rfl, alike⟩
  · rcases hx' : run x s' with ⟨outcome', after'⟩
    rw [hx, hx'] at outcome alike
    obtain rfl : .ok a = outcome' := outcome
    rw [SameRun, run_bind_ok hx, run_bind_ok hx']
    exact rest a after after' hx alike

variable [Device σ]

theorem sameRun_ask (apart : Device.KeepsApart status) {r : Request} (concerns : r.Concerns h)
    (alike : Session.Alike status h s s') : SameRun status h (ask r) s s' := by
  -- The request concerns the program, of which the device knows the same in both.
  obtain ⟨answers, known⟩ := apart.alike concerns alike.status
  rw [SameRun, run_ask, run_ask]
  refine ⟨by rw [answers], alike.owner, ?_, alike.log, ?_, known⟩
  · simp only [Session.requested, alike.calls, answers]
  · simp only [Session.requested, alike.poisoned, answers]

/-- What is made of the usual parts cannot tell alike sessions apart. -/
theorem Made.sameRun (apart : Device.KeepsApart status) {x : Generic α} (made : Made h x)
    (alike : Session.Alike status h s s') (named : s.owner.handle = h) :
    SameRun status h (x σ) s s' := by
  induction made generalizing s s' with
  -- These leave the device alone.
  | pure a => exact ⟨rfl, alike⟩
  | fail e =>
      rw [SameRun, run_fail, run_fail]
      exact ⟨rfl, alike.logged _⟩
  | owner rest ih =>
      refine sameRun_bind (x := Operation.owner) ⟨congrArg Except.ok alike.owner, alike⟩ ?_
      rintro _ after after' ⟨⟩ alike
      exact ih s.owner named alike named
  | update kept => exact ⟨rfl, alike.updated _⟩
  | note mild message => exact ⟨rfl, alike.logged _⟩
  | absorb honest =>
      rw [SameRun, run_absorb, run_absorb]
      exact ⟨rfl, alike.logged _⟩
  | lock =>
      rw [SameRun, run_lock, run_lock, alike.poisoned]
      split
      · exact ⟨rfl, alike.logged _⟩
      · exact ⟨rfl, alike⟩
  | ask concerns compiles => exact sameRun_ask apart concerns alike
  | @compile α stage source f message accepted rejected ih =>
      have concerns : Request.Concerns h (.compile h stage source) := .of_program rfl rfl
      refine sameRun_bind (sameRun_ask apart concerns alike) fun reply after after' asked alike => ?_
      -- The device knows the same of both, so it rejects the source for both or for neither.
      cases reply with
      | ok done => exact ih alike (owner_of_ask asked ▸ named)
      | error e =>
          simp only [rejected]
          rw [SameRun, run_reject, run_reject]
          have left := alike.updated fun p => { p with phase := .compileFailed }
          exact ⟨rfl, (left.logged _).logged _⟩
  | bind first rest ih later =>
      refine sameRun_bind (ih alike named) fun a after after' ran alike => later a alike ?_
      have kept := first.handle named
      rwa [ran] at kept

end Alike

section Asked

variable [Device σ]

/-- The operation asks for nothing but what concerns one program, and is not torn down. -/
def OnBehalf {ω : Type} (h : Handle) (x : Operation σ ω α) (s : Session σ ω) : Prop :=
  Session.AskedFor h s (run x s).2 ∧ (run x s).1 ≠ .error .crashed

theorem onBehalf_bind {β ω : Type} {x : Operation σ ω α} {f : α → Operation σ ω β}
    {s : Session σ ω} (first : OnBehalf h x s)
    (rest : ∀ a after, run x s = (.ok a, after) → Session.AskedFor h s after →
      OnBehalf h (f a) after) : OnBehalf h (x >>= f) s := by
  obtain ⟨asked, intact⟩ := first
  rcases hx : run x s with ⟨stop | a, after⟩
  · rw [hx] at asked intact
    rw [OnBehalf, run_bind_error hx]
    exact ⟨asked, fun torn => intact (congrArg Except.error (Except.error.inj torn))⟩
  · rw [hx] at asked
    rw [OnBehalf, run_bind_ok hx]
    obtain ⟨later, intact⟩ := rest a after hx asked
    exact ⟨asked.trans later, intact⟩

theorem onBehalf_ask {ω : Type} {s : Session σ ω} (calm : Device.Calm s.shared.device)
    {r : Request} (concerns : r.Concerns h) : OnBehalf h (ask r) s := by
  have answered : run (ask r) s = (.ok (Device.answer s.shared.device r).1.reply, s.asked [r]) := by
    rw [run, ask_run calm]
  rw [OnBehalf, answered]
  exact ⟨.one concerns, by simp⟩

/-- On a calm device, what is made of the usual parts asks only for its own program, and
    is not torn down. -/
theorem Made.onBehalf {x : Generic α} (made : Made h x) {s : Session σ Program}
    (calm : Device.Calm s.shared.device) (named : s.owner.handle = h) : OnBehalf h (x σ) s := by
  -- Induction on how the operation is made. Only `ask` and `compile` ask the device, and
  -- both ask on behalf of the program.
  induction made generalizing s with
  | pure a => exact ⟨.nothing rfl rfl, nofun⟩
  | fail e => exact ⟨.nothing rfl rfl, nofun⟩
  | owner rest ih => exact ih s.owner named calm named
  | update kept => exact ⟨.nothing rfl rfl, nofun⟩
  | note mild message => exact ⟨.nothing rfl rfl, nofun⟩
  | @absorb α x honest =>
      rw [OnBehalf, run_absorb]
      refine ⟨.nothing rfl rfl, ?_⟩
      cases x.value <;> exact nofun
  | lock =>
      rw [OnBehalf, run_lock]
      split
      · exact ⟨.nothing rfl rfl, nofun⟩
      · exact ⟨.nothing rfl rfl, nofun⟩
  | ask concerns compiles => exact onBehalf_ask calm concerns
  | @compile α stage source f message accepted rejected ih =>
      have concerns : Request.Concerns h (.compile h stage source) := .of_program rfl rfl
      refine onBehalf_bind (onBehalf_ask calm concerns) fun reply after ran asked => ?_
      cases reply with
      | ok done => exact ih (asked.calm calm) (owner_of_ask ran ▸ named)
      | error e =>
          simp only [rejected]
          exact ⟨.nothing rfl rfl, nofun⟩
  | bind first rest ih later =>
      refine onBehalf_bind (ih calm named) fun a after ran asked => ?_
      have kept := first.handle named
      rw [ran] at kept
      exact later a (asked.calm calm) kept

end Asked

end Operation

end ShaderBuild
