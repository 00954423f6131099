import ShaderBuild.Proofs.Program.Discipline

/-!
# What Programs Report

How many errors an operation on a program reports.

An operation that fails reports its failure once, where it arises, and one that
does not fail reports no error. There is one exception, because of which the errors
cannot be told from the failure alone: when the device rejects a source, the path of
the source is reported and then the failure, which makes two errors. So what counts
is the failure and the source that was rejected, and there is at most one of these,
since the operation ends with it.

Both counts add up along an operation, so it is enough to look at its parts. An
operation that was torn down has had no chance to report anything, and is not spoken
of.

## Main definitions

* `rejections`: How many sources some calls handed to the device in vain.
* `Told`: What has been reported between two sessions.
* `Operation.Reports`: An operation has reported what it should.

## Theorems

* `Reports.bind`: An operation reports what it should if its parts do.
* `Made.reports`: What is made of the usual parts does.
* `reports_create`, `errorsIn_delete`: The two ends of a program's life.
* `errors_reported`: The errors that anything reports.
* `rejected_twice`: A source that is rejected is reported as two errors.
-/

namespace ShaderBuild

/-- How many sources some calls handed to the device, which rejected them. -/
def rejections (calls : List Call) : Nat :=
  calls.countP Call.rejected

theorem rejections_concat (calls : List Call) (call : Call) :
    rejections (calls ++ [call]) = rejections calls + if call.rejected then 1 else 0 := by
  rw [rejections, List.countP_append, List.countP_singleton]
  rfl

/-- What has been reported between two sessions, by an operation that ended in so
    many failures, which is to say in one or none. -/
structure Told {σ ω : Type} (s left : Session σ ω) (failed : Nat) : Prop where
  errors : errorsIn left.log + rejections s.calls =
    errorsIn s.log + rejections left.calls + failed
  once : rejections left.calls ≤ rejections s.calls + failed

namespace Told

variable {σ ω : Type} {s after left : Session σ ω}

/-- Nothing has been reported as an error. -/
theorem quiet (errors : errorsIn left.log = errorsIn s.log)
    (rejected : rejections left.calls = rejections s.calls) : Told s left 0 where
  errors := by omega
  once := by omega

theorem trans {failed : Nat} (first : Told s after 0) (rest : Told after left failed) :
    Told s left failed where
  errors := by
    have early := first.errors
    have late := rest.errors
    omega
  once := by
    have early := first.once
    have late := rest.once
    omega

/-- In the session of an operation that has just started, nothing has been said. -/
theorem of_start {owner : ω} {shared : Shared σ} {failed : Nat}
    (told : Told (Session.start owner shared) left failed) :
    errorsIn left.log = failed + rejections left.calls ∧ rejections left.calls ≤ failed := by
  obtain ⟨errors, once⟩ := told
  simp only [Session.start, errorsIn_nil, rejections, List.countP_nil] at errors once ⊢
  omega

end Told

namespace Operation

/-- Unless it was torn down, an operation has reported what it should. -/
def Reports {σ ω α : Type} (x : Operation σ ω α) (s : Session σ ω) : Prop :=
  (run x s).1 ≠ .error .crashed → Told s (run x s).2 (failures (run x s).1)

section Parts

variable {σ ω α β : Type} {s : Session σ ω}

/-- An operation reports what it should if its parts do where they get to. -/
theorem Reports.bind {x : Operation σ ω α} {f : α → Operation σ ω β} (first : Reports x s)
    (rest : ∀ a after, run x s = (.ok a, after) → Reports (f a) after) : Reports (x >>= f) s := by
  intro intact
  -- Told up to the failure, or told by both parts one after the other.
  rcases hx : run x s with ⟨stop | a, after⟩
  · rw [run_bind_error hx] at intact ⊢
    rw [Reports, hx] at first
    exact first fun torn => intact (congrArg Except.error (Except.error.inj torn))
  · rw [run_bind_ok hx] at intact ⊢
    rw [Reports, hx] at first
    exact (first nofun).trans (rest a after hx intact)

theorem reports_pure (a : α) : Reports (pure a : Operation σ ω α) s :=
  fun _ => .quiet rfl rfl

theorem reports_note {severity : Severity} (mild : severity ≠ .error) (message : String) :
    Reports (note severity message : Operation σ ω Unit) s := by
  refine fun _ => .quiet ?_ rfl
  change errorsIn (s.log ++ [.report severity source message]) = errorsIn s.log
  simp [mild]

theorem reports_fail (e : Failure) : Reports (fail e : Operation σ ω α) s := by
  intro _
  -- One error more in the log, and one failure more to be told.
  rw [run_fail]
  exact ⟨by simp [failures]; omega, Nat.le_add_right _ 1⟩

theorem reports_absorb {x : Logged (Except Failure α)} (honest : x.Honest) :
    Reports (absorb x : Operation σ ω α) s := by
  intro _
  have outcome : failures (x.value.mapError Interruption.failed) = failures x.value := by
    cases x.value <;> rfl
  rw [Logged.Honest] at honest
  rw [run_absorb, outcome]
  exact ⟨by simp [honest]; omega, Nat.le_add_right _ _⟩

theorem reports_lock : Reports (lock : Operation σ ω Unit) s := by
  intro intact
  rw [run_lock] at intact ⊢
  split
  · next poisoned =>
    rw [if_pos poisoned] at intact
    exact reports_fail _ intact
  · exact .quiet rfl rfl

variable [Device σ]

theorem rejections_requested (s : Session σ ω) (r : Request) :
    rejections (s.requested r).calls = rejections s.calls +
      if Call.rejected ⟨r, (Device.answer s.shared.device r).1⟩ then 1 else 0 :=
  rejections_concat _ _

theorem reports_ask {r : Request} (compiles : r.compiles = false) :
    Reports (ask r : Operation σ ω r.Reply) s := by
  -- Such a request is no rejection whatever the answer, so the count stays.
  intro intact
  have rejected : Call.rejected ⟨r, (Device.answer s.shared.device r).1⟩ = false := by
    cases r with
    | compile h stage source => cases compiles
    | _ => rfl
  have none : rejections (s.requested r).calls = rejections s.calls := by
    rw [rejections_requested, rejected]
    rfl
  rw [run_ask] at intact ⊢
  split
  · next crashed =>
    rw [if_pos crashed] at intact
    exact absurd rfl intact
  · exact .quiet rfl none

end Parts

section Made

variable {σ α : Type} [Device σ] {h : Handle} {x : Generic α}

/-- What is made of the usual parts reports what it should. -/
theorem Made.reports (made : Made h x) {s : Session σ Program} (named : s.owner.handle = h) :
    Reports (x σ) s := by
  -- Induction on how the operation is made; the counts of the parts add up.
  induction made generalizing s with
  | pure a => exact reports_pure a
  | fail e => exact reports_fail e
  | owner rest ih => exact ih s.owner named named
  | update kept => exact fun _ => .quiet rfl rfl
  | note mild message => exact reports_note mild message
  | absorb honest => exact reports_absorb honest
  | lock => exact reports_lock
  | ask concerns compiles => exact reports_ask compiles
  | @compile α stage source f message accepted rejected ih =>
      intro intact
      let r : Request := .compile h stage source
      have calls := rejections_requested s r
      have log : (s.requested r).log = s.log := rfl
      rcases run_compile rejected s with ⟨-, ran⟩ | ⟨-, reply, ran⟩ | ⟨e, -, reply, ran⟩
      · exact absurd (congrArg Prod.fst ran) intact
      · rw [ran] at intact ⊢
        have none : rejections (s.requested r).calls = rejections s.calls := by
          rw [calls, Call.rejected, reply]
          rfl
        have quiet : Told s (s.requested r) 0 := .quiet rfl none
        exact quiet.trans (ih named intact)
      · -- The one failure that is not reported alone.
        have one : rejections (s.requested r).calls = rejections s.calls + 1 := by
          rw [calls, Call.rejected, reply]
          rfl
        rw [ran, run_reject]
        exact ⟨by simp [r, one, log, failures]; omega, one.le⟩
  | bind first rest ih later =>
      refine (ih named).bind fun a after ran => later a ?_
      have kept := first.handle named
      rwa [ran] at kept

end Made

section Ends

variable {σ ω : Type} [Device σ]

theorem reports_create (s : Session σ ω) : Reports (Program.create : Operation σ ω Program) s := by
  refine reports_lock.bind fun _ after _ => (reports_ask rfl).bind fun reply after _ => ?_
  cases reply with
  | error failure => exact reports_fail failure
  | ok handle => exact (reports_note (by decide) _).bind fun _ after _ => reports_pure _

/-- Creating a program hands the device no source. -/
theorem rejections_create (s : Session σ ω) :
    rejections (run (Program.create : Operation σ ω Program) s).2.calls = rejections s.calls := by
  have asked : rejections (s.requested .create).calls = rejections s.calls :=
    rejections_requested s .create
  simp only [run, Program.create, bind_run]
  -- A refused lock makes no request at all.
  cases poisoned : s.shared.poisoned with
  | true => simp [lock_poisoned poisoned]
  | false =>
      rw [lock_free poisoned]
      dsimp only [ask]
      -- The request is the only one, whatever comes of it.
      cases (Device.answer s.shared.device .create).1.crashed with
      | true => exact asked
      | false =>
          cases (Device.answer s.shared.device .create).1.reply with
          | error failure => exact asked
          | ok handle => exact asked

/-- The end of a program reports no error, whatever comes of it. -/
theorem errorsIn_delete (s : Session σ Program) :
    errorsIn (run Program.delete s).2.log = errorsIn s.log := by
  simp only [run, Program.delete, ask]
  cases s.shared.poisoned with
  | true => rfl
  | false => cases (Device.answer s.shared.device (.delete s.owner.handle)).1.crashed <;> rfl

end Ends

/-- The errors that anything reports, if no device crashes over it. A search reports
    none, as it does not fail. Whatever is done with a source, a registry or a program
    reports its failure by one error and reports no other, except that a source which
    the device rejects makes one more. No operation hands on more than one such source,
    and it fails if it does. -/
theorem errors_reported {σ : Type} [Device σ] :
    (∀ (search : SearchPath) (tree : Tree) (name : String),
      errorsIn (search.find tree name).entries = 0) ∧
    (∀ (source : StageSource) (f : Flattener),
      errorsIn (source.flatten f).entries = failures (source.flatten f).value) ∧
    (∀ (action : RegistryAction) (r : Registry),
      errorsIn (action.run r).1.entries = failures (action.run r).1.value) ∧
    (∀ shared : Shared σ,
      let result := run Program.create (Session.start () shared)
      result.1 ≠ .error .crashed → errorsIn result.2.log = failures result.1) ∧
    (∀ (p : Program) (shared : Shared σ),
      errorsIn (run Program.delete (Session.start p shared)).2.log = 0) ∧
    ∀ (around : Surroundings) (registryOf : String → Registry) (action : Action) (p : Program)
      (shared : Shared σ),
      let result := run (action.run around registryOf) (Session.start p shared)
      result.1 ≠ .error .crashed →
        errorsIn result.2.log = failures result.1 + rejections result.2.calls ∧
          rejections result.2.calls ≤ failures result.1 := by
  refine ⟨fun search tree name => search.errorsIn_find tree name,
    fun source f => source.honest_flatten f, fun action r => action.honest_run r, ?_, ?_, ?_⟩
  · intro shared result intact
    have errors := (reports_create (Session.start () shared) intact).of_start.1
    rwa [rejections_create] at errors
  · exact fun p shared => errorsIn_delete (Session.start p shared)
  · intro around registryOf action p shared result intact
    exact ((action.made around registryOf p.handle).reports rfl intact).of_start

/-- A program that the device refuses to link. -/
theorem errors_reported_unlinked :
    let p : Program := ⟨1, .compiled, [], [], []⟩
    let shared : Shared Scripted := ⟨{ linkFailure := some (.linkage "no main") }, false⟩
    let result := run ((Action.link "main").run default fun _ => default) (Session.start p shared)
    result.1 ≠ .error .crashed ∧ failures result.1 = 1 ∧ errorsIn result.2.log = 1 := by
  intro p shared result
  have intact : result.1 ≠ .error .crashed := nofun
  obtain ⟨errors, -⟩ := errors_reported.2.2.2.2.2 default (fun _ => default) (.link "main") p shared
    intact
  exact ⟨intact, rfl, errors⟩

/-- A source that the device rejects, which fails once and is reported as two errors. -/
theorem rejected_twice :
    let device : Scripted := { compileFailures := [(.vertex, .compilation .vertex "no main")] }
    let source : StageSource := .code ⟨"sky.vert"⟩ "#autoresolve Camera\n".toList
    let result := run ((Action.addStage .vertex source).run default fun _ => default)
      (Session.start (Program.new 1) ⟨device, false⟩)
    result.1 = .error (.failed (.compilation .vertex "no main")) ∧ errorsIn result.2.log = 2 := by
  intro device source result
  have ends : ComesTo ⟨device, false⟩ result _ _ _ :=
    (Program.stage_rejected (p := Program.new 1) (by decide) rfl (Scripted.calm rfl)
      (StageSource.expansion_request _ _ _) rfl).map _
  have intact : result.1 ≠ .error .crashed := by
    rw [ends.outcome]
    exact nofun
  have told := (Action.made default (fun _ => default) 1 (.addStage .vertex source)).reports
    (s := Session.start (Program.new 1) ⟨device, false⟩) rfl intact
  refine ⟨ends.outcome, told.of_start.1.trans ?_⟩
  change failures result.1 + rejections result.2.calls = 2
  rw [ends.outcome, ends.calls]
  rfl

end Operation

end ShaderBuild
