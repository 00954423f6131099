import ShaderBuild.Device.Scripted
import ShaderBuild.Device.Session

/-!
# Journals of a Device

What a list of requests does to a device, and the calls it leaves behind.

A device answers one request at a time, but what an operation does to it is
best said all at once, as the list of requests it made. The answers need no
mention: they follow from the device and the requests before. So a session in
which some requests have been made is written `s.asked requests`, and the
operations that only make requests are described by that list alone.

All of this is about devices that do not crash. A device is calm when it
crashes over no request, however many have been made of it. That is said of
the state a device is in and not of its kind, since a device may be calm now
and crash after a change from outside.

## Main definitions

* `Device.after`: The device once a list of requests has been made.
* `Device.journal`: The calls that a list of requests leaves.
* `Device.Calm`: The device crashes over nothing that is asked of it.
* `Session.asked`: The session once a list of requests has been made.
* `Operation.ComesTo`: How an operation ends on an intact device.

## Theorems

* `after_append`, `journal_append`: Requests made in two parts.
* `calm_after`: A calm device stays calm.
* `asked_asked`, `asked_cons`: Requests made in two parts, in a session.
* `ask_answered`, `ask_run`: A request that the device does not crash over is
  answered, and of a calm device any request is.
* `comesTo_ok`, `comesTo_error`: An operation that leaves nothing behind but its
  owner, its requests and log entries.
* `ComesTo.map`: What is made of a result afterwards changes nothing else.
* `Scripted.calm`: A scripted device is calm if its settings name no crash.
-/

namespace ShaderBuild

namespace Device

variable {σ : Type} [Device σ]

/-- The device once requests have been made of it, in order. -/
def after (d : σ) : List Request → σ
  | [] => d
  | r :: rest => after (answer d r).2 rest

/-- The calls that requests leave, in order. -/
def journal (d : σ) : List Request → List Call
  | [] => []
  | r :: rest => ⟨r, (answer d r).1⟩ :: journal (answer d r).2 rest

/-- The device crashes over no request, whatever has been asked before. -/
def Calm (d : σ) : Prop :=
  ∀ before r, (answer (after d before) r).1.crashed = false

@[simp] theorem after_nil (d : σ) : after d [] = d := rfl

@[simp] theorem journal_nil (d : σ) : journal d [] = [] := rfl

theorem after_append (d : σ) (first second : List Request) :
    after d (first ++ second) = after (after d first) second := by
  induction first generalizing d with
  | nil => rfl
  | cons r rest ih => exact ih (answer d r).2

theorem journal_append (d : σ) (first second : List Request) :
    journal d (first ++ second) = journal d first ++ journal (after d first) second := by
  induction first generalizing d with
  | nil => rfl
  | cons r rest ih =>
      simp only [List.cons_append, journal, after]
      rw [ih]

theorem request_mem_of_mem_journal {d : σ} {requests : List Request} {call : Call}
    (h : call ∈ journal d requests) : call.request ∈ requests := by
  -- The journal has one call for each request, in the same order.
  induction requests generalizing d with
  | nil => cases h
  | cons r rest ih =>
      rcases List.mem_cons.1 h with rfl | h
      · exact List.mem_cons_self
      · exact List.mem_cons_of_mem r (ih h)

theorem calm_after {d : σ} (calm : Calm d) (requests : List Request) :
    Calm (after d requests) := by
  intro before r
  rw [← after_append]
  exact calm (requests ++ before) r

end Device

namespace Session

variable {σ ω : Type} [Device σ]

/-- The session once requests have been made, none of which crashed. -/
def asked (s : Session σ ω) (requests : List Request) : Session σ ω :=
  { s with
    shared := ⟨Device.after s.shared.device requests, s.shared.poisoned⟩
    calls := s.calls ++ Device.journal s.shared.device requests }

@[simp] theorem asked_owner (s : Session σ ω) (requests : List Request) :
    (s.asked requests).owner = s.owner := rfl

@[simp] theorem asked_nil (s : Session σ ω) : s.asked [] = s := by
  simp only [asked, Device.after_nil, Device.journal_nil, List.append_nil]

theorem asked_asked (s : Session σ ω) (first second : List Request) :
    (s.asked first).asked second = s.asked (first ++ second) := by
  simp only [asked, Device.after_append, Device.journal_append, List.append_assoc]

theorem asked_cons (s : Session σ ω) (r : Request) (rest : List Request) :
    s.asked (r :: rest) = (s.asked [r]).asked rest :=
  (asked_asked s [r] rest).symm

end Session

namespace Operation

variable {σ ω : Type} [Device σ]

theorem ask_answered {s : Session σ ω} {r : Request}
    (still : (Device.answer s.shared.device r).1.crashed = false) :
    (ask r : Operation σ ω r.Reply) s =
      .ok (Device.answer s.shared.device r).1.reply (s.asked [r]) := by
  simp only [ask, still, Bool.false_eq_true, if_false, Bool.or_false]
  rfl

theorem ask_run {s : Session σ ω} (calm : Device.Calm s.shared.device) (r : Request) :
    (ask r : Operation σ ω r.Reply) s =
      .ok (Device.answer s.shared.device r).1.reply (s.asked [r]) :=
  -- Calm after no request at all, which is to say now.
  ask_answered (calm [] r)

/-- What an operation comes to that ends on an intact device: its outcome, the
    owner it leaves, and the requests it made, all of them answered. -/
structure ComesTo {α : Type} (shared : Shared σ)
    (result : Except Interruption α × Session σ ω) (outcome : Except Interruption α) (owner : ω)
    (requests : List Request) : Prop where
  outcome : result.1 = outcome
  owner : result.2.owner = owner
  calls : result.2.calls = Device.journal shared.device requests
  shared : result.2.shared = ⟨Device.after shared.device requests, shared.poisoned⟩

section ComesTo

variable {α β : Type} {x : Operation σ ω α} {owner left : ω} {shared : Shared σ}
  {requests : List Request}

theorem comesTo_ok {a : α} (h : ∃ log, x (Session.start owner shared) =
      .ok a { (Session.start owner shared).asked requests with owner := left, log }) :
    ComesTo shared (run x (Session.start owner shared)) (.ok a) left requests := by
  rcases h with ⟨log, h⟩
  rw [run, h]
  exact ⟨rfl, rfl, rfl, rfl⟩

theorem comesTo_error {stop : Interruption} (h : ∃ log, x (Session.start owner shared) =
      .error stop { (Session.start owner shared).asked requests with owner := left, log }) :
    ComesTo shared (run x (Session.start owner shared)) (.error stop) left requests := by
  rcases h with ⟨log, h⟩
  rw [run, h]
  exact ⟨rfl, rfl, rfl, rfl⟩

theorem ComesTo.map {s : Session σ ω} {outcome : Except Interruption α}
    (h : ComesTo shared (run x s) outcome left requests) (f : α → β) :
    ComesTo shared (run (x >>= fun a => pure (f a)) s) (outcome.map f) left requests := by
  rw [run_map]
  exact ⟨congrArg (Except.map f) h.outcome, h.owner, h.calls, h.shared⟩

end ComesTo

end Operation

namespace Scripted

theorem crashOver_respond (d : Scripted) (r : Request) :
    (d.respond r).2.crashOver = d.crashOver := by
  -- Only creating and linking build a new state; the settings are copied into it.
  cases r with
  | create =>
      simp only [respond]
      cases d.createFailure <;> rfl
  | link program =>
      simp only [respond, link]
      split
      · rfl
      · split <;> rfl
  | _ => rfl

theorem crashOver_after (d : Scripted) (requests : List Request) :
    (Device.after d requests).crashOver = d.crashOver := by
  induction requests generalizing d with
  | nil => rfl
  | cons r rest ih => exact (ih (d.respond r).2).trans (crashOver_respond d r)

theorem calm {d : Scripted} (none : d.crashOver = none) : Device.Calm d := by
  intro before r
  change decide ((Device.after d before).crashOver = some r.kind) = false
  rw [crashOver_after, none]
  rfl

end Scripted

end ShaderBuild
