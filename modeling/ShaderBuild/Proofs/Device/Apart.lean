import ShaderBuild.Proofs.Device.Journal

/-!
# Devices That Keep Programs Apart

What a device has to be like so that programs on it do not notice each other.

Among the requests some name a program, and the rest name none. A program under some
handle makes only requests that name it or nobody (`Request.Concerns`). A device keeps
its programs apart if there is something it knows of each, its status, such that the
answers to a program depend on nothing else, and requests of others do not change it.
What the status is depends on the kind of device. The scripted devices know of a
program whether it is linked, and besides that their settings, which no request
changes.

Creating a program is left out, since it may well forget what was known of the handle
it gives out.

## Main definitions

* `Request.program?`: The program that a request names.
* `Request.Concerns`: A request that the program under a handle may make.
* `Device.KeepsApart`: The device keeps its programs apart.
* `Scripted.status`: What a scripted device knows of a program.

## Theorems

* `KeepsApart.after_apart`: Requests of others change nothing of what is known of a
  program.
* `Scripted.settings_respond`: No request changes the settings.
* `Scripted.mem_linked_respond`: What a request links and unlinks.
* `Scripted.keepsApart`: Scripted devices keep programs apart.
-/

namespace ShaderBuild

namespace Request

/-- The program that a request names. -/
def program? : Request → Option Handle
  | .delete h | .compile h _ _ | .removeStages h | .link h => some h
  | .blockIndex h _ | .bind h | .bindBlock h _ _ => some h
  | .version | .create | .release | .bindBuffer .. => none

/-- A request that the program under a handle may make: it creates none and names no
    other. -/
structure Concerns (h : Handle) (r : Request) : Prop where
  old : r ≠ .create
  own : ∀ k, r.program? = some k → k = h

theorem Concerns.of_program {h k : Handle} {r : Request} (named : r.program? = some k)
    (same : k = h) : r.Concerns h where
  old := by rintro rfl; cases named
  own other names := (Option.some.inj (names.symm.trans named)).trans same

theorem Concerns.of_nobody {h : Handle} {r : Request} (old : r ≠ .create)
    (named : r.program? = none) : r.Concerns h where
  old := old
  own other names := by rw [named] at names; cases names

end Request

/-- The device keeps its programs apart. What it knows of a program is all that the
    program can notice of it, and the requests of others change nothing about that. -/
structure Device.KeepsApart {σ τ : Type} [Device σ] (status : σ → Handle → τ) : Prop where
  alike {d d' : σ} {h : Handle} {r : Request} (concerns : r.Concerns h)
    (same : status d h = status d' h) : (answer d r).1 = (answer d' r).1 ∧
      status (answer d r).2 h = status (answer d' r).2 h
  apart {d : σ} {h : Handle} {r : Request} (old : r ≠ .create) (others : r.program? ≠ some h) :
    status (answer d r).2 h = status d h

namespace Device.KeepsApart

variable {σ τ : Type} [Device σ] {status : σ → Handle → τ} {h : Handle} {requests : List Request}

/-- Requests of others change nothing of what is known of a program. -/
theorem after_apart (apart : KeepsApart status) (d : σ)
    (others : ∀ r ∈ requests, r ≠ .create ∧ r.program? ≠ some h) :
    status (after d requests) h = status d h := by
  -- Each request leaves what is known of the program, so all of them do.
  induction requests generalizing d with
  | nil => rfl
  | cons r rest ih =>
      obtain ⟨⟨old, foreign⟩, others⟩ := List.forall_mem_cons.mp others
      exact (ih (answer d r).2 others).trans (apart.apart old foreign)

end Device.KeepsApart

namespace Scripted

/-- What a scripted device knows of a program: the settings, and whether the program is
    linked. -/
def status (d : Scripted) (h : Handle) : Scripted × Bool :=
  ({ d with nextHandle := 0, linked := [] }, decide (h ∈ d.linked))

theorem settings_respond (d : Scripted) (r : Request) (h : Handle) :
    (status (d.respond r).2 h).1 = (status d h).1 := by
  cases r with
  | create =>
      simp only [respond]
      cases d.createFailure <;> rfl
  | link program =>
      simp only [respond, link]
      split
      · rfl
      · split <;> rfl
  | _ => rfl

/-- A request that creates no program links or unlinks the one it names, if any. -/
theorem mem_linked_respond (d : Scripted) {r : Request} (old : r ≠ .create) (h : Handle) :
    h ∈ (d.respond r).2.linked ↔ if r.program? = some h then match r with
      | .delete _ | .removeStages _ => False
      | .link _ => if d.crashOver = some .link then h ∈ d.linked else d.linkFailure = none
      | _ => h ∈ d.linked
    else h ∈ d.linked := by
  -- A list of linked programs is only filtered or extended by the program that is named.
  cases r with
  | create => exact absurd rfl old
  | delete k =>
      simp only [respond, unlink, List.mem_filter, Request.program?, Option.some.injEq]
      by_cases same : k = h
      · simp [same]
      · simp [same, Ne.symm same]
  | removeStages k =>
      simp only [respond, unlink, List.mem_filter, Request.program?, Option.some.injEq]
      by_cases same : k = h
      · simp [same]
      · simp [same, Ne.symm same]
  | link k =>
      simp only [respond, link, unlink, Request.program?, Option.some.injEq]
      by_cases crashes : d.crashOver = some .link
      · simp [crashes]
      · by_cases same : k = h
        · cases d.linkFailure <;> simp [same, crashes]
        · cases d.linkFailure <;> simp [same, Ne.symm same, crashes]
  | _ => simp only [respond, ite_self]

theorem keepsApart : Device.KeepsApart status where
  alike {d d' h r} concerns same := by
    have linked : h ∈ d.linked ↔ h ∈ d'.linked := decide_eq_decide.mp (congrArg Prod.snd same)
    have settings := congrArg Prod.fst same
    simp only [status, mk.injEq, and_true] at settings
    obtain ⟨version, blocks, compileFailures, linkFailure, createFailure, crashOver⟩ := settings
    -- First that the two answers are alike, then that the same is known afterwards.
    constructor
    · cases r with
      | create => exact absurd rfl concerns.old
      -- The only answer that depends on what was linked, and it is about the program itself.
      | blockIndex k block =>
          obtain rfl := concerns.own k rfl
          simp only [Device.answer, respond, linked, blocks, crashOver]
      | _ => simp only [Device.answer, respond, version, compileFailures, linkFailure, crashOver]
    · refine Prod.ext ?_ ?_
      · exact (settings_respond d r h).trans
          ((congrArg Prod.fst same).trans (settings_respond d' r h).symm)
      · refine decide_eq_decide.mpr ((mem_linked_respond d concerns.old h).trans ?_)
        rw [linked, linkFailure, crashOver]
        exact (mem_linked_respond d' concerns.old h).symm
  apart {d h r} old others := by
    refine Prod.ext (settings_respond d r h) (decide_eq_decide.mpr ?_)
    exact (mem_linked_respond d old h).trans (by rw [if_neg others])

end Scripted

end ShaderBuild
