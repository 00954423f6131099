import ShaderBuild.Proofs.Program.Binding

/-!
# Linking

What linking comes to, for every program that may be linked and every device
that answers: which requests are made, what is bound, which phase the program
is left in and how the operation ends.

There are four ends. The device may refuse to link; it may link a program that
asks for no blocks; and if blocks are asked for, either all of them are bound
or the binding stops at the first that cannot be. The last two make the same
requests up to where they part, and both release the program.

## Main definitions

* `bindingRequests`: What binding some blocks asks of the device.

## Theorems

* `binding_session`: The session that binding some blocks leaves.
* `bindRequested_run`: Binding the requested blocks.
* `link_answered`: Linking, up to where the device has answered.
* `link_comesTo`: What linking comes to.
-/

namespace ShaderBuild

namespace Program

open Operation

variable {σ : Type} [Device σ]

/-- The requests of binding some blocks, after which another name is asked for
    if it is the one where the binding stops. -/
def bindingRequests (h : Handle) (blocks : List BoundBlock) (stopped : Option String) :
    List Request :=
  [.bind h] ++ blocks.flatMap (BoundBlock.requests h) ++ stopped.toList.map (.blockIndex h) ++
    [.release]

theorem binding_session (s : Session σ Program) (blocks : List BoundBlock)
    (stopped : Option String) :
    ((s.asked [.bind s.owner.handle]).withBound blocks).asked
        (stopped.toList.map (.blockIndex s.owner.handle) ++ [.release]) =
      { s.asked (bindingRequests s.owner.handle blocks stopped) with
        owner := { s.owner with bound := s.owner.bound ++ blocks }
        log := s.log ++ blocks.map BoundBlock.entry } := by
  simp only [Session.withBound, Session.asked, bindingRequests, Device.after_append,
    Device.journal_append, List.append_assoc]

theorem bindRequested_run (registry : Registry) (s : Session σ Program)
    (calm : Device.Calm s.shared.device) :
    ∃ blocks, LongestBound registry s.owner.handle
        (Device.after s.shared.device [.bind s.owner.handle]) s.owner.autoresolve blocks ∧
      ∃ log, bindRequested registry s =
        match s.owner.autoresolve[blocks.length]? with
        | none => .ok () { s.asked (bindingRequests s.owner.handle blocks none) with
            owner := { s.owner with
              phase := .autoresolveBound
              bound := s.owner.bound ++ blocks }
            log }
        | some name =>
          .error (.failed (obstacle (Device.after s.shared.device [.bind s.owner.handle])
              s.owner.handle blocks name))
            { s.asked (bindingRequests s.owner.handle blocks (some name)) with
              owner := { s.owner with bound := s.owner.bound ++ blocks }
              log } := by
  -- The device is asked for the last time after the loop, and is calm still.
  have calm' := Device.calm_after calm [.bind s.owner.handle]
  rcases bindAll_run registry s.owner.autoresolve (s.asked [.bind s.owner.handle]) calm' with
    ⟨blocks, longest, run⟩
  refine ⟨blocks, longest, ?_⟩
  simp only [bindRequested, bind_run, owner_run]
  rw [ask_run calm]
  dsimp only
  rw [run]
  dsimp only
  rw [ask_run (Device.calm_after (Device.calm_after calm' _) _), Session.asked_asked]
  rw [Session.asked_owner, binding_session]
  cases s.owner.autoresolve[blocks.length]? with
  | none => exact ⟨_, rfl⟩
  | some name => exact ⟨_, rfl⟩

theorem link_answered {s : Session σ Program} (registry : Registry)
    (fits : s.owner.phase.canLink = true) (free : s.shared.poisoned = false)
    (calm : Device.Calm s.shared.device) (reply : Except Failure Unit)
    (answer : (Device.answer s.shared.device (.link s.owner.handle)).1.reply = reply) :
    link registry s = (match reply with
      | .error e => do
        enter .linkFailed
        fail e
      | .ok () => do
        enter .linked
        if s.owner.autoresolve = [] then note .info s!"Linked program {s.owner.handle}"
        else bindRequested registry)
      { s.asked [.link s.owner.handle] with owner := { s.owner with bound := [] } } := by
  -- The guard and the lock let it pass, and the device's answer decides.
  simp only [link, bind_run]
  rw [require_run .cannotLink fits]
  simp only [update_run]
  rw [lock_free (by exact free)]
  simp only [owner_run]
  rw [ask_run (by exact calm)]
  cases reply with
  | error e =>
      simp only [answer]
      rfl
  | ok done =>
      simp only [answer]
      rfl

/-- What linking comes to. If blocks are asked for, those bound are the longest
    prefix that can be; the last part reads this on a device that answers from
    a table of indices. -/
theorem link_comesTo (registry : Registry) (p : Program) (shared : Shared σ)
    (fits : p.phase.canLink = true) (free : shared.poisoned = false)
    (calm : Device.Calm shared.device) :
    let reply : Except Failure Unit := (Device.answer shared.device (.link p.handle)).1.reply
    let result := run (link registry) (Session.start p shared)
    let linked := Device.after shared.device [.link p.handle, .bind p.handle]
    (∀ e, reply = .error e →
      ComesTo shared result (.error (.failed e)) { p with phase := .linkFailed, bound := [] }
        [.link p.handle]) ∧
    (reply = .ok () → p.autoresolve = [] →
      ComesTo shared result (.ok ()) { p with phase := .linked, bound := [] }
        [.link p.handle]) ∧
    (reply = .ok () → p.autoresolve ≠ [] → ∃ blocks,
      LongestBound registry p.handle linked p.autoresolve blocks ∧
      (blocks.length = p.autoresolve.length →
        ComesTo shared result (.ok ()) { p with phase := .autoresolveBound, bound := blocks }
          (.link p.handle :: bindingRequests p.handle blocks none)) ∧
      (∀ name, p.autoresolve[blocks.length]? = some name →
        ComesTo shared result (.error (.failed (obstacle linked p.handle blocks name)))
          { p with phase := .linked, bound := blocks }
          (.link p.handle :: bindingRequests p.handle blocks (some name))) ∧
      (∀ indexOf : String → Option UInt32,
        (∀ before name, indexAfter linked p.handle before name = indexOf name) →
        blocks.map BoundBlock.name = p.autoresolve.takeWhile
          (fun name => (indexOf name).isSome && (registry.find? name).isSome) ∧
        ∀ b ∈ blocks, b.From registry (indexOf b.name))) := by
  intro reply result linked
  -- One case for each answer of the device, and a third one if blocks are asked for.
  have opened := link_answered (s := Session.start p shared) registry fits free calm
  refine ⟨?_, ?_, ?_⟩
  · intro e refused
    simp only [result, run, opened _ refused]
    exact ⟨rfl, rfl, rfl, rfl⟩
  · intro accepted empty
    simp only [result, run, opened _ accepted]
    rw [if_pos (by exact empty)]
    exact ⟨rfl, rfl, rfl, rfl⟩
  · intro accepted nonempty
    -- From here on it is the session of a linked program that counts.
    let s : Session σ Program := { (Session.start p shared).asked [.link p.handle] with
      owner := { p with phase := .linked, bound := [] } }
    have run_eq : result = run (bindRequested registry) s := by
      simp only [result, run, opened _ accepted]
      rw [if_neg (by exact nonempty)]
      rfl
    rcases bindRequested_run registry s (Device.calm_after calm _) with
      ⟨blocks, longest, log, bound⟩
    refine ⟨blocks, longest, ?_, ?_, ?_⟩
    · intro all
      rw [run_eq, run, bound, List.getElem?_eq_none (Nat.le_of_eq all.symm)]
      exact ⟨rfl, rfl, rfl, rfl⟩
    · intro name stopped
      rw [run_eq, run, bound]
      rw [show s.owner.autoresolve[blocks.length]? = some name from stopped]
      exact ⟨rfl, rfl, rfl, rfl⟩
    · intro indexOf table
      exact ⟨longest.map_name_eq_takeWhile table, fun b mem => longest.from_table table mem⟩

/-- Of two blocks the second is unknown to the device. -/
theorem link_comesTo_second_missing :
    let p : Program := ⟨1, .compiled, [], ["Camera", "Lights"], []⟩
    let shared : Shared Scripted := ⟨{ blocks := [("Camera", 0)] }, false⟩
    let registry : Registry := ⟨[("Camera", ⟨"Camera", 2, 7⟩)], by decide, by decide⟩
    ComesTo shared (run (link registry) (Session.start p shared))
      (.error (.failed (.blockMissing "Lights")))
      { p with phase := .linked, bound := [⟨"Camera", 0, 2, 7⟩] }
      [.link 1, .bind 1, .blockIndex 1 "Camera", .bindBuffer 2 7, .bindBlock 1 0 2,
        .blockIndex 1 "Lights", .release] := by
  intro p shared registry
  have calm : Device.Calm shared.device := Scripted.calm rfl
  -- The device answers from a table, and so the last part says which block is bound.
  rcases (link_comesTo registry p shared rfl rfl calm).2.2 rfl (by decide) with
    ⟨blocks, -, -, stopped, table⟩
  rcases table (List.lookup · [("Camera", 0)]) (indexAfter_scripted _ 1) with ⟨names, origin⟩
  have named : blocks.map BoundBlock.name = ["Camera"] := names
  obtain ⟨b, rfl, hb⟩ := List.map_eq_singleton_iff.1 named
  rcases b with ⟨_, index, bindingPoint, buffer⟩
  cases hb
  obtain ⟨index_eq, found⟩ := origin _ (List.mem_singleton_self _)
  cases index_eq
  cases found
  exact stopped "Lights" rfl

end Program

end ShaderBuild
