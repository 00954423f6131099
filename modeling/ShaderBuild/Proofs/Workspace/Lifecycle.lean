import ShaderBuild.Proofs.Device.Lifetime
import ShaderBuild.Proofs.Program.Ends
import ShaderBuild.Proofs.Workspace.Interference

/-!
# Programs and Their Handles

The handles that are live on a device are those of the programs that exist there, from
the first command of a run to the last.

Programs come and go: one is created under a name, another replaces it, the attempt to
create a third fails, and any of them may be discarded, in whatever phase it is. For the
device each of these is a call or two, and none of them alone tells whether a handle has
been leaked or used once too often. So a run is followed from the start, with all the
calls it has made on the device, and what is kept is that the names of the programs have
all live handles (`Books`). That every command comes to one of the two kinds of turnover
is read off what it does (`turnover_perform`), and the rest is bookkeeping.

The device may refuse whatever it likes, be changed from outside, and hand out a handle
again once it is deleted. Only a crash is left out, and a poisoned lock, as a program
that is discarded then is not deleted. A lock that is free in the end says that there was
neither.

## Main definitions

* `Report.callsOn`, `Workspace.callsOn`: The calls made on one device.
* `Workspace.after`: What some commands leave.
* `Workspace.handleOn`: The handle of a program that is on one device.
* `Workspace.Owns`: A program that exists has a handle.
* `Workspace.Manages`: A command deletes what it gives up, and starts nothing that fails.

## Theorems

* `free_of_perform`: A lock that is free after a command was so before it.
* `turnover_perform`: What a command does about handles.
* `handle_lifecycle`: The live handles are those of the programs that exist.
-/

namespace ShaderBuild

open Operation

/-- The calls made on one device. -/
def Report.callsOn (device : String) (report : Report) : List Call :=
  (report.calls.filter fun call => call.1 = device).map Prod.snd

theorem Report.callsOn_ofSession {σ ω : Type} (device place : String)
    (outcome : Except Interruption Reply) (s : Session σ ω) :
    (Report.ofSession place outcome s).callsOn device = if place = device then s.calls else [] := by
  -- All calls of a session are made on the one device.
  simp only [callsOn, ofSession, List.filter_map, List.map_map]
  split
  · next same => simp [same, Function.comp_def]
  · next other => simp [other, Function.comp_def]

theorem Report.callsOn_append (device : String) (outcome : Except Trouble Reply)
    (first second : Report) (log : List Entry) :
    Report.callsOn device ⟨outcome, first.calls ++ second.calls, log⟩ =
      first.callsOn device ++ second.callsOn device := by
  simp only [callsOn, List.filter_append, List.map_append]

namespace Workspace

variable {σ : Type}

/-- The handle of the program under a name, if it is on a device. -/
def handleOn (w : Workspace σ) (device name : String) : Option Handle :=
  (w.programs.get? name).bind fun placed =>
    if placed.device = device then some placed.program.handle else none

/-- A program that exists on a device has a handle. -/
def Owns (w : Workspace σ) (device : String) (h : Handle) : Prop :=
  ∃ name, w.handleOn device name = some h

theorem handleOn_assign (w : Workspace σ) (devices : Named (Shared σ)) (device name : String)
    (placed : Placed) :
    ({ w with devices, programs := w.programs.assign name placed } : Workspace σ).handleOn device =
      Function.update (w.handleOn device) name
        (if placed.device = device then some placed.program.handle else none) := by
  funext other
  simp only [handleOn, Named.get?_assign, Function.update_apply]
  split <;> rfl

theorem handleOn_erase (w : Workspace σ) (devices : Named (Shared σ)) (device name : String) :
    ({ w with devices, programs := w.programs.erase name } : Workspace σ).handleOn device =
      Function.update (w.handleOn device) name none := by
  funext other
  simp only [handleOn, Named.get?_erase, Function.update_apply]
  split <;> rfl

theorem handleOn_found {w : Workspace σ} {device name : String} {placed : Placed}
    (found : w.programs.get? name = some placed) : w.handleOn device name =
      if placed.device = device then some placed.program.handle else none := by
  rw [handleOn, found]
  rfl

theorem handleOn_missing {w : Workspace σ} {device name : String}
    (missing : w.programs.get? name = none) : w.handleOn device name = none := by
  rw [handleOn, missing]
  rfl

variable [Inhabited σ]

theorem device_assign (w : Workspace σ) (place device : String) (shared : Shared σ)
    (programs : Named Placed) :
    ({ w with devices := w.devices.assign place shared, programs } : Workspace σ).device device =
      if device = place then shared else w.device device := by
  simp only [Workspace.device, Named.get?_assign]
  split <;> rfl

/-- A lock that is free after a session was so before it. -/
theorem free_of_assign {ω α : Type} {w : Workspace σ} {place device : String} {owner : ω}
    {op : Operation σ ω α} {programs : Named Placed}
    (spared : SparedIfFree op (Session.start owner (w.device place)))
    (free : (({ w with
      devices := w.devices.assign place (run op (Session.start owner (w.device place))).2.shared,
      programs } : Workspace σ).device device).poisoned = false) :
    (w.device device).poisoned = false := by
  rw [device_assign] at free
  split at free
  · next same =>
    rw [same]
    exact (spared free).1
  · exact free

variable [Device σ]

/-- What some commands leave. -/
def after (w : Workspace σ) (commands : List (Command σ)) : Workspace σ :=
  commands.foldl (fun w c => (w.perform c).2) w

/-- The calls that some commands make on a device. -/
def callsOn (w : Workspace σ) (device : String) (commands : List (Command σ)) : List Call :=
  (w.observe commands).flatMap fun o => o.report.callsOn device

theorem callsOn_cons (w : Workspace σ) (device : String) (c : Command σ)
    (rest : List (Command σ)) :
    w.callsOn device (c :: rest) =
      (w.perform c).1.callsOn device ++ (w.perform c).2.callsOn device rest := by
  rw [callsOn, observe_cons, List.flatMap_cons]
  rfl

theorem callsOn_append (w : Workspace σ) (device : String) (front back : List (Command σ)) :
    w.callsOn device (front ++ back) =
      w.callsOn device front ++ (w.after front).callsOn device back := by
  induction front generalizing w with
  | nil => rfl
  | cons c rest ih =>
      rw [List.cons_append, callsOn_cons, callsOn_cons, ih, List.append_assoc]
      rfl

open Classical in
/-- A command on programs of a device deletes a handle once if the program that has it is
    given up, and otherwise not. If the device hands out nothing for a new program, then
    nothing else is asked of it and no program is changed. And nothing is asked of it on
    behalf of a program that does not exist there. -/
structure Manages (w : Workspace σ) (device : String) (c : Command σ) : Prop where
  deleted : ∀ h, ((w.perform c).1.callsOn device).countP (fun call => call.request = .delete h) =
    if w.Owns device h ∧ ¬ (w.perform c).2.Owns device h then 1 else 0
  failed : ∀ call ∈ (w.perform c).1.callsOn device, call.request = .create →
    call.handedOut? = none →
      (w.perform c).1.callsOn device = [call] ∧ (w.perform c).2.programs = w.programs
  absent : ∀ name, c.user? = some name → w.handleOn device name = none →
    (w.perform c).1.callsOn device = []

/-- The outcome and the session of an attempt to create a program. -/
def creation (w : Workspace σ) (place : String) : Except Interruption Program × Session σ Unit :=
  run Program.create (Session.start () (w.device place))

/-- The workspace with a program that has just been created under a name. -/
def enrolled (w : Workspace σ) (name place : String) (p : Program) : Workspace σ :=
  { w with
    devices := w.devices.assign place (w.creation place).2.shared
    programs := w.programs.assign name ⟨place, p⟩ }

section Perform

variable {w : Workspace σ} {device name place : String} {p : Program} {placed replaced : Placed}
  {reply : Reply}

theorem perform_create_failed {stop : Interruption}
    (failed : (w.creation place).1 = .error stop) :
    w.perform (.create name place) = (.ofSession place (.error stop) (w.creation place).2,
      { w with devices := w.devices.assign place (w.creation place).2.shared }) := by
  rcases made : w.creation place with ⟨outcome, s⟩
  rw [made] at failed
  obtain rfl : outcome = .error stop := failed
  simp only [creation] at made
  simp only [perform, create, runOn, made]

theorem perform_create_new (created : (w.creation place).1 = .ok p)
    (missing : w.programs.get? name = none) :
    w.perform (.create name place) =
      (.ofSession place (.ok (.created p.handle)) (w.creation place).2, w.enrolled name place p) := by
  rw [enrolled]
  rcases made : w.creation place with ⟨outcome, s⟩
  rw [made] at created
  obtain rfl : outcome = .ok p := created
  simp only [creation] at made
  simp only [perform, create, runOn, made, missing]

/-- The program that had the name is discarded once the new one is there. -/
theorem perform_create_over (created : (w.creation place).1 = .ok p)
    (found : w.programs.get? name = some replaced) :
    let first := Report.ofSession place (.ok (.created p.handle)) (w.creation place).2
    let last := (w.enrolled name place p).retire replaced (.created p.handle)
    w.perform (.create name place) =
      (⟨last.1.outcome, first.calls ++ last.1.calls, first.log ++ last.1.log⟩, last.2) := by
  intro first last
  simp only [first, last, enrolled]
  rcases made : w.creation place with ⟨outcome, s⟩
  rw [made] at created
  obtain rfl : outcome = .ok p := created
  simp only [creation] at made
  simp only [perform, create, runOn, made, found]

theorem perform_discard_found (found : w.programs.get? name = some placed) :
    w.perform (.discard name) =
      { w with programs := w.programs.erase name }.retire placed (.discarded true) := by
  simp only [perform, discard, found]

theorem free_of_retire (reply : Reply)
    (free : ((w.retire placed reply).2.device device).poisoned = false) :
    (w.device device).poisoned = false :=
  free_of_assign (Program.sparedIfFree_delete _) free

theorem free_of_enrolled (free : ((w.enrolled name place p).device device).poisoned = false) :
    (w.device device).poisoned = false :=
  free_of_assign (Program.sparedIfFree_create _) free

/-- A lock that is free after a command was so before it. -/
theorem free_of_perform {c : Command σ}
    (free : ((w.perform c).2.device device).poisoned = false) :
    (w.device device).poisoned = false := by
  -- By what the command does with devices: each part of it has used the device or not.
  cases c with
  | create name place =>
      cases created : (w.creation place).1 with
      | error stop =>
          rw [perform_create_failed created] at free
          exact free_of_assign (Program.sparedIfFree_create _) free
      | ok p =>
          cases found : w.programs.get? name with
          | none =>
              rw [perform_create_new created found] at free
              exact free_of_enrolled free
          | some replaced =>
              rw [perform_create_over created found] at free
              exact free_of_enrolled (free_of_retire (.created p.handle) free)
  | discard name =>
      cases found : w.programs.get? name with
      | none => rwa [perform_missing rfl found] at free
      | some placed =>
          rw [perform_discard_found found] at free
          exact free_of_retire (.discarded true) free
  | act name action =>
      cases found : w.programs.get? name with
      | none => rwa [perform_missing rfl found] at free
      | some placed =>
          rw [perform_act found] at free
          have made := action.made w.around w.registry placed.program.handle
          exact free_of_assign (made.sparedIfFree rfl) free
  | configure place change =>
      simp only [perform] at free
      rw [device_assign] at free
      split at free
      · next same => rwa [same]
      · exact free
  | poison place =>
      simp only [perform] at free
      rw [device_assign] at free
      split at free
      · cases free
      · exact free
  | _ => exact free

/-- The end of a program on the device deletes its handle. -/
theorem deletes_retire (free : ((w.retire placed reply).2.device device).poisoned = false) :
    Deletes (if placed.device = device then some placed.program.handle else none)
      ((w.retire placed reply).1.callsOn device) := by
  simp only [retire, runOn] at free ⊢
  rw [Report.callsOn_ofSession]
  -- The end of a program on another device is none of this one's calls.
  by_cases same : placed.device = device
  · subst same
    rw [device_assign, if_pos rfl] at free
    rw [if_pos rfl, if_pos rfl, Program.delete_run free]
    exact .one rfl
  · rw [if_neg same, if_neg same]
    exact .nothing

/-- What was asked of a device to create a program. -/
theorem calls_creation (free : (w.creation place).2.shared.poisoned = false) :
    ∃ answer, (w.creation place).2.calls = [⟨.create, answer⟩] ∧
      (w.creation place).1 = (answer.reply.map Program.new).mapError .failed := by
  obtain ⟨outcome, calls⟩ := Program.create_run free
  exact ⟨_, calls, outcome⟩

/-- A program that is created on the device gets the handle that is handed out. -/
theorem handsOut_create (created : (w.creation place).1 = .ok p)
    (free : ((w.enrolled name place p).device device).poisoned = false)
    (outcome : Except Interruption Reply) :
    HandsOut (if place = device then some p.handle else none)
      ((Report.ofSession place outcome (w.creation place).2).callsOn device) := by
  rw [Report.callsOn_ofSession]
  -- The call that created the program is the only one, and its reply is the handle.
  by_cases same : place = device
  · subst same
    rw [enrolled, device_assign, if_pos rfl] at free
    obtain ⟨answer, calls, replied⟩ := calls_creation free
    rw [if_pos rfl, if_pos rfl, calls]
    refine .one ?_
    rw [created] at replied
    cases reply : answer.reply with
    | error failure => rw [reply] at replied; cases replied
    | ok h =>
        rw [reply] at replied
        obtain rfl := Except.ok.inj replied
        exact congrArg Except.toOption reply
  · rw [if_neg same, if_neg same]
    exact .nothing

/-- An action asks for nothing but what is done with its own program. -/
theorem callsOn_act {action : Action} {call : Call} (found : w.programs.get? name = some placed)
    (free : ((w.perform (.act name action)).2.device device).poisoned = false)
    (made : call ∈ (w.perform (.act name action)).1.callsOn device) :
    w.handleOn device name = some placed.program.handle ∧ call.request ≠ .create ∧
      (∀ k, call.request ≠ .delete k) ∧
        ∀ k, call.request.program? = some k → k = placed.program.handle := by
  rw [perform_act found] at free made
  dsimp only at free made
  rw [device_assign] at free
  rw [Report.callsOn_ofSession] at made
  by_cases same : placed.device = device
  · rw [if_pos same] at made
    rw [if_pos same.symm] at free
    rw [handleOn_found found, if_pos same]
    exact ⟨rfl, action.calls_of_free free call made⟩
  · rw [if_neg same] at made
    cases made

/-- An action leaves the handles as they are, and names only the one of its program. -/
theorem turnover_act {action : Action}
    (free : ((w.perform (.act name action)).2.device device).poisoned = false) :
    Turnover (w.handleOn device) ((w.perform (.act name action)).2.handleOn device)
      ((w.perform (.act name action)).1.callsOn device) := by
  cases found : w.programs.get? name with
  | none =>
      rw [perform_missing rfl found]
      exact .kept rfl (List.forall_mem_nil _)
  | some placed =>
      refine .kept ?_ fun call made => ?_
      · have handle := w.use_handle (.act name action) placed
        rw [perform_act found, handleOn_assign]
        dsimp only
        rw [handle, ← handleOn_found found, Function.update_eq_self]
      · obtain ⟨own, old, stays, named⟩ := callsOn_act found free made
        refine ⟨?_, stays, fun h names => ⟨name, own.trans (congrArg some (named h names).symm)⟩⟩
        cases out : call.handedOut? with
        | none => rfl
        | some h => exact absurd (Call.request_of_handedOut out) old

theorem turnover_create
    (free : ((w.perform (.create name place)).2.device device).poisoned = false) :
    Turnover (w.handleOn device) ((w.perform (.create name place)).2.handleOn device)
      ((w.perform (.create name place)).1.callsOn device) := by
  cases created : (w.creation place).1 with
  -- A failed creation hands out nothing, and the names stay. A new program takes its name
  -- from another one if there was one, which is then deleted.
  | error stop =>
      rw [perform_create_failed created] at free ⊢
      dsimp only at free ⊢
      rw [device_assign] at free
      rw [Report.callsOn_ofSession]
      refine .kept rfl ?_
      by_cases same : place = device
      · rw [if_pos same.symm] at free
        obtain ⟨answer, calls, replied⟩ := calls_creation free
        rw [if_pos same, calls]
        refine List.forall_mem_singleton.mpr ⟨?_, nofun, nofun⟩
        rw [created] at replied
        cases reply : answer.reply with
        | error failure => exact congrArg Except.toOption reply
        | ok h => rw [reply] at replied; cases replied
      · rw [if_neg same]
        exact List.forall_mem_nil _
  | ok p =>
      have next : (w.enrolled name place p).handleOn device = Function.update (w.handleOn device)
          name (if place = device then some p.handle else none) := handleOn_assign w _ device name _
      cases found : w.programs.get? name with
      | none =>
          rw [perform_create_new created found] at free ⊢
          have handsOut := handsOut_create created free (.ok (.created p.handle))
          rw [← List.append_nil (Report.callsOn device _)]
          exact .renewed name handsOut (handleOn_missing found ▸ .nothing) next
      | some replaced =>
          rw [perform_create_over created found] at free ⊢
          rw [Report.callsOn_append]
          exact .renewed name (handsOut_create created (free_of_retire (.created p.handle) free) _)
            (handleOn_found found ▸ deletes_retire free) next

/-- What a command does about the handles on a device whose lock is free afterwards. -/
theorem turnover_perform {c : Command σ} (free : ((w.perform c).2.device device).poisoned = false) :
    Turnover (w.handleOn device) ((w.perform c).2.handleOn device)
      ((w.perform c).1.callsOn device) := by
  cases c with
  | create name place => exact turnover_create free
  | discard name =>
      cases found : w.programs.get? name with
      | none =>
          rw [perform_missing rfl found]
          exact .kept rfl (List.forall_mem_nil _)
      | some placed =>
          rw [perform_discard_found found] at free ⊢
          exact .renewed name .nothing (handleOn_found found ▸ deletes_retire free)
            (handleOn_erase w _ device name)
  | act name action => exact turnover_act free
  | _ => exact .kept rfl (List.forall_mem_nil _)

/-- If the device hands out nothing for a new program, that is all there is to it. -/
theorem failed_creation {c : Command σ} {call : Call}
    (free : ((w.perform c).2.device device).poisoned = false)
    (made : call ∈ (w.perform c).1.callsOn device) (creates : call.request = .create)
    (nothing : call.handedOut? = none) :
    (w.perform c).1.callsOn device = [call] ∧ (w.perform c).2.programs = w.programs := by
  cases c with
  | create name place =>
      cases created : (w.creation place).1 with
      | error stop =>
          rw [perform_create_failed created] at free made ⊢
          dsimp only at free made ⊢
          rw [device_assign] at free
          rw [Report.callsOn_ofSession] at made ⊢
          by_cases same : place = device
          · rw [if_pos same.symm] at free
            obtain ⟨answer, calls, -⟩ := calls_creation free
            rw [if_pos same, calls] at made ⊢
            exact ⟨congrArg (fun call => [call]) (List.mem_singleton.mp made).symm, rfl⟩
          · rw [if_neg same] at made
            cases made
      -- A program that has been created got its handle by the only such call.
      | ok p =>
          refine absurd nothing ?_
          cases found : w.programs.get? name with
          | none =>
              rw [perform_create_new created found] at free made
              exact (handsOut_create created free _).ne_none made
          | some replaced =>
              rw [perform_create_over created found] at free made
              rw [Report.callsOn_append] at made
              rcases List.mem_append.mp made with made | made
              · have before := free_of_retire (.created p.handle) free
                exact (handsOut_create created before _).ne_none made
              · exact absurd creates ((deletes_retire free).ne_create made)
  | discard name =>
      cases found : w.programs.get? name with
      | none =>
          rw [perform_missing rfl found] at made
          cases made
      | some placed =>
          rw [perform_discard_found found] at free made
          exact absurd creates ((deletes_retire free).ne_create made)
  | act name action =>
      cases found : w.programs.get? name with
      | none =>
          rw [perform_missing rfl found] at made
          cases made
      | some placed => exact absurd creates (callsOn_act found free made).2.1
  | _ => cases made

/-- Nothing is asked on behalf of a program that does not exist on the device. -/
theorem callsOn_absent {c : Command σ} (user : c.user? = some name)
    (absent : w.handleOn device name = none) : (w.perform c).1.callsOn device = [] := by
  cases found : w.programs.get? name with
  | none =>
      rw [perform_missing user found]
      rfl
  | some placed =>
      -- A program that exists under the name has to be on another device.
      have other : ¬ placed.device = device := by
        intro same
        rw [handleOn_found found, if_pos same] at absent
        cases absent
      cases c with
      | act name action =>
          obtain rfl := Option.some.inj user
          rw [perform_act found, Report.callsOn_ofSession, if_neg other]
      | discard name =>
          obtain rfl := Option.some.inj user
          rw [perform_discard_found found, retire, Report.callsOn_ofSession, if_neg other]
      | _ => cases user

end Perform

theorem manages_of_books {w : Workspace σ} {device : String} {c : Command σ} {past : List Call}
    (books : Books (w.handleOn device) past)
    (free : ((w.perform c).2.device device).poisoned = false)
    (fresh : Throughout Call.Fresh past ((w.perform c).1.callsOn device)) :
    w.Manages device c where
  deleted := books.deleted (turnover_perform free) fresh
  failed _ made creates nothing := failed_creation free made creates nothing
  absent _ user absent := callsOn_absent user absent

theorem free_of_after {w : Workspace σ} {device : String} {commands : List (Command σ)}
    (free : ((w.after commands).device device).poisoned = false) :
    (w.device device).poisoned = false := by
  induction commands generalizing w with
  | nil => exact free
  | cons c rest ih => exact free_of_perform (ih free)

/-- The books are kept over a run. -/
theorem books_after {w : Workspace σ} {device : String} {commands : List (Command σ)}
    {past : List Call} (books : Books (w.handleOn device) past)
    (free : ((w.after commands).device device).poisoned = false)
    (fresh : Throughout Call.Fresh past (w.callsOn device commands)) :
    Books ((w.after commands).handleOn device) (past ++ w.callsOn device commands) ∧
      Throughout Call.NamesLive past (w.callsOn device commands) := by
  -- Induction on the commands, with the calls of those before as the past.
  induction commands generalizing w past with
  | nil =>
      refine ⟨?_, throughout_nil⟩
      rw [show w.callsOn device [] = [] from rfl, List.append_nil]
      exact books
  | cons c rest ih =>
      rw [callsOn_cons, throughout_append] at fresh
      have turn := turnover_perform (free_of_after (w := (w.perform c).2) free)
      obtain ⟨later, named⟩ := ih (books.turnover turn fresh.1) free fresh.2
      rw [callsOn_cons, throughout_append, ← List.append_assoc]
      exact ⟨later, books.namesLive turn, named⟩

/-- The lifecycle of handles. Take any run of commands from a workspace without programs,
    and a device whose lock is free in the end, so that it has not crashed and nobody has
    poisoned it, and which has never handed out a live handle. Then no call on it has
    named a program but by a live handle, which is one that an earlier call has handed out
    and that has not been deleted since. Every command has deleted once the handle that it
    gave up, and no other, and a program that could not be created has left nothing behind.
    And at every point the live handles are those of the programs that exist, each of
    which has one of its own. -/
theorem handle_lifecycle {w : Workspace σ} {device : String} {commands : List (Command σ)}
    (none : ∀ name, w.programs.get? name = none)
    (free : ((w.after commands).device device).poisoned = false)
    (fresh : Throughout Call.Fresh [] (w.callsOn device commands)) :
    Throughout Call.NamesLive [] (w.callsOn device commands) ∧
      (∀ front c back, commands = front ++ c :: back → (w.after front).Manages device c) ∧
      ∀ front back, commands = front ++ back →
        (∀ h, Live h (w.callsOn device front) ↔ (w.after front).Owns device h) ∧
        ∀ m n h, (w.after front).handleOn device m = some h →
          (w.after front).handleOn device n = some h → m = n := by
  have empty : Books (w.handleOn device) [] := .empty fun name => handleOn_missing (none name)
  -- What holds of the whole run holds of each part it begins with.
  have books : ∀ front back, commands = front ++ back →
      Books ((w.after front).handleOn device) (w.callsOn device front) := by
    rintro front back rfl
    rw [after, List.foldl_append] at free
    rw [callsOn_append, throughout_append] at fresh
    exact (books_after empty (free_of_after free) fresh.1).1
  refine ⟨(books_after empty free fresh).2, ?_, fun front back split =>
    ⟨(books front back split).live, (books front back split).distinct⟩⟩
  -- The books are kept up to the command, and it manages what they say.
  rintro front c back rfl
  rw [callsOn_append, callsOn_cons, throughout_append, throughout_append] at fresh
  rw [after, List.foldl_append] at free
  exact manages_of_books (books front (c :: back) rfl) (free_of_after free) fresh.2.1

/-- Two programs, one of which is replaced and the other discarded, and a third that the
    device will not create. -/
theorem handle_lifecycle_replaced :
    let w : Workspace Scripted := ⟨⟨[]⟩, ⟨[]⟩, ⟨[]⟩, default⟩
    let commands : List (Command Scripted) := [.create "sky" "d", .create "sea" "d",
      .create "sky" "d", .discard "sea",
      .configure "d" fun d => { d with createFailure := some (.backend "no memory") },
      .create "sea" "d", .act "sea" .removeStages, .act "sky" .removeStages]
    (w.callsOn "d" commands).map Call.request =
        [.create, .create, .create, .delete 1, .delete 2, .create, .removeStages 3] ∧
      Throughout Call.NamesLive [] (w.callsOn "d" commands) ∧ Live 3 (w.callsOn "d" commands) := by
  intro w commands
  have once : ((w.callsOn "d" commands).filterMap Call.handedOut?).Nodup := by decide +kernel
  have free : ((w.after commands).device "d").poisoned = false := by decide +kernel
  have requests : (w.callsOn "d" commands).map Call.request = [.create, .create, .create,
      .delete 1, .delete 2, .create, .removeStages 3] := by decide +kernel
  have sky : (w.after commands).handleOn "d" "sky" = some 3 := by decide +kernel
  obtain ⟨named, -, books⟩ := handle_lifecycle (fun _ => rfl) free (fresh_of_nodup once)
  obtain ⟨live, -⟩ := books commands [] (List.append_nil _).symm
  exact ⟨requests, named, (live 3).mpr ⟨"sky", sky⟩⟩

end Workspace

end ShaderBuild
