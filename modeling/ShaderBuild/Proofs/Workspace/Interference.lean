import ShaderBuild.Proofs.Program.Sharing

/-!
# Programs Do Not Interfere

What a program on a shared device has to do with the other programs of a workspace,
which is nothing.

The programs exist already, under handles of their own, and from now on each command
is done with one of them: it acts on it or discards it. Of such a run one can see what
every command answers, with its calls and its log entries, and what it leaves of its
program. The claim is that whoever looks only at the commands of one program sees the
same as in a run in which there are no others. The calls made under its handle are the
same too, since nobody else makes any.

Two workspaces are compared in which the program has come equally far (`Alike`). If
the next command is its own, then it comes to the same in both and they are alike
afterwards. If it is not, then it is done in only one of them, and they are alike all
the same. What lies behind the two steps is that an operation does not tell apart
sessions which differ in what the device knows of others, and asks for nothing that
concerns them.

## Main definitions

* `Command.user?`: The existing program that a command does something with.
* `Command.part`: What it does, as an operation.
* `Workspace.Used`: What a command comes to.
* `Workspace.Apart`: A program with a device and a handle of its own.
* `Workspace.Alike`: Two workspaces in which a program has come equally far.
* `Workspace.observe`: What there is to see of some commands.
* `Workspace.callsUnder`: The calls made under a handle.

## Theorems

* `perform_used`, `perform_missing`: What a command comes to, if its program exists and
  if not.
* `Apart.perform`: A command leaves the programs apart.
* `Alike.own`, `Alike.other`: The two steps.
* `observe_own`: Programs on a shared device do not interfere.
-/

namespace ShaderBuild

namespace Command

variable {σ : Type}

/-- The existing program that a command does something with. -/
def user? : Command σ → Option String
  | .act program _ | .discard program => some program
  | _ => none

/-- What a command does with a program, given its handle. -/
def part (around : Surroundings) (registryOf : String → Registry) (h : Handle) :
    Command σ → Generic Reply
  | .act _ action => fun _ _ => action.run around registryOf
  | .discard _ => fun _ _ => Operation.ask (.delete h) >>= fun _ => pure (.discarded true)
  | _ => fun _ _ => pure .done

/-- What is left under the name of a program that a command has been done with. -/
def remains (placed : Placed) (left : Program) : Command σ → Option Placed
  | .discard _ => none
  | _ => some { placed with program := left }

/-- What a command answers whose program does not exist. -/
def missing : Command σ → Except Trouble Reply
  | .discard _ => .ok (.discarded false)
  | _ => .error .noProgram

theorem made_part (around : Surroundings) (registryOf : String → Registry) (h : Handle)
    (c : Command σ) : Operation.Made h (c.part around registryOf h) := by
  cases c with
  | act program action => exact action.made around registryOf h
  | discard program => exact .bind (.ask (.of_program rfl rfl) rfl) fun _ => .pure _
  | _ => exact .pure _

end Command

/-- What there is to see of a command: what it answers, and what it leaves of the program
    it is done with. -/
structure Observation (σ : Type) where
  command : Command σ
  report : Report
  left : Option Placed

namespace Workspace

open Operation

variable {σ : Type}

/-- The calls made under a handle. -/
def callsUnder (h : Handle) (observations : List (Observation σ)) : List (String × Call) :=
  (observations.flatMap fun o => o.report.calls).filter fun call => call.2.request.program? = some h

theorem callsUnder_cons (h : Handle) (o : Observation σ) (rest : List (Observation σ)) :
    callsUnder h (o :: rest) =
      (o.report.calls.filter fun call => call.2.request.program? = some h) ++ callsUnder h rest := by
  rw [callsUnder, callsUnder, List.flatMap_cons, List.filter_append]

variable [Inhabited σ]

theorem device_self (w : Workspace σ) (name : String) (shared : Shared σ)
    (programs : Named Placed) :
    ({ w with devices := w.devices.assign name shared, programs } : Workspace σ).device name =
      shared := by
  simp only [device, Named.get?_assign, if_true, Option.getD_some]

variable [Device σ]

/-- The outcome and the session of a command that does something with a program. -/
def use (w : Workspace σ) (c : Command σ) (placed : Placed) :
    Except Interruption Reply × Session σ Program :=
  run (c.part w.around w.registry placed.program.handle σ)
    (Session.start placed.program (w.device placed.device))

/-- What a command comes to that is done with a program. -/
structure Used (w : Workspace σ) (c : Command σ) (name : String) (placed : Placed) : Prop where
  report : (w.perform c).1 = .ofSession placed.device (w.use c placed).1 (w.use c placed).2
  device : (w.perform c).2.device placed.device = (w.use c placed).2.shared
  program : (w.perform c).2.programs.get? name = c.remains placed (w.use c placed).2.owner
  others : ∀ other ≠ name, (w.perform c).2.programs.get? other = w.programs.get? other
  around : (w.perform c).2.around = w.around
  registries : (w.perform c).2.registries = w.registries

variable {w : Workspace σ} {c : Command σ} {name : String} {placed : Placed}

theorem perform_act {action : Action} (found : w.programs.get? name = some placed) :
    let used := w.use (.act name action) placed
    w.perform (.act name action) = (.ofSession placed.device used.1 used.2,
      { w with
        devices := w.devices.assign placed.device used.2.shared
        programs := w.programs.assign name { placed with program := used.2.owner } }) := by
  simp only [perform, act, found]
  rfl

theorem perform_discard (found : w.programs.get? name = some placed)
    (free : (w.device placed.device).poisoned = false) :
    let used := w.use (.discard name) placed
    w.perform (.discard name) = (.ofSession placed.device used.1 used.2,
      { w with
        devices := w.devices.assign placed.device used.2.shared
        programs := w.programs.erase name }) := by
  let start := Session.start placed.program (w.device placed.device)
  -- With the lock free, the program is deleted by a plain request.
  have deleted : run Program.delete start = run (ask (.delete placed.program.handle)) start := by
    simp only [run, Program.delete, start, Session.start, free, Bool.false_eq_true, if_false]
  have mapped : w.use (.discard name) placed = _ :=
    run_map (ask (.delete placed.program.handle)) (fun _ => Reply.discarded true) start
  rw [mapped, ← deleted]
  simp only [perform, discard, found, retire, runOn]
  rfl

theorem Used.of_perform {programs : Named Placed}
    (done : w.perform c = (.ofSession placed.device (w.use c placed).1 (w.use c placed).2,
      { w with devices := w.devices.assign placed.device (w.use c placed).2.shared, programs }))
    (program : programs.get? name = c.remains placed (w.use c placed).2.owner)
    (others : ∀ other ≠ name, programs.get? other = w.programs.get? other) :
    w.Used c name placed where
  report := by rw [done]
  device := by rw [done]; exact device_self _ _ _ _
  program := by rw [done]; exact program
  others := by rw [done]; exact others
  around := by rw [done]
  registries := by rw [done]

theorem perform_used (user : c.user? = some name) (found : w.programs.get? name = some placed)
    (free : (w.device placed.device).poisoned = false) : w.Used c name placed := by
  cases c with
  | act program action =>
      obtain rfl := Option.some.inj user
      refine .of_perform (perform_act found) ?_ fun other ne => ?_
      · rw [Named.get?_assign, if_pos rfl]
        rfl
      · rw [Named.get?_assign, if_neg ne]
  | discard program =>
      obtain rfl := Option.some.inj user
      refine .of_perform (perform_discard found free) ?_ fun other ne => ?_
      · rw [Named.get?_erase, if_pos rfl]
        rfl
      · rw [Named.get?_erase, if_neg ne]
  | _ => cases user

/-- What a command comes to whose program does not exist. -/
theorem perform_missing (user : c.user? = some name) (missing : w.programs.get? name = none) :
    w.perform c = (.quiet c.missing, w) := by
  cases c with
  | act program action =>
      obtain rfl := Option.some.inj user
      simp only [perform, act, missing]
      rfl
  | discard program =>
      obtain rfl := Option.some.inj user
      simp only [perform, discard, missing]
      rfl
  | _ => cases user

/-- All programs are on one device, which is in order, and only the one of a given name
    has a given handle. -/
structure Apart (w : Workspace σ) (device name : String) (h : Handle) : Prop where
  placed : ∀ n p, w.programs.get? n = some p → p.device = device
  own : ∀ p, w.programs.get? name = some p → p.program.handle = h
  others : ∀ n p, w.programs.get? n = some p → n ≠ name → p.program.handle ≠ h
  free : (w.device device).poisoned = false
  calm : Device.Calm (w.device device).device

/-- Two workspaces in which one program has come equally far. -/
structure Alike {τ : Type} (status : σ → Handle → τ) (device name : String) (h : Handle)
    (w w' : Workspace σ) : Prop where
  around : w.around = w'.around
  registries : w.registries = w'.registries
  program : w.programs.get? name = w'.programs.get? name
  known : status (w.device device).device h = status (w'.device device).device h

theorem use_handle (w : Workspace σ) (c : Command σ) (placed : Placed) :
    (w.use c placed).2.owner.handle = placed.program.handle :=
  (c.made_part w.around w.registry placed.program.handle).handle rfl

theorem use_onBehalf (calm : Device.Calm (w.device placed.device).device) :
    Session.AskedFor placed.program.handle (Session.start placed.program (w.device placed.device))
      (w.use c placed).2 :=
  ((c.made_part w.around w.registry placed.program.handle).onBehalf calm rfl).1

/-- A program that is still there afterwards has kept its device and its handle. -/
theorem Used.before (used : w.Used c name placed) (found : w.programs.get? name = some placed)
    {n : String} {p : Placed} (there : (w.perform c).2.programs.get? n = some p) :
    ∃ q, w.programs.get? n = some q ∧ p.device = q.device ∧
      p.program.handle = q.program.handle := by
  -- The program that was used is what the operation left; all others are as they were.
  by_cases same : n = name
  · subst same
    rw [used.program] at there
    refine ⟨placed, found, ?_⟩
    have handle := w.use_handle c placed
    cases c with
    | discard program => cases there
    | _ =>
        obtain rfl := Option.some.inj there
        exact ⟨rfl, handle⟩
  · rw [used.others n same] at there
    exact ⟨p, there, rfl, rfl⟩

section Steps

variable {τ : Type} {status : σ → Handle → τ} {w' : Workspace σ} {device user : String} {h : Handle}

/-- A command done with any program leaves the programs apart. -/
theorem Apart.perform (apart : w.Apart device name h) (uses : c.user? = some user) :
    (w.perform c).2.Apart device name h := by
  cases found : w.programs.get? user with
  | none => rwa [perform_missing uses found]
  | some placed =>
      obtain rfl : placed.device = device := apart.placed user placed found
      have used := perform_used uses found apart.free
      have asked := use_onBehalf (c := c) apart.calm
      -- In order: the devices, the own handle, those of others, the lock and the calm.
      refine ⟨fun n p there => ?_, fun p there => ?_, fun n p there ne => ?_, ?_, ?_⟩
      · obtain ⟨q, before, place, -⟩ := used.before found there
        exact place.trans (apart.placed n q before)
      · obtain ⟨q, before, -, handle⟩ := used.before found there
        exact handle.trans (apart.own q before)
      · obtain ⟨q, before, -, handle⟩ := used.before found there
        exact handle ▸ apart.others n q before ne
      · obtain ⟨requests, -, shared, -⟩ := asked
        rw [used.device, shared]
        exact apart.free
      · rw [used.device]
        exact asked.calm apart.calm

/-- A command done with the program itself comes to the same in alike workspaces. -/
theorem Alike.own (keeps : Device.KeepsApart status) (alike : Alike status device name h w w')
    (apart : w.Apart device name h) (apart' : w'.Apart device name h)
    (uses : c.user? = some name) :
    (w.perform c).1 = (w'.perform c).1 ∧
      Alike status device name h (w.perform c).2 (w'.perform c).2 := by
  cases found : w.programs.get? name with
  | none =>
      rw [perform_missing uses found, perform_missing uses (alike.program ▸ found)]
      exact ⟨rfl, alike⟩
  | some placed =>
      obtain rfl : placed.device = device := apart.placed name placed found
      obtain rfl : placed.program.handle = h := apart.own placed found
      have used := perform_used uses found apart.free
      have used' := perform_used uses (alike.program ▸ found) apart'.free
      -- Both run the same part in alike sessions, which it cannot tell apart.
      have registry : w.registry = w'.registry := by
        funext name
        rw [Workspace.registry, Workspace.registry, alike.registries]
      have start : Session.Alike status placed.program.handle
          (Session.start placed.program (w.device placed.device))
          (Session.start placed.program (w'.device placed.device)) :=
        ⟨rfl, rfl, rfl, apart.free.trans apart'.free.symm, alike.known⟩
      obtain ⟨outcome, left⟩ : SameRun status placed.program.handle
          (c.part w.around w.registry placed.program.handle σ) _ _ :=
        (c.made_part w.around w.registry placed.program.handle).sameRun keeps start rfl
      have run' : w'.use c placed = run (c.part w.around w.registry placed.program.handle σ)
          (Session.start placed.program (w'.device placed.device)) := by
        rw [use, alike.around, registry]
      constructor
      · rw [used.report, used'.report, run', use]
        simp only [Report.ofSession, outcome, left.calls, left.log]
      · refine ⟨?_, ?_, ?_, ?_⟩
        · rw [used.around, used'.around, alike.around]
        · rw [used.registries, used'.registries, alike.registries]
        · rw [used.program, used'.program, run', use, left.owner]
        · rw [used.device, used'.device, run']
          exact left.status

/-- A command done with another program makes no call under the handle, and changes
    nothing for the program. -/
theorem Alike.other (keeps : Device.KeepsApart status) (alike : Alike status device name h w w')
    (apart : w.Apart device name h) (uses : c.user? = some user) (ne : user ≠ name) :
    (∀ call ∈ (w.perform c).1.calls, call.2.request.program? ≠ some h) ∧
      Alike status device name h (w.perform c).2 w' := by
  cases found : w.programs.get? user with
  | none =>
      rw [perform_missing uses found]
      exact ⟨List.forall_mem_nil _, alike⟩
  | some placed =>
      obtain rfl : placed.device = device := apart.placed user placed found
      have used := perform_used uses found apart.free
      -- Whatever the other program asks for has nothing to do with this one.
      obtain ⟨requests, concern, shared, calls⟩ := use_onBehalf (c := c) apart.calm
      have foreign : ∀ r ∈ requests, r ≠ .create ∧ r.program? ≠ some h := fun r made =>
        ⟨(concern r made).old, fun named =>
          apart.others user placed found ne ((concern r made).own h named).symm⟩
      constructor
      · intro call made
        rw [used.report] at made
        obtain ⟨own, asked, rfl⟩ := List.mem_map.mp made
        rw [calls] at asked
        exact (foreign _ (Device.request_mem_of_mem_journal asked)).2
      · refine ⟨used.around.trans alike.around, used.registries.trans alike.registries, ?_, ?_⟩
        · exact (used.others name ne.symm).trans alike.program
        · rw [used.device, shared]
          exact (keeps.after_apart _ foreign).trans alike.known

end Steps

/-- What there is to see of some commands, one after another. -/
def observe (w : Workspace σ) : List (Command σ) → List (Observation σ)
  | [] => []
  | c :: rest =>
    let (report, after) := w.perform c
    ⟨c, report, c.user?.bind after.programs.get?⟩ :: after.observe rest

theorem observe_cons (w : Workspace σ) (c : Command σ) (rest : List (Command σ)) :
    w.observe (c :: rest) =
      ⟨c, (w.perform c).1, c.user?.bind (w.perform c).2.programs.get?⟩ ::
        (w.perform c).2.observe rest := rfl

theorem observe_alike {τ : Type} {status : σ → Handle → τ} (keeps : Device.KeepsApart status)
    {w w' : Workspace σ} {device name : String} {h : Handle} {commands : List (Command σ)}
    (uses : ∀ c ∈ commands, c.user? ≠ none) (apart : w.Apart device name h)
    (apart' : w'.Apart device name h) (alike : Alike status device name h w w') :
    let own := commands.filter fun c => c.user? = some name
    (w.observe commands).filter (fun o => o.command.user? = some name) = w'.observe own ∧
      callsUnder h (w.observe commands) = callsUnder h (w'.observe own) := by
  -- Induction on the commands, with two workspaces that stay alike.
  induction commands generalizing w w' with
  | nil => exact ⟨rfl, rfl⟩
  -- Both workspaces move on a command of the program, only the first on any other.
  | cons c rest ih =>
      obtain ⟨used, uses⟩ := List.forall_mem_cons.mp uses
      obtain ⟨user, used⟩ := Option.ne_none_iff_exists'.mp used
      intro own
      rw [observe_cons, callsUnder_cons]
      by_cases mine : user = name
      · subst mine
        have kept : own = c :: rest.filter fun c => c.user? = some user :=
          List.filter_cons_of_pos (decide_eq_true used)
        obtain ⟨report, after⟩ := alike.own keeps apart apart' used
        obtain ⟨seen, calls⟩ := ih uses (apart.perform used) (apart'.perform used) after
        have left : c.user?.bind (w.perform c).2.programs.get? =
            c.user?.bind (w'.perform c).2.programs.get? := by
          rw [used]
          exact after.program
        rw [List.filter_cons_of_pos (by exact decide_eq_true used), kept, observe_cons,
          callsUnder_cons, report, left, seen, calls]
        exact ⟨rfl, rfl⟩
      · have foreign : ¬ decide (c.user? = some name) = true := by
          rw [used, decide_eq_true_iff]
          exact fun same => mine (Option.some.inj same)
        have skipped : own = rest.filter fun c => c.user? = some name :=
          List.filter_cons_of_neg foreign
        obtain ⟨silent, after⟩ := alike.other keeps apart used mine
        have none : ((w.perform c).1.calls.filter fun call =>
            call.2.request.program? = some h) = [] :=
          List.filter_eq_nil_iff.mpr fun call made =>
            (not_congr decide_eq_true_iff).mpr (silent call made)
        rw [List.filter_cons_of_neg (by exact foreign), skipped, none, List.nil_append]
        exact ih uses (apart.perform used) apart' after

/-- Programs on a shared device do not interfere. Of a run of commands, whoever looks at
    those of one program sees what there is to see of them alone: the same answers,
    calls and entries, and the same program after each. And the calls that were made
    under its handle are those of its own commands. -/
theorem observe_own {τ : Type} {status : σ → Handle → τ} (keeps : Device.KeepsApart status)
    {w : Workspace σ} {device : String}
    (placed : ∀ name p, w.programs.get? name = some p → p.device = device)
    (distinct : ∀ m n p q, w.programs.get? m = some p → w.programs.get? n = some q →
      p.program.handle = q.program.handle → m = n)
    (free : (w.device device).poisoned = false) (calm : Device.Calm (w.device device).device)
    (commands : List (Command σ)) (uses : ∀ c ∈ commands, c.user? ≠ none)
    (name : String) (p : Placed) (found : w.programs.get? name = some p) :
    let own := commands.filter fun c => c.user? = some name
    (w.observe commands).filter (fun o => o.command.user? = some name) = w.observe own ∧
      callsUnder p.program.handle (w.observe commands) =
        callsUnder p.program.handle (w.observe own) := by
  have apart : w.Apart device name p.program.handle := by
    refine ⟨placed, fun q there => ?_, fun n q there ne same => ?_, free, calm⟩
    · rw [Option.some.inj (there.symm.trans found)]
    · exact ne (distinct n name q p there found same)
  exact observe_alike keeps uses apart apart ⟨rfl, rfl, rfl, rfl⟩

/-- Two programs, one of which is discarded while the other goes on. -/
theorem observe_own_interleaved :
    let sky : Placed := ⟨"d", Program.new 1⟩
    let sea : Placed := ⟨"d", ⟨2, .compiled, [], [], []⟩⟩
    let w : Workspace Scripted :=
      ⟨⟨[("d", ⟨{ nextHandle := 3 }, false⟩)]⟩, ⟨[("sky", sky), ("sea", sea)]⟩, ⟨[]⟩, default⟩
    let commands : List (Command Scripted) := [.act "sea" (.link "main"),
      .act "sky" (.addIncludePath ⟨"inc"⟩), .discard "sea", .act "sky" .removeStages]
    let left : Placed := ⟨"d", ⟨1, .empty, [⟨"inc"⟩], [], []⟩⟩
    ((w.observe commands).filter fun o => o.command.user? = some "sky").map Observation.left =
        [some left, some left] ∧
      (callsUnder 1 (w.observe commands)).map (fun call => call.2.request) = [.removeStages 1] := by
  intro sky sea w commands left
  have there : ∀ name p, w.programs.get? name = some p →
      name = "sky" ∧ p = sky ∨ name = "sea" ∧ p = sea := by
    intro name p found
    simp only [w, Named.get?, List.lookup_cons, List.lookup_nil] at found
    split at found
    · next same => exact Or.inl ⟨eq_of_beq same, (Option.some.inj found).symm⟩
    · split at found
      · next same => exact Or.inr ⟨eq_of_beq same, (Option.some.inj found).symm⟩
      · cases found
  have free : (w.device "d").poisoned = false := rfl
  have calm : Device.Calm (w.device "d").device := Scripted.calm rfl
  have own := observe_own Scripted.keepsApart (w := w) ?_ ?_ free calm commands
    (by simp [commands, Command.user?]) "sky" sky rfl
  · exact ⟨(congrArg (List.map Observation.left) own.1).trans rfl,
      (congrArg (List.map fun call => call.2.request) own.2).trans rfl⟩
  · intro name p found
    rcases there name p found with ⟨-, rfl⟩ | ⟨-, rfl⟩ <;> rfl
  · intro m n p q first second same
    rcases there m p first with ⟨rfl, rfl⟩ | ⟨rfl, rfl⟩ <;>
      rcases there n q second with ⟨rfl, rfl⟩ | ⟨rfl, rfl⟩ <;>
        first | rfl | cases same

end Workspace

end ShaderBuild
