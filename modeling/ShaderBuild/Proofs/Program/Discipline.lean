import ShaderBuild.Proofs.Program.Spared

/-!
# The Discipline of Calls

In which order a program makes its calls, whatever it is asked to do and however
the device answers.

A program is linked only if something has been compiled since its stages were last
removed, and nothing rejected. Buffers and blocks are bound only while the program
is linked, which is to say that the last call that could decide so has linked it.
And a program is made current only inside of one action: right after it has been
linked, for as long as its blocks are looked up and bound, and never without being
released.

None of this is checked against the calls, since a program keeps no record of them.
It keeps its phase, and what the phases allow is decided by the calls before. So
what has to be kept is that the phase stands for the calls (`Stands`), which every
effect of an action does. The calls are then in order because the guards of the
actions are about the phase.

A device may refuse anything and may be poisoned. Only a crash is left out, since
it tears an action down in the middle.

## Main definitions

* `callsSinceRemoval`: The calls since the stages were last removed.
* `lastDecision`: The last call to compile, to link or to remove the stages.
* `Allowed`: A call may be made after others.
* `Orderly`: Every one of some calls may be made when it is.
* `Bracketed`: The calls of an action leave no program current.
* `Stands`: The phase of a program stands for its calls.
* `Kept`: What an action keeps.

## Theorems

* `orderly_append`: Calls made in two parts.
* `orderly_idle`: Calls that decide nothing are in order, if what they attach may be.
* `Stands.idle`, `Stands.compile`, `Stands.remove`, `Stands.link`: What each kind of
  calls keeps.
* `bracketed_binding`: Binding blocks leaves no program current.
* `Stands.kept_idle`, `Stands.kept_compile`, `Stands.kept_link`: What an action keeps
  that makes such calls.
* `kept_of_effect`: What any action keeps.
* `Spared.discipline`: The discipline of calls.
-/

namespace ShaderBuild

theorem Phase.ne_compileFailed_of_canLink {phase : Phase} (h : phase.canLink = true) :
    phase ≠ .compileFailed := by
  rintro rfl
  cases h

namespace Request

/-- The request puts a buffer at a binding point, or lets a block read from one. -/
def attaches : Request → Bool
  | .bindBuffer .. | .bindBlock .. => true
  | _ => false

/-- The request looks up a block or attaches it. -/
def setsUp : Request → Bool
  | .blockIndex .. | .bindBuffer .. | .bindBlock .. => true
  | _ => false

/-- The request makes a program the current one, or makes none current. -/
def switches : Request → Bool
  | .bind _ | .release => true
  | _ => false

end Request

namespace Call

/-- The call handed the device a source, which was not accepted. -/
def rejected : Call → Bool
  | ⟨.compile .., answer⟩ => !answer.reply.isOk
  | _ => false

/-- The call asked the device to link, which it did. -/
def linked : Call → Bool
  | ⟨.link _, answer⟩ => answer.reply.isOk
  | _ => false

theorem rejected_of_idle {call : Call} (h : call.request.idle = true) : call.rejected = false := by
  rcases call with ⟨request, answer⟩
  cases request with
  | compile program stage source => cases h
  | _ => rfl

end Call

/-- The calls since the stages were last removed, or all if they never were. -/
def callsSinceRemoval (past : List Call) : List Call :=
  past.rtakeWhile fun call => !call.removes

/-- The last call to compile, to link or to remove the stages. -/
def lastDecision (past : List Call) : Option Call :=
  (past.filter fun call => !call.request.idle).getLast?

/-- A call on a program may be made after others: it names no other program, it
    links only what has been compiled, and attaches only what is linked. -/
structure Allowed (h : Handle) (past : List Call) (call : Call) : Prop where
  program : ∀ k, call.request.program? = some k → k = h
  link : call.links = true →
    (∃ c ∈ callsSinceRemoval past, c.compiled = true) ∧
      ∀ c ∈ callsSinceRemoval past, c.rejected = false
  attach : call.request.attaches = true → ∃ c, lastDecision past = some c ∧ c.linked = true

/-- Every one of some calls may be made when it is, after those before. -/
def Orderly (h : Handle) (past calls : List Call) : Prop :=
  ∀ before call after, calls = before ++ call :: after → Allowed h (past ++ before) call

/-- The calls of an action leave no program current. Either no call makes one
    current, or the program is, from right after it has been linked to the end of
    the action, with blocks looked up and attached in between. -/
def Bracketed (h : Handle) (calls : List Call) : Prop :=
  (∀ call ∈ calls, call.request.switches = false) ∨
    ∃ link bind setUp release, calls = link :: bind :: (setUp ++ [release]) ∧
      link.linked = true ∧ bind.request = .bind h ∧ release.request = .release ∧
      ∀ call ∈ setUp, call.request.setsUp = true

/-- The phase of a program stands for the calls made. -/
structure Stands (h : Handle) (past : List Call) (p : Program) : Prop where
  handle : p.handle = h
  accepted : p.phase ≠ .compileFailed → ∀ c ∈ callsSinceRemoval past, c.rejected = false
  compiled : p.phase.canLink = true → ∃ c ∈ callsSinceRemoval past, c.compiled = true
  linked : p.phase.isLinked = true → ∃ c, lastDecision past = some c ∧ c.linked = true

section Readings

variable {past calls : List Call} {call : Call}

theorem callsSinceRemoval_append (h : ∀ c ∈ calls, c.removes = false) :
    callsSinceRemoval (past ++ calls) = callsSinceRemoval past ++ calls := by
  -- The latest calls are at the end, so the list is read from the back.
  have stays : ∀ c ∈ calls.reverse, (!c.removes) = true := by
    intro c hc
    rw [h c (List.mem_reverse.mp hc)]
    rfl
  rw [callsSinceRemoval, callsSinceRemoval, List.rtakeWhile, List.rtakeWhile, List.reverse_append,
    List.takeWhile_append_of_pos stays, List.reverse_append, List.reverse_reverse]

theorem callsSinceRemoval_concat_removes (h : call.removes = true) :
    callsSinceRemoval (past ++ [call]) = [] := by
  rw [callsSinceRemoval, List.rtakeWhile_concat, h]
  rfl

theorem lastDecision_append_idle (idle : ∀ c ∈ calls, c.request.idle = true) :
    lastDecision (past ++ calls) = lastDecision past := by
  have none : calls.filter (fun c => !c.request.idle) = [] := by
    rw [List.filter_eq_nil_iff]
    intro c hc
    rw [idle c hc]
    exact Bool.false_ne_true
  rw [lastDecision, lastDecision, List.filter_append, none, List.append_nil]

theorem lastDecision_concat (h : call.request.idle = false) :
    lastDecision (past ++ [call]) = some call := by
  rw [lastDecision, List.filter_append, List.getLast?_append]
  simp only [List.filter_cons, h, Bool.not_false, if_true, List.filter_nil,
    List.getLast?_singleton, Option.some_or]

end Readings

section Order

variable {h : Handle} {past calls rest : List Call} {call : Call}

theorem orderly_nil : Orderly h past [] :=
  fun _ _ _ split => absurd split.symm (List.append_ne_nil_of_right_ne_nil _ (List.cons_ne_nil _ _))

/-- A call of the program that neither links nor attaches is always allowed. -/
theorem allowed_of_quiet (program : ∀ k, call.request.program? = some k → k = h)
    (links : call.links = false) (attaches : call.request.attaches = false) :
    Allowed h past call where
  program := program
  link linked := absurd linked (by rw [links]; exact Bool.false_ne_true)
  attach attached := absurd attached (by rw [attaches]; exact Bool.false_ne_true)

theorem orderly_cons (allowed : Allowed h past call) (orderly : Orderly h (past ++ [call]) rest) :
    Orderly h past (call :: rest) := by
  intro before c after split
  cases before with
  | nil =>
      obtain ⟨rfl, -⟩ := List.cons.inj split
      rwa [List.append_nil]
  | cons first before =>
      obtain ⟨rfl, rfl⟩ := List.cons.inj split
      have later := orderly before c after rfl
      rwa [List.append_assoc] at later

/-- Calls made in two parts. -/
theorem orderly_append (first : Orderly h past calls) (second : Orderly h (past ++ calls) rest) :
    Orderly h past (calls ++ rest) := by
  -- Induction on the first part, whose calls become calls of the past.
  induction calls generalizing past with
  | nil => rwa [List.append_nil] at second
  | cons call calls ih =>
      have allowed := first [] call calls rfl
      rw [List.append_nil] at allowed
      refine orderly_cons allowed (ih ?_ ?_)
      · intro before c after split
        rw [List.append_assoc]
        exact first (call :: before) c after (congrArg (call :: ·) split)
      · rwa [List.append_assoc]

/-- Calls that decide nothing are in order, if what they attach may be attached at
    their start. -/
theorem orderly_idle (idle : ∀ c ∈ calls, c.request.idle = true)
    (program : ∀ c ∈ calls, ∀ k, c.request.program? = some k → k = h)
    (ready : ∀ c ∈ calls, c.request.attaches = true →
      ∃ c, lastDecision past = some c ∧ c.linked = true) : Orderly h past calls := by
  -- No call in between decides anything, so the last decision is the one at the start.
  rintro before call after rfl
  have made : call ∈ before ++ call :: after := List.mem_append_right _ List.mem_cons_self
  refine ⟨program call made, ?_, ?_⟩
  · intro links
    rw [(Call.of_idle (idle call made)).2.1] at links
    cases links
  · intro attaches
    rw [lastDecision_append_idle fun c hc => idle c (List.mem_append_left _ hc)]
    exact ready call made attaches

end Order

theorem stands_new {h : Handle} : Stands h [] (Program.new h) :=
  ⟨rfl, fun _ => List.forall_mem_nil _, nofun, nofun⟩

namespace Stands

variable {h : Handle} {past calls : List Call} {call : Call} {p q : Program}

theorem eq_of_named (stands : Stands h past p) {k : Handle} (named : some p.handle = some k) :
    k = h :=
  (Option.some.inj named).symm.trans stands.handle

theorem idle (stands : Stands h past p) (idle : ∀ c ∈ calls, c.request.idle = true)
    (handle : q.handle = p.handle) (phase : q.phase = p.phase) : Stands h (past ++ calls) q := by
  -- Idle calls are not in any of the readings but the last ones of them.
  have since : callsSinceRemoval (past ++ calls) = callsSinceRemoval past ++ calls :=
    callsSinceRemoval_append fun c hc => (Call.of_idle (idle c hc)).2.2.1
  refine ⟨handle.trans stands.handle, ?_, ?_, ?_⟩
  · intro fits c hc
    rw [since] at hc
    rcases List.mem_append.mp hc with hc | hc
    · exact stands.accepted (phase ▸ fits) c hc
    · exact Call.rejected_of_idle (idle c hc)
  · intro fits
    obtain ⟨c, hc, compiled⟩ := stands.compiled (phase ▸ fits)
    exact ⟨c, since ▸ List.mem_append_left _ hc, compiled⟩
  · intro fits
    rw [lastDecision_append_idle idle]
    exact stands.linked (phase ▸ fits)

/-- A source is compiled only by a program without a failed stage, and decides
    whether it has one. -/
theorem compile (stands : Stands h past p) (fits : p.phase ≠ .compileFailed)
    {k : Handle} {stage : Stage} {source : Text} {answer : Answer (.compile k stage source)}
    (handle : q.handle = p.handle)
    (phase : q.phase = if answer.reply.isOk then .compiled else .compileFailed) :
    Stands h (past ++ [⟨.compile k stage source, answer⟩]) q := by
  have since : callsSinceRemoval (past ++ [⟨.compile k stage source, answer⟩]) =
      callsSinceRemoval past ++ [⟨.compile k stage source, answer⟩] :=
    callsSinceRemoval_append fun c hc => List.mem_singleton.mp hc ▸ rfl
  -- An accepted source opens the way to linking, and a rejected one closes it until the
  -- stages are removed.
  cases accepted : answer.reply.isOk with
  | true =>
      have compiled : Call.compiled ⟨.compile k stage source, answer⟩ = true := accepted
      rw [accepted, if_pos rfl] at phase
      refine ⟨handle.trans stands.handle, ?_, fun _ => ?_, fun linked => ?_⟩
      · intro _ c hc
        rw [since] at hc
        rcases List.mem_append.mp hc with hc | hc
        · exact stands.accepted fits c hc
        · rw [List.mem_singleton.mp hc, Call.rejected, accepted]
          rfl
      · exact ⟨_, since ▸ List.mem_append_right _ (List.mem_singleton_self _), compiled⟩
      · rw [phase] at linked
        cases linked
  | false =>
      rw [accepted, if_neg Bool.false_ne_true] at phase
      refine ⟨handle.trans stands.handle, fun fits => absurd phase fits, fun fits => ?_,
        fun linked => ?_⟩
      · rw [phase] at fits
        cases fits
      · rw [phase] at linked
        cases linked

/-- Nothing is left to stand for once the stages are removed. -/
theorem remove (stands : Stands h past p) (removes : call.removes = true)
    (handle : q.handle = p.handle) (phase : q.phase = .empty) : Stands h (past ++ [call]) q := by
  have since : callsSinceRemoval (past ++ [call]) = [] := callsSinceRemoval_concat_removes removes
  refine ⟨handle.trans stands.handle, fun _ => ?_, fun fits => ?_, fun linked => ?_⟩
  · rw [since]
    exact List.forall_mem_nil _
  · rw [phase] at fits
    cases fits
  · rw [phase] at linked
    cases linked

/-- A program that may be linked has compiled something, and nothing was rejected;
    linking decides only whether it is linked. -/
theorem link (stands : Stands h past p) (fits : p.phase.canLink = true) {k : Handle}
    {answer : Answer (.link k)} (handle : q.handle = p.handle)
    (linked : q.phase.isLinked = true → answer.reply.isOk = true) :
    Stands h (past ++ [⟨.link k, answer⟩]) q := by
  have since : callsSinceRemoval (past ++ [⟨.link k, answer⟩]) =
      callsSinceRemoval past ++ [⟨.link k, answer⟩] :=
    callsSinceRemoval_append fun c hc => List.mem_singleton.mp hc ▸ rfl
  refine ⟨handle.trans stands.handle, ?_, fun _ => ?_, fun islinked => ?_⟩
  · intro _ c hc
    rw [since] at hc
    rcases List.mem_append.mp hc with hc | hc
    · exact stands.accepted (Phase.ne_compileFailed_of_canLink fits) c hc
    · rw [List.mem_singleton.mp hc]
      rfl
  · obtain ⟨c, hc, compiled⟩ := stands.compiled fits
    exact ⟨c, since ▸ List.mem_append_left _ hc, compiled⟩
  · exact ⟨_, lastDecision_concat rfl, linked islinked⟩

end Stands

/-- What an action keeps: its calls are in order after those before, the phase it
    leaves stands for all of them, and no program is left current. -/
structure Kept (h : Handle) (past calls : List Call) (p : Program) : Prop where
  orderly : Orderly h past calls
  stands : Stands h (past ++ calls) p
  bracketed : Bracketed h calls

section Effects

open Program

variable {σ : Type} [Device σ] {h : Handle} {past : List Call} {d : σ} {p q : Program}
  {requests : List Request}

theorem program?_bindingRequests {blocks : List BoundBlock} {stopped : Option String} :
    ∀ r ∈ bindingRequests h blocks stopped, ∀ k, r.program? = some k → k = h := by
  intro r made k named
  simp only [bindingRequests, BoundBlock.requests, List.mem_append, List.mem_flatMap,
    List.mem_map, List.mem_cons, List.not_mem_nil, or_false] at made
  rcases made with ((rfl | ⟨b, -, rfl | rfl | rfl⟩) | ⟨name, -, rfl⟩) | rfl <;> cases named <;> rfl

/-- Binding blocks leaves no program current. -/
theorem bracketed_binding (ok : (Device.answer d (.link h)).1.reply.isOk = true)
    (blocks : List BoundBlock) (stopped : Option String) :
    Bracketed h (Device.journal d (.link h :: bindingRequests h blocks stopped)) := by
  -- Everything between the two switches is set up: blocks are looked up and attached.
  let setUp : List Request :=
    blocks.flatMap (BoundBlock.requests h) ++ stopped.toList.map (.blockIndex h)
  have requests : bindingRequests h blocks stopped = .bind h :: (setUp ++ [.release]) := by
    rw [bindingRequests, List.append_assoc [_], List.append_assoc, List.singleton_append]
  rw [requests, Device.journal, Device.journal, Device.journal_append]
  refine Or.inr ⟨_, _, _, _, rfl, ok, rfl, rfl, ?_⟩
  intro call made
  have asked := Device.request_mem_of_mem_journal made
  simp only [setUp, BoundBlock.requests, List.mem_append, List.mem_flatMap, List.mem_map,
    List.mem_cons, List.not_mem_nil, or_false] at asked
  rcases asked with ⟨b, -, same | same | same⟩ | ⟨name, -, same⟩
  · rw [same]; rfl
  · rw [same]; rfl
  · rw [same]; rfl
  · rw [← same]; rfl

namespace Stands

/-- No requests at all. -/
theorem kept_silent (stands : Stands h past p) (handle : q.handle = p.handle)
    (phase : q.phase = p.phase) : Kept h past [] q where
  orderly := orderly_nil
  stands := stands.idle (List.forall_mem_nil _) handle phase
  bracketed := Or.inl (List.forall_mem_nil _)

/-- Requests that decide nothing and leave the current program alone. -/
theorem kept_idle (stands : Stands h past p) (idle : ∀ r ∈ requests, r.idle = true)
    (program : ∀ r ∈ requests, ∀ k, r.program? = some k → k = p.handle)
    (ready : ∀ r ∈ requests, r.attaches = true → p.phase.isLinked = true)
    (switches : requests.any Request.switches = false)
    (handle : q.handle = p.handle) (phase : q.phase = p.phase) :
    Kept h past (Device.journal d requests) q := by
  -- Each part asks something of the requests, and the calls have these requests.
  have asked : ∀ c ∈ Device.journal d requests, c.request ∈ requests :=
    fun c hc => Device.request_mem_of_mem_journal hc
  refine ⟨orderly_idle ?_ ?_ ?_, stands.idle ?_ handle phase, Or.inl ?_⟩
  · exact fun c hc => idle _ (asked c hc)
  · exact fun c hc k named => (program _ (asked c hc) k named).trans stands.handle
  · exact fun c hc attaches => stands.linked (ready _ (asked c hc) attaches)
  · exact fun c hc => idle _ (asked c hc)
  · exact fun c hc => Bool.eq_false_iff.mpr (List.any_eq_false.mp switches _ (asked c hc))

/-- A source is handed to the device, which has been asked for its version. -/
theorem kept_compile (stands : Stands h past p) (fits : p.phase ≠ .compileFailed) {stage : Stage}
    {flat : Flattened} (handle : q.handle = p.handle)
    (phase : q.phase = if (compileReply d p stage flat).isOk then .compiled else .compileFailed) :
    Kept h past (Device.journal d [.version, compileRequest d p stage flat]) q := by
  -- The version is an idle request, so the program stands as before when it is compiled.
  have version : Stands h (past ++ Device.journal d [.version]) p :=
    stands.idle (Device.idle_journal (by simp [Request.idle])) rfl rfl
  have compiled := version.compile fits handle phase
  rw [List.append_assoc] at compiled
  refine ⟨?_, compiled, Or.inl ?_⟩
  · -- A call to compile is always allowed, and it neither links nor attaches.
    refine orderly_cons (allowed_of_quiet (by simp [Request.program?]) rfl rfl)
      (orderly_cons (allowed_of_quiet ?_ rfl rfl) orderly_nil)
    exact fun k named => stands.eq_of_named named
  · intro c hc
    have asked := Device.request_mem_of_mem_journal hc
    simp only [List.mem_cons, List.not_mem_nil, or_false] at asked
    rcases asked with same | same
    · rw [same]; rfl
    · rw [same]; rfl

/-- The device is asked to link, and to bind blocks if it has linked. -/
theorem kept_link (stands : Stands h past p) (fits : p.phase.canLink = true)
    (idle : ∀ r ∈ requests, r.idle = true)
    (program : ∀ r ∈ requests, ∀ k, r.program? = some k → k = p.handle)
    (ready : ∀ r ∈ requests, r.attaches = true →
      (Device.answer d (.link p.handle)).1.reply.isOk = true)
    (handle : q.handle = p.handle)
    (linked : q.phase.isLinked = true → (Device.answer d (.link p.handle)).1.reply.isOk = true)
    (bracketed : Bracketed h (Device.journal d (.link p.handle :: requests))) :
    Kept h past (Device.journal d (.link p.handle :: requests)) q := by
  have made : ∀ c ∈ Device.journal (Device.answer d (.link p.handle)).2 requests,
      c.request ∈ requests := fun c hc => Device.request_mem_of_mem_journal hc
  have after := (stands.link fits handle linked).idle
    (Device.idle_journal (d := (Device.answer d (.link p.handle)).2) idle) rfl rfl
  rw [List.append_assoc] at after
  refine ⟨orderly_cons ⟨?_, ?_, nofun⟩ (orderly_idle ?_ ?_ ?_), after, bracketed⟩
  · exact fun k named => stands.eq_of_named named
  · -- The guard is about the phase, and the phase stands for the calls.
    exact fun _ =>
      ⟨stands.compiled fits, stands.accepted (Phase.ne_compileFailed_of_canLink fits)⟩
  · exact Device.idle_journal idle
  · exact fun c hc k named => (program _ (made c hc) k named).trans stands.handle
  · -- What is attached behind the link is attached to what it has linked.
    exact fun c hc attaches => ⟨_, lastDecision_concat rfl, ready _ (made c hc) attaches⟩

/-- The device is asked to link, and nothing more. -/
theorem kept_link_alone (stands : Stands h past p) (fits : p.phase.canLink = true)
    (handle : q.handle = p.handle)
    (linked : q.phase.isLinked = true → (Device.answer d (.link p.handle)).1.reply.isOk = true) :
    Kept h past (Device.journal d [.link p.handle]) q :=
  stands.kept_link fits (List.forall_mem_nil _) (List.forall_mem_nil _) (List.forall_mem_nil _)
    handle linked (Or.inl fun _ hc => List.mem_singleton.mp hc ▸ rfl)

end Stands

/-- A turn keeps the discipline, whichever way its action went. -/
theorem kept_of_effect (stands : Stands h past p) {around : Surroundings}
    {registryOf : String → Registry} {action : Action} {outcome : Except Interruption Reply}
    (effect : Action.Effect around registryOf d p action outcome q requests) :
    Kept h past (Device.journal d requests) q := by
  -- The effects fall into few kinds by the requests they make.
  cases effect with
  | refused unfit => exact stands.kept_silent rfl rfl
  | searching fits => exact stands.kept_silent rfl rfl
  | inspected => exact stands.kept_silent rfl rfl
  | unread fits failed =>
      exact stands.kept_idle (by simp [Request.idle]) (by simp [Request.program?])
        (by simp [Request.attaches]) rfl rfl rfl
  | versioned =>
      exact stands.kept_idle (by simp [Request.idle]) (by simp [Request.program?])
        (by simp [Request.attaches]) rfl rfl rfl
  | accepted fits value reply =>
      exact stands.kept_compile fits rfl (by rw [reply]; rfl)
  | rejected fits value reply =>
      exact stands.kept_compile fits rfl (by rw [reply]; rfl)
  | removed =>
      -- Removing the stages is allowed in any phase.
      refine ⟨orderly_cons (allowed_of_quiet ?_ rfl rfl) orderly_nil,
        stands.remove rfl rfl rfl, Or.inl ?_⟩
      · exact fun k named => stands.eq_of_named named
      · exact fun c hc => List.mem_singleton.mp hc ▸ rfl
  | unlinked fits reply => exact stands.kept_link_alone fits rfl fun linked => absurd linked Bool.false_ne_true
  | linked fits reply plain =>
      exact stands.kept_link_alone fits rfl fun _ => by rw [reply]; rfl
  | bound fits reply asks longest all =>
      have ok : (Device.answer d (.link p.handle)).1.reply.isOk = true := by rw [reply]; rfl
      exact stands.kept_link fits idle_bindingRequests program?_bindingRequests (fun _ _ _ => ok)
        rfl (fun _ => ok) (stands.handle ▸ bracketed_binding ok _ _)
  | stopped fits reply longest next =>
      have ok : (Device.answer d (.link p.handle)).1.reply.isOk = true := by rw [reply]; rfl
      exact stands.kept_link fits idle_bindingRequests program?_bindingRequests (fun _ _ _ => ok)
        rfl (fun _ => ok) (stands.handle ▸ bracketed_binding ok _ _)
  | indexed =>
      exact stands.kept_idle (by simp [Request.idle]) (by simp [Request.program?])
        (by simp [Request.attaches]) rfl rfl rfl
  | missing fits reply =>
      exact stands.kept_idle (by simp [Request.idle]) (by simp [Request.program?])
        (by simp [Request.attaches]) rfl rfl rfl
  | attached fits reply =>
      exact stands.kept_idle (by simp [Request.idle]) (by simp [Request.program?])
        (fun _ _ _ => fits) rfl rfl rfl
  | attachedAt fits =>
      exact stands.kept_idle (by simp [Request.idle]) (by simp [Request.program?])
        (fun _ _ _ => fits) rfl rfl rfl

end Effects

namespace Spared

variable {σ : Type} [Device σ] {h : Handle} {turns : List Turn} {p : Program}

theorem kept (spared : Spared σ h turns p) :
    Orderly h [] (callsOf turns) ∧ Stands h (callsOf turns) p ∧
      ∀ turn ∈ turns, Bracketed h turn.calls := by
  -- Induction on the turns. The calls of a turn are in order after all those before it.
  induction spared with
  | created => exact ⟨orderly_nil, stands_new, List.forall_mem_nil _⟩
  | @acted turns p before around registryOf action shared intact ih =>
      obtain ⟨orderly, stands, bracketed⟩ := ih
      -- A turn that was refused the lock has made no calls, and kept the phase.
      have kept : Kept h (callsOf turns) (action.session around registryOf p shared).calls
          (action.session around registryOf p shared).owner := by
        rcases Action.effect_of_spared around registryOf intact with
          ⟨calls, owner⟩ | ⟨outcome, requests, effect, calls⟩
        · rw [calls]
          rcases owner with same | forgot
          · exact stands.kept_silent (by rw [same]) (by rw [same])
          · exact stands.kept_silent (by rw [forgot]) (by rw [forgot])
        · rw [calls]
          exact kept_of_effect stands effect
      refine ⟨?_, ?_, ?_⟩
      · rw [callsOf_concat]
        exact orderly_append orderly kept.orderly
      · rw [callsOf_concat]
        exact kept.stands
      · intro turn made
        rcases List.mem_append.mp made with made | made
        · exact bracketed turn made
        · rw [List.mem_singleton.mp made]
          exact kept.bracketed

/-- The discipline of calls. Whatever a program has been asked for, and however the
    device has answered, no call was made that may not be made after those before
    it, and no action left the program current. -/
theorem discipline (spared : Spared σ h turns p) :
    (∀ past call rest, callsOf turns = past ++ call :: rest → Allowed h past call) ∧
      ∀ turn ∈ turns, Bracketed h turn.calls := by
  obtain ⟨orderly, -, bracketed⟩ := spared.kept
  exact ⟨orderly, bracketed⟩

/-- A program that asks for a block, and is compiled and linked: every kind of call that
    needs the program current is made between its calls to bind and to release. -/
theorem discipline_bound :
    let registryOf : String → Registry :=
      fun _ => ⟨[("Camera", ⟨"Camera", 2, 7⟩)], by decide, by decide⟩
    let shared : Shared Scripted := ⟨{ blocks := [("Camera", 0)] }, false⟩
    let staging : Action := .addStage .vertex (.code ⟨"sky.vert"⟩ "#autoresolve Camera\n".toList)
    let staged : Program := ⟨1, .compiled, [], ["Camera"], []⟩
    let linked := (Action.link "main").turn default registryOf staged shared
    let turns : List Turn := [staging.turn default registryOf (Program.new 1) shared, linked]
    linked.calls.map Call.request = [.link 1, .bind 1, .blockIndex 1 "Camera", .bindBuffer 2 7,
        .bindBlock 1 0 2, .release] ∧
      (∀ past call rest, callsOf turns = past ++ call :: rest → Allowed 1 past call) ∧
      ∀ turn ∈ turns, Bracketed 1 turn.calls := by
  intro registryOf shared staging staged linked turns
  have calm : Device.Calm shared.device := Scripted.calm rfl
  have owner : (staging.session default registryOf (Program.new 1) shared).owner = staged :=
    ((Program.stage_accepted (p := Program.new 1) (by decide) rfl calm
      (StageSource.expansion_request _ _ _) rfl).map _).owner
  have lived : Lived Scripted 1 turns _ :=
    (Lived.created.next default registryOf rfl calm owner).acted default registryOf (.link "main")
      shared rfl calm
  exact ⟨by decide +kernel, discipline lived.spared⟩

end Spared

end ShaderBuild
