import Mathlib.Data.List.DropRight
import ShaderBuild.Proofs.Program.Effects

/-!
# The History of a Program

What the fields of a program say about the calls it has made. A program keeps no
record of them, but what it keeps is all there is to say: the blocks its stages
have asked for, how far it has come, and the blocks that are bound can be read
off the calls, and nothing else about the calls since its stages were last
removed can be read off the program.

A history is a list of turns, one for each action the program was asked for,
whether it was refused, failed or done. What a turn finds of device, files and
registries may be anything, since all of these are shared and others use them
between two turns. Only the program is what the turn before has left.

The three readings of a history do not look at the program. The blocks asked for
are those of the sources that were compiled, in order; the phase is what the last
call to compile or to link has decided; and the bound blocks are those that were
given a buffer in the last turn that linked. That the fields agree with them is
kept by every effect an action can have, so it holds after any number of turns.

The stages are removed by an action that has said so, whatever it asked of the
device: a removal that was refused does not begin a new history, and one that was
answered does, and has to have left the program as if it were new.

## Main definitions

* `Turn`: One action on a program, with the calls it made and what it was answered.
* `Lived`: A program that has had some turns.
* `sinceRemoval`: The turns since the last successful removal of the stages.
* `requestedBy`, `phaseAfter`, `boundBy`: The three readings of some turns.
* `Tells`: A program agrees with them.

## Theorems

* `boundIn_binding`: The blocks that binding requests bind.
* `Tells.idle`, `Tells.stage`, `Tells.link`: What each kind of calls keeps.
* `tells_of_effect`: What any action keeps.
* `Lived.fields_eq`: The fields of a program are the readings of its history.
-/

namespace ShaderBuild

/-- The request has no part in what a program remembers. -/
def Request.idle : Request → Bool
  | .compile .. | .link _ | .removeStages _ => false
  | _ => true

namespace Call

/-- The call handed the device a source. -/
def compiles : Call → Bool
  | ⟨.compile .., _⟩ => true
  | _ => false

/-- The call handed the device a source, which was accepted. -/
def compiled : Call → Bool
  | ⟨.compile .., answer⟩ => answer.reply.isOk
  | _ => false

/-- The call asked the device to link. -/
def links : Call → Bool
  | ⟨.link _, _⟩ => true
  | _ => false

/-- The call detached all stages. -/
def removes : Call → Bool
  | ⟨.removeStages _, _⟩ => true
  | _ => false

/-- The phase that a call to compile or to link decides. A successful linking
    goes as far as the blocks that were bound with it. -/
def phase? (allBound : Bool) : Call → Option Phase
  | ⟨.compile .., answer⟩ => some (if answer.reply.isOk then .compiled else .compileFailed)
  | ⟨.link _, answer⟩ => some
      (if answer.reply.isOk then if allBound then .autoresolveBound else .linked
      else .linkFailed)
  | _ => none

theorem of_idle {call : Call} (h : call.request.idle = true) :
    call.compiled = false ∧ call.links = false ∧ call.removes = false ∧
      ∀ allBound, call.phase? allBound = none := by
  rcases call with ⟨request, answer⟩
  cases request with
  | compile program stage source => cases h
  | link program => cases h
  | removeStages program => cases h
  | _ => exact ⟨rfl, rfl, rfl, fun _ => rfl⟩

theorem phase?_ne_sourceLoaded {call : Call} {allBound : Bool} :
    call.phase? allBound ≠ some .sourceLoaded := by
  rcases call with ⟨request, answer⟩
  cases request with
  | compile program stage source => simp only [phase?]; split <;> simp
  | link program => simp only [phase?]; split <;> (try split) <;> simp
  | _ => simp only [phase?, ne_eq, reduceCtorEq, not_false_eq_true]

end Call

/-- The blocks bound by some calls: the index of a block is asked for by name, a
    buffer is put at a binding point, and the block is let read from there. -/
def boundIn : List Call → List BoundBlock
  | [] => []
  | ⟨.blockIndex _ name, _⟩ :: ⟨.bindBuffer point buffer, _⟩ ::
      ⟨.bindBlock _ index _, _⟩ :: rest => ⟨name, index, point, buffer⟩ :: boundIn rest
  | _ :: rest => boundIn rest

/-- One action on a program: what it found of the files and of the program's own
    include paths, the calls it made, and what it was answered. -/
structure Turn where
  around : Surroundings
  includePaths : List Path
  action : Action
  calls : List Call
  outcome : Except Interruption Reply

namespace Turn

/-- The blocks asked for by the source the turn was given. -/
def requested (turn : Turn) : List String :=
  match turn.action with
  | .addStage _ source =>
    match source.expansion ⟨turn.includePaths, turn.around.sharedPaths⟩ turn.around.tree with
    | .ok flat => flat.autoresolve
    | .error _ => []
  | _ => []

/-- The turn compiled its source. -/
def compiled (turn : Turn) : Bool :=
  turn.calls.any Call.compiled

/-- The turn reached the device to link. -/
def links (turn : Turn) : Bool :=
  turn.calls.any Call.links

/-- The turn had the device detach all stages. -/
def removes (turn : Turn) : Bool :=
  turn.calls.any Call.removes

/-- The turn was asked to remove all stages, and has succeeded. -/
def removed (turn : Turn) : Bool :=
  match turn.outcome, turn.action with
  | .ok _, .removeStages => true
  | _, _ => false

theorem removed_eq_false {turn : Turn} (other : turn.action ≠ .removeStages) :
    turn.removed = false := by
  unfold removed
  split
  · next outcome action => exact absurd action other
  · rfl

end Turn

/-- The turns since the last successful removal of the stages, or all if there is none. -/
def sinceRemoval (turns : List Turn) : List Turn :=
  turns.rtakeWhile fun turn => !turn.removed

/-- The calls of some turns, in order. -/
def callsOf (turns : List Turn) : List Call :=
  turns.flatMap Turn.calls

/-- The blocks asked for by the sources that some turns have compiled. -/
def requestedBy (turns : List Turn) : List String :=
  (turns.filter Turn.compiled).flatMap Turn.requested

/-- The blocks bound in the last turn that reached the device to link. -/
def boundBy (turns : List Turn) : List BoundBlock :=
  match (turns.filter Turn.links).getLast? with
  | some turn => boundIn turn.calls
  | none => []

/-- Some block has been asked for, and all that have been are bound. -/
def allBound (turns : List Turn) : Bool :=
  requestedBy turns ≠ [] ∧ (boundBy turns).map BoundBlock.name = requestedBy turns

/-- The phase decided by the last call to compile or to link. -/
def phaseAfter (turns : List Turn) : Phase :=
  (((callsOf turns).filterMap (Call.phase? (allBound turns))).getLast?).getD .empty

/-- The session that an action on a program leaves. -/
def Action.session {σ : Type} [Device σ] (around : Surroundings) (registryOf : String → Registry)
    (action : Action) (p : Program) (shared : Shared σ) : Session σ Program :=
  (Operation.run (action.run around registryOf) (Session.start p shared)).2

/-- The turn in which an action is done. -/
def Action.turn {σ : Type} [Device σ] (around : Surroundings) (registryOf : String → Registry)
    (action : Action) (p : Program) (shared : Shared σ) : Turn where
  around := around
  includePaths := p.includePaths
  action := action
  calls := (action.session around registryOf p shared).calls
  outcome := (Operation.run (action.run around registryOf) (Session.start p shared)).1

/-- A program that was created under a handle, has had some turns, and is now as
    given. The device each turn finds is in order. -/
inductive Lived (σ : Type) [Device σ] (h : Handle) : List Turn → Program → Prop where
  | created : Lived σ h [] (Program.new h)
  | acted {turns : List Turn} {p : Program} (before : Lived σ h turns p) (around : Surroundings)
      (registryOf : String → Registry) (action : Action) (shared : Shared σ)
      (free : shared.poisoned = false) (calm : Device.Calm shared.device) :
    Lived σ h (turns ++ [action.turn around registryOf p shared])
      (action.session around registryOf p shared).owner

/-- The fields of a program say what some turns have made of it. -/
structure Tells (turns : List Turn) (p : Program) : Prop where
  autoresolve : p.autoresolve = requestedBy turns
  phase : p.phase = phaseAfter turns
  bound : p.bound = boundBy turns
  compiles : p.phase ≠ .empty → ∃ call ∈ callsOf turns, call.compiles = true

section Readings

variable {turns : List Turn} {turn : Turn}

theorem sinceRemoval_concat :
    sinceRemoval (turns ++ [turn]) = if turn.removed then [] else sinceRemoval turns ++ [turn] := by
  rw [sinceRemoval, List.rtakeWhile_concat]
  cases turn.removed <;> rfl

/-- Where the last successful removal is, the turns after it are those that count. -/
theorem sinceRemoval_of_removed {before recent : List Turn} (removed : turn.removed = true)
    (kept : ∀ later ∈ recent, later.removed = false) :
    sinceRemoval (before ++ turn :: recent) = recent := by
  -- From the back: no turn behind the removal ends the window, and the removal does.
  induction recent using List.reverseRecOn with
  | nil => rw [sinceRemoval_concat, removed, if_pos rfl]
  | append_singleton recent last ih =>
      rw [List.forall_mem_append, List.forall_mem_singleton] at kept
      rw [← List.cons_append, ← List.append_assoc, sinceRemoval_concat, kept.2,
        if_neg Bool.false_ne_true, ih kept.1]

theorem requestedBy_concat :
    requestedBy (turns ++ [turn]) =
      requestedBy turns ++ if turn.compiled then turn.requested else [] := by
  -- The new turn counts only if it has compiled its source.
  simp only [requestedBy, List.filter_append, List.flatMap_append]
  cases h : turn.compiled <;> simp [h]

theorem boundBy_concat :
    boundBy (turns ++ [turn]) = if turn.links then boundIn turn.calls else boundBy turns := by
  simp only [boundBy, List.filter_append]
  cases h : turn.links <;> simp [h]

theorem callsOf_concat : callsOf (turns ++ [turn]) = callsOf turns ++ turn.calls := by
  simp only [callsOf, List.flatMap_append, List.flatMap_singleton]

theorem phaseAfter_of_decided {phase : Phase}
    (h : (turn.calls.filterMap (Call.phase? (allBound (turns ++ [turn])))).getLast? = some phase) :
    phaseAfter (turns ++ [turn]) = phase := by
  rw [phaseAfter, callsOf_concat, List.filterMap_append, List.getLast?_append, h]
  rfl

theorem phaseAfter_ne_sourceLoaded : phaseAfter turns ≠ .sourceLoaded := by
  rw [phaseAfter]
  cases h : ((callsOf turns).filterMap (Call.phase? (allBound turns))).getLast? with
  | none => simp
  | some phase =>
      -- The last decision was made by some call, and no call decides on that phase.
      obtain ⟨call, -, decided⟩ := List.mem_filterMap.1 (List.mem_of_getLast? h)
      intro loaded
      rw [Option.getD_some] at loaded
      exact Call.phase?_ne_sourceLoaded (loaded ▸ decided)

end Readings

namespace Device

variable {σ : Type} [Device σ]

theorem idle_journal {d : σ} {requests : List Request}
    (h : ∀ r ∈ requests, r.idle = true) : ∀ call ∈ journal d requests, call.request.idle = true :=
  fun _ made => h _ (request_mem_of_mem_journal made)

theorem boundIn_blocks (d : σ) (h : Handle) (blocks : List BoundBlock) (rest : List Request) :
    boundIn (journal d (blocks.flatMap (BoundBlock.requests h) ++ rest)) =
      blocks ++ boundIn (journal (after d (blocks.flatMap (BoundBlock.requests h))) rest) := by
  -- A block is bound by three calls in a row, which `boundIn` reads as one.
  induction blocks generalizing d with
  | nil => rfl
  | cons b blocks ih =>
      simp only [List.flatMap_cons, BoundBlock.requests, List.cons_append, List.nil_append,
        journal, after, boundIn]
      exact congrArg (b :: ·) (ih _)

end Device

namespace Program

variable {σ : Type} [Device σ]

theorem boundIn_binding (d : σ) (h : Handle) (blocks : List BoundBlock)
    (stopped : Option String) :
    boundIn (Device.journal d (.link h :: bindingRequests h blocks stopped)) = blocks := by
  have stop : ∀ d' : σ, boundIn (Device.journal d'
      (stopped.toList.map (.blockIndex h) ++ [.release])) = [] := by
    intro d'
    cases stopped with
    | none => rfl
    | some name => rfl
  rw [bindingRequests, List.append_assoc, List.append_assoc]
  change boundIn (Device.journal _ (blocks.flatMap (BoundBlock.requests h) ++ _)) = blocks
  rw [Device.boundIn_blocks, stop, List.append_nil]

theorem idle_bindingRequests {h : Handle} {blocks : List BoundBlock} {stopped : Option String} :
    ∀ r ∈ bindingRequests h blocks stopped, r.idle = true := by
  intro r made
  simp only [bindingRequests, BoundBlock.requests, List.mem_append, List.mem_flatMap,
    List.mem_map, List.mem_cons, List.not_mem_nil, or_false] at made
  rcases made with ((rfl | ⟨b, -, rfl | rfl | rfl⟩) | ⟨name, -, rfl⟩) | rfl <;> rfl

end Program

section Keeping

variable {turns : List Turn} {turn : Turn} {p q : Program}

theorem Turn.of_idle (turn : Turn) (h : ∀ call ∈ turn.calls, call.request.idle = true) :
    turn.compiled = false ∧ turn.links = false ∧ turn.removes = false ∧
      ∀ allBound, turn.calls.filterMap (Call.phase? allBound) = [] := by
  refine ⟨?_, ?_, ?_, fun allBound => ?_⟩
  · exact List.any_eq_false.2 fun call made => by simp [(Call.of_idle (h call made)).1]
  · exact List.any_eq_false.2 fun call made => by simp [(Call.of_idle (h call made)).2.1]
  · exact List.any_eq_false.2 fun call made => by simp [(Call.of_idle (h call made)).2.2.1]
  · exact List.filterMap_eq_nil_iff.2 fun call made => (Call.of_idle (h call made)).2.2.2 allBound

/-- A turn that makes only idle calls leaves nothing to remember. -/
theorem Tells.idle (h : Tells turns p) (idle : ∀ call ∈ turn.calls, call.request.idle = true)
    (autoresolve : q.autoresolve = p.autoresolve) (phase : q.phase = p.phase)
    (bound : q.bound = p.bound) : Tells (turns ++ [turn]) q := by
  -- All readings of the turns are as they were, and so are the fields.
  obtain ⟨hcompiled, hlinks, -, hphase⟩ := turn.of_idle idle
  have hrequested : requestedBy (turns ++ [turn]) = requestedBy turns := by
    rw [requestedBy_concat, hcompiled, if_neg Bool.false_ne_true, List.append_nil]
  have hbound : boundBy (turns ++ [turn]) = boundBy turns := by
    rw [boundBy_concat, hlinks, if_neg Bool.false_ne_true]
  have hall : allBound (turns ++ [turn]) = allBound turns := by
    rw [allBound, allBound, hrequested, hbound]
  refine ⟨?_, ?_, ?_, fun some => ?_⟩
  · rw [autoresolve, h.autoresolve, hrequested]
  · rw [phase, h.phase, phaseAfter, phaseAfter, callsOf_concat, List.filterMap_append, hphase,
      List.append_nil, hall]
  · rw [bound, h.bound, hbound]
  · obtain ⟨call, made, compiles⟩ := h.compiles (phase ▸ some)
    exact ⟨call, by rw [callsOf_concat]; exact List.mem_append_left _ made, compiles⟩

theorem tells_nil {h : Handle} {paths : List Path} :
    Tells [] ⟨h, .empty, paths, [], []⟩ where
  autoresolve := rfl
  phase := rfl
  bound := rfl
  compiles := fun some => absurd rfl some

section Device

open Program

variable {σ : Type} [Device σ] {d : σ} {around : Surroundings}

/-- A turn that hands a source to the device. -/
theorem Tells.stage (h : Tells turns p) {stage : Stage} {source : StageSource} {flat : Flattened}
    {outcome : Except Interruption Reply}
    (value : source.expansion ⟨p.includePaths, around.sharedPaths⟩ around.tree = .ok flat)
    (autoresolve : q.autoresolve = p.autoresolve ++
      if (compileReply d p stage flat).isOk then flat.autoresolve else [])
    (phase : q.phase = if (compileReply d p stage flat).isOk then .compiled else .compileFailed)
    (bound : q.bound = p.bound) :
    Tells (turns ++ [⟨around, p.includePaths, .addStage stage source,
      Device.journal d [.version, compileRequest d p stage flat], outcome⟩]) q := by
  let turn : Turn := ⟨around, p.includePaths, .addStage stage source,
    Device.journal d [.version, compileRequest d p stage flat], outcome⟩
  have hcompiled : turn.compiled = (compileReply d p stage flat).isOk := Bool.or_false _
  have hlinks : turn.links = false := rfl
  have hasked : turn.requested = flat.autoresolve := by
    simp only [Turn.requested, turn, value]
  -- The last call is the one to compile, so it decides the phase.
  refine ⟨?_, ?_, ?_, fun _ => ?_⟩
  · rw [autoresolve, h.autoresolve, requestedBy_concat, hcompiled, hasked]
  · rw [phase]
    exact (phaseAfter_of_decided rfl).symm
  · rw [bound, h.bound, boundBy_concat, hlinks, if_neg Bool.false_ne_true]
  · rw [callsOf_concat]
    exact ⟨_, List.mem_append_right _ (List.mem_cons_of_mem _ List.mem_cons_self), rfl⟩

/-- A turn that asks the device to link. -/
theorem Tells.link (h : Tells turns p) {registry : String} {rest : List Request}
    {outcome : Except Interruption Reply}
    (fits : p.phase.canLink = true) (idle : ∀ r ∈ rest, r.idle = true)
    (autoresolve : q.autoresolve = p.autoresolve)
    (bound : q.bound = boundIn (Device.journal d (.link p.handle :: rest)))
    (phase : q.phase =
      if (Device.answer d (.link p.handle)).1.reply.isOk then
        if p.autoresolve ≠ [] ∧ q.bound.map BoundBlock.name = p.autoresolve then .autoresolveBound
        else .linked
      else .linkFailed) :
    Tells (turns ++ [⟨around, p.includePaths, .link registry,
      Device.journal d (.link p.handle :: rest), outcome⟩]) q := by
  let turn : Turn := ⟨around, p.includePaths, .link registry,
    Device.journal d (.link p.handle :: rest), outcome⟩
  obtain ⟨hrest, -, -, hphase⟩ := Turn.of_idle
    ⟨around, [], .inspect, Device.journal (Device.answer d (.link p.handle)).2 rest, outcome⟩
    (Device.idle_journal idle)
  have hcompiled : turn.compiled = false := hrest
  have hlinks : turn.links = true := rfl
  have hrequested : requestedBy (turns ++ [turn]) = p.autoresolve := by
    rw [requestedBy_concat, hcompiled, if_neg Bool.false_ne_true, List.append_nil, h.autoresolve]
  have hbound : boundBy (turns ++ [turn]) = q.bound := by
    rw [boundBy_concat, hlinks, if_pos rfl, bound]
  refine ⟨?_, ?_, hbound.symm, fun _ => ?_⟩
  · rw [autoresolve, hrequested]
  · -- Linking is the last decision of the turn, since binding decides nothing.
    refine phase.trans (phaseAfter_of_decided ?_).symm
    have decided : turn.calls.filterMap (Call.phase? (allBound (turns ++ [turn]))) =
        [if (Device.answer d (.link p.handle)).1.reply.isOk then
          if allBound (turns ++ [turn]) then .autoresolveBound else .linked
        else .linkFailed] := congrArg (_ :: ·) (hphase _)
    rw [decided, List.getLast?_singleton, allBound, hrequested, hbound]
    simp only [decide_eq_true_eq]
  · -- A program that fits has compiled something before.
    have some : p.phase ≠ .empty := by
      intro empty
      rw [empty] at fits
      cases fits
    obtain ⟨call, made, compiles⟩ := h.compiles some
    exact ⟨call, by rw [callsOf_concat]; exact List.mem_append_left _ made, compiles⟩

theorem map_name_of_all {registry : Registry} {handle : Handle} {names : List String}
    {blocks : List BoundBlock} (longest : LongestBound registry handle d names blocks)
    (all : names[blocks.length]? = none) : blocks.map BoundBlock.name = names := by
  refine longest.isPrefix.eq_of_length_le ?_
  rw [List.length_map]
  exact List.getElem?_eq_none_iff.1 all

theorem map_name_ne_of_stopped {names : List String} {blocks : List BoundBlock} {name : String}
    (next : names[blocks.length]? = some name) : blocks.map BoundBlock.name ≠ names := by
  rintro rfl
  rw [List.getElem?_eq_none (by rw [List.length_map])] at next
  cases next

/-- A turn keeps the agreement, whichever way its action went. Where the stages were
    removed, the agreement starts again with no turns. -/
theorem tells_of_effect (h : Tells turns p) {registryOf : String → Registry} {action : Action}
    {outcome : Except Interruption Reply} {requests : List Request}
    (effect : Action.Effect around registryOf d p action outcome q requests) :
    let turn : Turn := ⟨around, p.includePaths, action, Device.journal d requests, outcome⟩
    Tells (if turn.removed then [] else turns ++ [turn]) q := by
  -- The effects are of the three kinds above, but for the removal, which starts anew.
  cases effect with
  | refused unfit => exact h.idle (Device.idle_journal (by simp)) rfl rfl rfl
  | searching fits => exact h.idle (Device.idle_journal (by simp)) rfl rfl rfl
  | unread fits failed => exact h.idle (Device.idle_journal (by simp [Request.idle])) rfl rfl rfl
  | accepted fits value reply =>
      exact h.stage value (by rw [reply]; rfl) (by rw [reply]; rfl) rfl
  | rejected fits value reply =>
      exact h.stage value (by rw [reply]; exact (List.append_nil _).symm) (by rw [reply]; rfl) rfl
  | removed => exact tells_nil
  | unlinked fits reply =>
      exact h.link fits (by simp) rfl rfl (by rw [reply]; rfl)
  | linked fits reply plain =>
      exact h.link fits (by simp) rfl rfl (by rw [reply]; simp [plain, Except.isOk, Except.toBool])
  | bound fits reply asks longest all =>
      refine h.link fits idle_bindingRequests rfl (boundIn_binding _ _ _ _).symm ?_
      rw [reply]
      exact (if_pos ⟨asks, map_name_of_all longest all⟩).symm
  | stopped fits reply longest next =>
      refine h.link fits idle_bindingRequests rfl (boundIn_binding _ _ _ _).symm ?_
      rw [reply]
      exact (if_neg fun all => map_name_ne_of_stopped next all.2).symm
  | indexed => exact h.idle (Device.idle_journal (by simp [Request.idle])) rfl rfl rfl
  | missing fits reply => exact h.idle (Device.idle_journal (by simp [Request.idle])) rfl rfl rfl
  | attached fits reply =>
      exact h.idle (Device.idle_journal (by simp [Request.idle])) rfl rfl rfl
  | attachedAt fits => exact h.idle (Device.idle_journal (by simp [Request.idle])) rfl rfl rfl
  | versioned => exact h.idle (Device.idle_journal (by simp [Request.idle])) rfl rfl rfl
  | inspected => exact h.idle (Device.idle_journal (by simp)) rfl rfl rfl

end Device

end Keeping

namespace Lived

variable {σ : Type} [Device σ] {h : Handle} {turns : List Turn} {p : Program}

theorem tells (lived : Lived σ h turns p) : Tells (sinceRemoval turns) p := by
  -- Induction on the turns; what each has done is one of the effects.
  induction lived with
  | created => exact tells_nil
  | @acted turns p before around registryOf action shared free calm ih =>
      rcases Action.effect_of_run around registryOf free calm action with
        ⟨outcome, left, requests, effect, ends⟩
      have owner : (action.session around registryOf p shared).owner = left := ends.owner
      have made : action.turn around registryOf p shared =
          ⟨around, p.includePaths, action, Device.journal shared.device requests, outcome⟩ :=
        congrArg₂ (Turn.mk around p.includePaths action) ends.calls ends.outcome
      rw [owner, made, sinceRemoval_concat]
      exact tells_of_effect ih effect

/-- One more turn, which leaves a known program. -/
theorem next (lived : Lived σ h turns p) (around : Surroundings) (registryOf : String → Registry)
    {action : Action} {shared : Shared σ} (free : shared.poisoned = false)
    (calm : Device.Calm shared.device) {q : Program}
    (leaves : (action.session around registryOf p shared).owner = q) :
    Lived σ h (turns ++ [action.turn around registryOf p shared]) q :=
  leaves ▸ lived.acted around registryOf action shared free calm

/-- The fields of a program are what its calls since the last removal of its
    stages say: the blocks asked for by what was compiled, the phase decided by
    the last call to compile or to link, which is the empty one if nothing was
    compiled, and the blocks bound by the last linking. -/
theorem fields_eq (lived : Lived σ h turns p) :
    let recent := sinceRemoval turns
    p.autoresolve = requestedBy recent ∧
    p.phase = phaseAfter recent ∧
    ((∀ call ∈ callsOf recent, call.compiles = false) → p.phase = .empty) ∧
    p.phase ≠ .sourceLoaded ∧
    p.bound = boundBy recent := by
  intro recent
  have tells := lived.tells
  refine ⟨tells.autoresolve, tells.phase, fun none => ?_, ?_, tells.bound⟩
  · by_contra some
    obtain ⟨call, made, compiles⟩ := tells.compiles some
    rw [none call made] at compiles
    cases compiles
  · rw [tells.phase]
    exact phaseAfter_ne_sourceLoaded

/-- A program whose stage is removed, added again and linked. It has asked for the block
    twice, but only once since the removal. -/
theorem fields_eq_after_removal :
    let registryOf : String → Registry :=
      fun _ => ⟨[("Camera", ⟨"Camera", 2, 7⟩)], by decide, by decide⟩
    let shared : Shared Scripted := ⟨{ blocks := [("Camera", 0)] }, false⟩
    let staging : Action := .addStage .vertex (.code ⟨"sky.vert"⟩ "#autoresolve Camera\n".toList)
    let staged : Program := ⟨1, .compiled, [], ["Camera"], []⟩
    let first := staging.turn default registryOf (Program.new 1) shared
    let removal := Action.removeStages.turn default registryOf staged shared
    let recent := [staging.turn default registryOf (Program.new 1) shared,
      (Action.link "main").turn default registryOf staged shared]
    sinceRemoval ([first] ++ removal :: recent) = recent ∧
      requestedBy recent = ["Camera"] ∧ phaseAfter recent = .autoresolveBound ∧
      boundBy recent = [⟨"Camera", 0, 2, 7⟩] := by
  intro registryOf shared staging staged first removal recent
  -- The device is in order and every turn is known, so the program has lived through them.
  have calm : Device.Calm shared.device := Scripted.calm rfl
  have owner : (staging.session default registryOf (Program.new 1) shared).owner = staged :=
    ((Program.stage_accepted (p := Program.new 1) (by decide) rfl calm
      (StageSource.expansion_request _ _ _) rfl).map _).owner
  have renewed : (Action.removeStages.session default registryOf staged shared).owner =
      Program.new 1 := rfl
  have once := Lived.created.next default registryOf rfl calm owner
  have again := (once.next default registryOf rfl calm renewed).next default registryOf rfl calm owner
  have lived : Lived Scripted 1 ([first] ++ removal :: recent) _ :=
    again.acted default registryOf (.link "main") shared rfl calm
  have since : sinceRemoval ([first] ++ removal :: recent) = recent := by
    refine sinceRemoval_of_removed rfl (List.forall_mem_cons.mpr ⟨?_, ?_⟩)
    · exact Turn.removed_eq_false nofun
    · exact List.forall_mem_singleton.mpr (Turn.removed_eq_false nofun)
  obtain ⟨autoresolve, phase, -, -, bound⟩ := lived.fields_eq
  rw [since] at autoresolve phase bound
  refine ⟨since, autoresolve.symm.trans ?_, phase.symm.trans ?_, bound.symm.trans ?_⟩
  all_goals decide +kernel

end Lived

end ShaderBuild
