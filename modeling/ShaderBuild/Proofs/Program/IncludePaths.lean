import ShaderBuild.Proofs.Program.Spared

/-!
# Include Paths of Attached Stages

Which include paths the stages were preprocessed with that a program consists of.

An include path is refused while a cycle is open, so that all stages of one program
are preprocessed with the same. But a cycle is open only from the first stage to the
next attempt to link, while the stages stay attached until all of them are removed.
After an attempt to link, whether or not the device did, one more path may be added
and then one more stage, and the next attempt finds both kinds attached. So what the
refusal does ensure is less: the stages of one cycle agree, and any others were
preprocessed with the first of the paths there are now.

All this is about any run at all. The devices may be in any state at any turn, and may
crash; only, a crash poisons the lock for good, and so it is the end of all calls. The
turns of a run say what they were answered, because it is the answer that tells whether
a path was added. As paths are only ever added, what a turn has found is what the turns
before it have added (`Ran.includePaths_eq`), and the rest is a matter of lists.

## Main definitions

* `widenedBy`: The include paths that some turns have added.
* `Ran`: A program that has had some turns, on any devices.
* `attached`, `sinceLink`: The stages attached after some turns, and those of the last
  cycle.
* `Turn.Preprocessed`: The turn handed the device what its source comes to.
* `Uniform`, `Widened`: The stages agree, or a path was added in between.
* `Moves`: What a turn has to do with include paths.

## Theorems

* `Action.moves_turn`: What a turn has to do with include paths that was not torn down.
* `Tracked.turn`: What it keeps.
* `Ran.split`, `Ran.cut`, `Ran.whole`: Turns in the middle of a run, and those that link.
* `Ran.uniform_iff`: The stages agree unless a path was added in between.
* `Ran.includePaths_at_link`: The include paths of the stages that are linked.
* `Ran.widened_after_refusal`: Stages that do not agree.
-/

namespace ShaderBuild

open Operation

/-- The include path that a turn has added. -/
def Turn.widening? (turn : Turn) : Option Path :=
  match turn.outcome, turn.action with
  | .ok _, .addIncludePath path => some path
  | _, _ => none

/-- The include paths that some turns have added, in order. -/
def widenedBy (turns : List Turn) : List Path :=
  turns.filterMap Turn.widening?

/-- One of some turns was torn down by a crash. -/
def Torn (turns : List Turn) : Prop :=
  ∃ turn ∈ turns, turn.outcome = .error .crashed

/-- A program that was created under a handle, has had some turns, and is now as
    given. The devices may be in any state, but for one thing: a crash poisons the
    lock for good. -/
inductive Ran (σ : Type) [Device σ] (h : Handle) : List Turn → Program → Prop where
  | created : Ran σ h [] (Program.new h)
  | acted {turns : List Turn} {p : Program} (before : Ran σ h turns p) (around : Surroundings)
      (registryOf : String → Registry) (action : Action) (shared : Shared σ)
      (torn : Torn turns → shared.poisoned = true) :
    Ran σ h (turns ++ [action.turn around registryOf p shared])
      (action.session around registryOf p shared).owner

/-- The stages that are attached after some turns, as the turns that compiled them
    since all stages were last removed. -/
def attached (turns : List Turn) : List Turn :=
  (turns.rtakeWhile fun turn => !turn.removes).filter fun turn => turn.compiled

/-- The turns since the device was last asked to link. -/
def sinceLink (turns : List Turn) : List Turn :=
  turns.rtakeWhile fun turn => !turn.links

/-- The turn handed the device what its source comes to, searching the include paths it
    has found. -/
def Turn.Preprocessed (turn : Turn) : Prop :=
  ∃ stage source flat, turn.action = .addStage stage source ∧
    source.expansion ⟨turn.includePaths, turn.around.sharedPaths⟩ turn.around.tree = .ok flat ∧
    ∃ program line, .compile program stage (line ++ flat.text) ∈ turn.calls.map Call.request

/-- The stages were preprocessed with the same include paths. -/
def Uniform (stages : List Turn) : Prop :=
  ∀ first ∈ stages, ∀ second ∈ stages, first.includePaths = second.includePaths

/-- An include path was added between the compiling of two stages that are both
    attached. -/
def Widened (turns : List Turn) : Prop :=
  ∃ before first between second after,
    turns = before ++ first :: (between ++ second :: after) ∧
      first.compiled = true ∧ second.compiled = true ∧
      (∀ turn ∈ first :: (between ++ second :: after), turn.removes = false) ∧
      widenedBy between ≠ []

/-- What a turn has to do with include paths. A path is added only while no stage has
    been compiled since the last attempt to link. -/
structure Moves (p : Program) (turn : Turn) (q : Program) : Prop where
  paths : q.includePaths = p.includePaths ++ turn.widening?.toList
  closed : turn.widening? ≠ none → p.phase.isCycleOpen = false ∧ turn.calls = []
  opened : turn.links = false → turn.removes = false →
    p.phase.isCycleOpen = true ∨ turn.compiled = true → q.phase.isCycleOpen = true

namespace Action

variable {σ : Type} [Device σ] {p q : Program} {around : Surroundings}
  {registryOf : String → Registry} {action : Action}

theorem widening?_of_needsDevice {turn : Turn} (needs : turn.action.needsDevice = true) :
    turn.widening? = none := by
  unfold Turn.widening?
  split
  · next outcome action => rw [action] at needs; cases needs
  · rfl

/-- A turn that adds no include path is only asked whether it keeps a cycle open. -/
theorem moves_plain {turn : Turn} (plain : turn.widening? = none)
    (paths : q.includePaths = p.includePaths)
    (opened : turn.links = false → turn.removes = false →
      p.phase.isCycleOpen = true ∨ turn.compiled = true → q.phase.isCycleOpen = true) :
    Moves p turn q where
  paths := by rw [paths, plain]; exact (List.append_nil _).symm
  closed := fun widens => absurd plain widens
  opened := opened

/-- A turn that makes only idle calls and leaves phase and include paths alone. -/
theorem moves_idle {turn : Turn} (plain : turn.widening? = none)
    (idle : ∀ call ∈ turn.calls, call.request.idle = true)
    (paths : q.includePaths = p.includePaths) (phase : q.phase = p.phase) : Moves p turn q := by
  refine moves_plain plain paths fun _ _ opened => ?_
  rw [(turn.of_idle idle).1] at opened
  rw [phase]
  exact opened.resolve_right Bool.false_ne_true

/-- A turn that asks the device to link, or to remove the stages. -/
theorem moves_closing {turn : Turn} (plain : turn.widening? = none)
    (closing : turn.links = true ∨ turn.removes = true) (paths : q.includePaths = p.includePaths) :
    Moves p turn q := by
  -- The last part asks nothing of such a turn.
  refine moves_plain plain paths fun links removes => ?_
  rw [links, removes] at closing
  exact absurd closing (by decide)

/-- A turn that hands a source to the device. -/
theorem moves_opening {turn : Turn} (plain : turn.widening? = none)
    (opened : q.phase.isCycleOpen = true) (paths : q.includePaths = p.includePaths) :
    Moves p turn q :=
  moves_plain plain paths fun _ _ _ => opened

theorem moves_of_effect {d : σ} {outcome : Except Interruption Reply} {requests : List Request}
    (effect : Effect around registryOf d p action outcome q requests)
    (needs : action.needsDevice = true) {turn : Turn} (plain : turn.widening? = none)
    (calls : turn.calls = Device.journal d requests) : Moves p turn q := by
  have idle (made : ∀ r ∈ requests, r.idle = true) :
      ∀ call ∈ turn.calls, call.request.idle = true := calls ▸ Device.idle_journal made
  cases effect with
  -- Adding a path and inspecting need no device.
  | searching fits => cases needs
  | inspected => cases needs
  -- What the device was asked neither compiled nor closed anything.
  | refused unfit => exact moves_idle plain (idle (by simp)) rfl rfl
  | unread fits failed => exact moves_idle plain (idle (by simp [Request.idle])) rfl rfl
  | indexed => exact moves_idle plain (idle (by simp [Request.idle])) rfl rfl
  | missing fits reply => exact moves_idle plain (idle (by simp [Request.idle])) rfl rfl
  | attached fits reply => exact moves_idle plain (idle (by simp [Request.idle])) rfl rfl
  | attachedAt fits => exact moves_idle plain (idle (by simp [Request.idle])) rfl rfl
  | versioned => exact moves_idle plain (idle (by simp [Request.idle])) rfl rfl
  -- A cycle is open also after a source that was rejected.
  | accepted fits value reply => exact moves_opening plain rfl rfl
  | rejected fits value reply => exact moves_opening plain rfl rfl
  -- The first call tells, whatever else a linked program asks for after it.
  | removed => exact moves_closing plain (.inr (by rw [Turn.removes, calls]; rfl)) rfl
  | unlinked fits reply => exact moves_closing plain (.inl (by rw [Turn.links, calls]; rfl)) rfl
  | linked fits reply asks => exact moves_closing plain (.inl (by rw [Turn.links, calls]; rfl)) rfl
  | bound fits reply asks longest all =>
      exact moves_closing plain (.inl (by rw [Turn.links, calls]; rfl)) rfl
  | stopped fits reply longest next =>
      exact moves_closing plain (.inl (by rw [Turn.links, calls]; rfl)) rfl

theorem compiles_of_idle {r : Request} (idle : r.idle = true) : r.compiles = false := by
  cases r with
  | compile program stage source => cases idle
  | _ => rfl

/-- What a turn has compiled is its source, preprocessed with the paths it has found. -/
theorem preprocessed_of_effect {d : σ} {outcome : Except Interruption Reply}
    {requests : List Request} (effect : Effect around registryOf d p action outcome q requests)
    {turn : Turn} (found : turn.around = around ∧ turn.includePaths = p.includePaths)
    (same : turn.action = action) (calls : turn.calls = Device.journal d requests)
    (compiled : turn.compiled = true) : turn.Preprocessed := by
  obtain ⟨call, made, accepted⟩ := List.any_eq_true.mp compiled
  have kind : call.request.compiles = true := by
    rcases call with ⟨request, answer⟩
    cases request with
    | compile program stage source => rfl
    | _ => cases accepted
  -- Only two effects have handed the device a source; the others contradict `compiled`.
  have quiet (none : ∀ r ∈ requests, r.compiles = false) : turn.Preprocessed := by
    rw [none _ (Device.request_mem_of_mem_journal (calls ▸ made))] at kind
    cases kind
  have binding {blocks : List BoundBlock} {stopped : Option String} :
      ∀ r ∈ Request.link p.handle :: Program.bindingRequests p.handle blocks stopped,
        r.compiles = false :=
    List.forall_mem_cons.mpr
      ⟨rfl, fun r asked => compiles_of_idle (Program.idle_bindingRequests r asked)⟩
  have handed {stage : Stage} {source : StageSource} {flat : Flattened}
      (same : turn.action = .addStage stage source)
      (value : source.expansion ⟨p.includePaths, around.sharedPaths⟩ around.tree = .ok flat)
      (calls : turn.calls = Device.journal d [.version, Program.compileRequest d p stage flat]) :
      turn.Preprocessed := by
    refine ⟨stage, source, flat, same, by rwa [found.1, found.2], p.handle,
      (Device.answer d .version).1.reply.directive.toList, ?_⟩
    rw [calls]
    exact List.mem_cons_of_mem _ List.mem_cons_self
  cases effect with
  | accepted fits value reply => exact handed same value calls
  | rejected fits value reply => exact handed same value calls
  | bound fits reply asks longest all => exact quiet binding
  | stopped fits reply longest next => exact quiet binding
  | _ => exact quiet (by simp [Request.compiles])

/-- A path is added unless a cycle is open, whatever the device. -/
theorem moves_addIncludePath (around : Surroundings) (registryOf : String → Registry)
    (path : Path) (p : Program) (shared : Shared σ) :
    Moves p ((Action.addIncludePath path).turn around registryOf p shared)
      ((Action.addIncludePath path).session around registryOf p shared).owner := by
  let turn := (Action.addIncludePath path).turn around registryOf p shared
  -- It fits or it is refused, and it makes no call either way.
  cases opened : p.phase.isCycleOpen with
  | false =>
      have ends := (@Program.addIncludePath_comesTo σ _ p shared path opened).map
        fun _ => Reply.done
      have outcome : turn.outcome = .ok .done := ends.outcome
      have calls : turn.calls = [] := ends.calls
      have widens : turn.widening? = some path := by
        simp only [Turn.widening?, outcome]
        rfl
      refine ⟨?_, fun _ => ⟨opened, calls⟩, fun _ _ either => ?_⟩
      · rw [widens]
        exact congrArg Program.includePaths ends.owner
      · rw [Turn.compiled, calls, opened] at either
        exact absurd either (by decide)
  | true =>
      have unfit : (!p.phase.isCycleOpen) = false := by rw [opened]; rfl
      have ends : ComesTo shared (Operation.run (addIncludePath path |>.run around registryOf)
          (Session.start p shared)) (.error (.failed _)) p [] :=
        (Program.require_comesTo unfit).map _
      have outcome : turn.outcome = .error (.failed _) := ends.outcome
      have calls : turn.calls = [] := ends.calls
      have plain : turn.widening? = none := by
        simp only [Turn.widening?, outcome]
      refine moves_idle plain (calls ▸ List.forall_mem_nil _) ?_ ?_
      · exact congrArg Program.includePaths ends.owner
      · exact congrArg Program.phase ends.owner

/-- A turn that was not torn down, whatever its device. -/
theorem moves_turn (around : Surroundings) (registryOf : String → Registry) (action : Action)
    (p : Program) (shared : Shared σ)
    (intact : (action.turn around registryOf p shared).outcome ≠ .error .crashed) :
    Moves p (action.turn around registryOf p shared)
      (action.session around registryOf p shared).owner := by
  -- With the device it is as its effects are; without, it adds a path or only looks.
  cases needs : action.needsDevice with
  | true =>
      have plain : (action.turn around registryOf p shared).widening? = none :=
        widening?_of_needsDevice needs
      rcases effect_of_spared around registryOf intact with
        ⟨calls, owner⟩ | ⟨outcome, requests, effect, calls⟩
      · have idle : ∀ call ∈ (action.turn around registryOf p shared).calls,
            call.request.idle = true := by
          rw [show (action.turn around registryOf p shared).calls = [] from calls]
          exact List.forall_mem_nil _
        rcases owner with same | forgot
        · exact moves_idle plain idle (by rw [same]) (by rw [same])
        · exact moves_idle plain idle (by rw [forgot]) (by rw [forgot])
      · exact moves_of_effect effect needs plain calls
  | false =>
      cases action with
      | addIncludePath path => exact moves_addIncludePath around registryOf path p shared
      | inspect => exact moves_idle rfl (List.forall_mem_nil _) rfl rfl
      | _ => cases needs

/-- A device that is out of order is not called. -/
theorem calls_poisoned (around : Surroundings) (registryOf : String → Registry) (action : Action)
    (p : Program) {shared : Shared σ} (poisoned : shared.poisoned = true) :
    (action.session around registryOf p shared).calls = [] := by
  -- Refused the lock if it needs the device, and without a use for it if it does not.
  cases needs : action.needsDevice with
  | true =>
      obtain ⟨left, ⟨failure, log, fails⟩, -⟩ :=
        fails_run (s := Session.start p shared) around registryOf needs poisoned
      simp only [session, Operation.run, fails]
      rfl
  | false =>
      obtain ⟨outcome, left, requests, effect, ends⟩ :=
        @effect_of_idle σ _ around registryOf action p shared needs
      cases effect with
      | refused unfit => exact ends.calls
      | searching fits => exact ends.calls
      | inspected => exact ends.calls
      | _ => cases needs

end Action

theorem widenedBy_append (first second : List Turn) :
    widenedBy (first ++ second) = widenedBy first ++ widenedBy second :=
  List.filterMap_append

/-- What include paths have to do with the turns of a program none of which was torn down. -/
structure Tracked (turns : List Turn) (p : Program) : Prop where
  paths : p.includePaths = widenedBy turns
  cycle : ∀ stage ∈ attached (sinceLink turns),
    stage.includePaths = p.includePaths ∧ p.phase.isCycleOpen = true

theorem sinceLink_concat (turns : List Turn) (turn : Turn) :
    sinceLink (turns ++ [turn]) = if turn.links then [] else sinceLink turns ++ [turn] := by
  rw [sinceLink, List.rtakeWhile_concat]
  cases turn.links <;> rfl

theorem attached_concat (turns : List Turn) (turn : Turn) :
    attached (turns ++ [turn]) = if turn.removes then [] else
      attached turns ++ if turn.compiled then [turn] else [] := by
  rw [attached, List.rtakeWhile_concat]
  cases turn.removes with
  | true => rfl
  | false =>
      simp only [attached, Bool.not_false, if_true, Bool.false_eq_true, if_false]
      rw [List.filter_append]
      cases h : turn.compiled <;> simp [h]

theorem attached_compiled {turns : List Turn} {turn : Turn} (removes : turn.removes = false)
    (compiled : turn.compiled = true) : attached (turns ++ [turn]) = attached turns ++ [turn] := by
  rw [attached_concat, removes, compiled, if_neg Bool.false_ne_true, if_pos rfl]

theorem attached_idle {turns : List Turn} {turn : Turn} (removes : turn.removes = false)
    (compiled : turn.compiled = false) : attached (turns ++ [turn]) = attached turns := by
  rw [attached_concat, removes, compiled, if_neg Bool.false_ne_true, if_neg Bool.false_ne_true,
    List.append_nil]

/-- What is the case while a cycle is open, and once a stage has been compiled. -/
theorem Moves.cycle {p q : Program} {turn : Turn} (moves : Moves p turn q)
    (links : turn.links = false) (removes : turn.removes = false)
    (either : p.phase.isCycleOpen = true ∨ turn.compiled = true) :
    q.includePaths = p.includePaths ∧ q.phase.isCycleOpen = true := by
  -- A path is added outside of cycles only, by a turn that compiles nothing.
  have plain : turn.widening? = none := by
    by_contra widens
    obtain ⟨closed, calls⟩ := moves.closed widens
    rw [closed, Turn.compiled, calls] at either
    exact absurd either (by decide)
  refine ⟨?_, moves.opened links removes either⟩
  rw [moves.paths, plain]
  exact List.append_nil _

theorem Tracked.turn {turns : List Turn} {p q : Program} {turn : Turn}
    (tracked : Tracked turns p) (moves : Moves p turn q)
    (now : turn.includePaths = p.includePaths) : Tracked (turns ++ [turn]) q where
  paths := by
    rw [moves.paths, tracked.paths, widenedBy_append]
    simp only [widenedBy, List.filterMap_cons, List.filterMap_nil]
    cases turn.widening? <;> rfl
  cycle := by
    intro stage member
    rw [sinceLink_concat] at member
    cases links : turn.links with
    | true =>
        -- A new cycle, with no stages yet.
        rw [links, if_pos rfl] at member
        cases member
    | false =>
        rw [links, if_neg Bool.false_ne_true, attached_concat] at member
        cases removes : turn.removes with
        | true =>
            rw [removes, if_pos rfl] at member
            cases member
        | false =>
            rw [removes, if_neg Bool.false_ne_true] at member
            -- The stage was attached already, or this turn has compiled it.
            rcases List.mem_append.mp member with old | new
            · obtain ⟨paths, opened⟩ := tracked.cycle stage old
              obtain ⟨kept, still⟩ := moves.cycle links removes (.inl opened)
              exact ⟨paths.trans kept.symm, still⟩
            · cases compiled : turn.compiled with
              | false =>
                  rw [compiled, if_neg Bool.false_ne_true] at new
                  cases new
              | true =>
                  rw [compiled, if_pos rfl] at new
                  obtain rfl := List.mem_singleton.mp new
                  obtain ⟨kept, still⟩ := moves.cycle links removes (.inr compiled)
                  exact ⟨now.trans kept.symm, still⟩

namespace Ran

variable {σ : Type} [Device σ] {h : Handle} {turns before after : List Turn} {turn : Turn}
  {p : Program}

theorem tracked (ran : Ran σ h turns p) (whole : ¬ Torn turns) : Tracked turns p := by
  -- Induction on the turns, none of which was torn down.
  induction ran with
  | created => exact ⟨rfl, List.forall_mem_nil _⟩
  | @acted turns p before around registryOf action shared torn ih =>
      have intact : (action.turn around registryOf p shared).outcome ≠ .error .crashed :=
        fun crashed => whole ⟨_, List.mem_append_right _ (List.mem_singleton_self _), crashed⟩
      refine (ih fun ⟨turn, member, crashed⟩ => whole ⟨turn, ?_, crashed⟩).turn
        (Action.moves_turn around registryOf action p shared intact) rfl
      exact List.mem_append_left _ member

/-- Every turn was had by the program that those before it have left. -/
theorem split (ran : Ran σ h turns p) (split : turns = before ++ turn :: after) :
    ∃ (q : Program) (around : Surroundings) (registryOf : String → Registry) (action : Action)
      (shared : Shared σ), Ran σ h before q ∧ turn = action.turn around registryOf q shared ∧
        (Torn before → shared.poisoned = true) := by
  induction ran generalizing after with
  | created => cases before <;> cases split
  | @acted turns p earlier around registryOf action shared torn ih =>
      -- It is the last turn, or one of those before it.
      rcases List.eq_nil_or_concat after with rfl | ⟨others, last, rfl⟩
      · obtain ⟨rfl, same⟩ := List.append_inj' split rfl
        obtain rfl := List.singleton_inj.mp same
        exact ⟨p, around, registryOf, action, shared, earlier, rfl, torn⟩
      · refine @ih others ?_
        rw [List.concat_eq_append, ← List.cons_append, ← List.append_assoc] at split
        exact (List.append_inj' split rfl).1

/-- A device that is out of order is not asked to link. -/
theorem whole (ran : Ran σ h turns p) (split : turns = before ++ turn :: after)
    (links : turn.links = true) : ∃ q, Ran σ h before q ∧ ¬ Torn before ∧
      turn.includePaths = q.includePaths := by
  obtain ⟨q, around, registryOf, action, shared, earlier, rfl, torn⟩ := ran.split split
  refine ⟨q, earlier, fun crashed => ?_, rfl⟩
  -- A device that was torn down before is out of order, and makes no call.
  have silent : (action.turn around registryOf q shared).calls = [] :=
    Action.calls_poisoned around registryOf action q (torn crashed)
  rw [Turn.links, silent] at links
  cases links

/-- If no turn was torn down, then neither was any in the middle. -/
theorem cut (ran : Ran σ h turns p) (whole : ¬ Torn turns)
    (split : turns = before ++ turn :: after) :
    ∃ (q : Program) (around : Surroundings) (registryOf : String → Registry) (action : Action)
      (shared : Shared σ), Ran σ h before q ∧ ¬ Torn before ∧
        turn = action.turn around registryOf q shared ∧ turn.outcome ≠ .error .crashed := by
  obtain ⟨q, around, registryOf, action, shared, earlier, same, -⟩ := ran.split split
  refine ⟨q, around, registryOf, action, shared, earlier, ?_, same, fun crashed => ?_⟩
  · rintro ⟨other, member, crashed⟩
    exact whole ⟨other, split ▸ List.mem_append_left _ member, crashed⟩
  · exact whole ⟨turn, split ▸ List.mem_append_right _ List.mem_cons_self, crashed⟩

/-- What a turn has found of include paths is what was added before it. -/
theorem includePaths_eq (ran : Ran σ h turns p) (whole : ¬ Torn turns)
    (split : turns = before ++ turn :: after) : turn.includePaths = widenedBy before := by
  obtain ⟨q, around, registryOf, action, shared, earlier, whole, rfl, -⟩ := ran.cut whole split
  exact (earlier.tracked whole).paths

end Ran

theorem mem_attached_iff {turns : List Turn} {stage : Turn} :
    stage ∈ attached turns ↔ ∃ before after, turns = before ++ stage :: after ∧
      stage.compiled = true ∧ ∀ turn ∈ stage :: after, turn.removes = false := by
  constructor
  -- The stages are attached from the back, as far as to the last removal.
  · induction turns using List.reverseRecOn with
    | nil => exact fun member => absurd member List.not_mem_nil
    | append_singleton turns turn ih =>
        intro member
        rw [attached_concat] at member
        cases removes : turn.removes with
        | true =>
            rw [removes, if_pos rfl] at member
            cases member
        | false =>
            rw [removes, if_neg Bool.false_ne_true] at member
            rcases List.mem_append.mp member with old | new
            · obtain ⟨before, after, rfl, compiled, kept⟩ := ih old
              refine ⟨before, after ++ [turn], List.append_assoc _ _ _, compiled, ?_⟩
              intro other member
              rcases List.mem_append.mp (List.cons_append ▸ member) with earlier | last
              · exact kept other earlier
              · exact List.mem_singleton.mp last ▸ removes
            · split at new
              · next compiled =>
                obtain rfl := List.mem_singleton.mp new
                exact ⟨turns, [], rfl, compiled, List.forall_mem_singleton.mpr removes⟩
              · cases new
  · rintro ⟨before, after, rfl, compiled, kept⟩
    induction after using List.reverseRecOn with
    | nil =>
        rw [attached_compiled (kept stage List.mem_cons_self) compiled]
        exact List.mem_append_right _ (List.mem_singleton_self _)
    | append_singleton after turn ih =>
        rw [← List.cons_append, ← List.append_assoc, attached_concat,
          kept turn (by simp), if_neg Bool.false_ne_true]
        refine List.mem_append_left _ (ih fun other member => kept other ?_)
        exact List.cons_append ▸ List.mem_append_left _ member

namespace Ran

variable {σ : Type} [Device σ] {h : Handle} {turns before after : List Turn}
  {turn first second : Turn} {p : Program}

theorem widening?_of_compiled (ran : Ran σ h turns p) (whole : ¬ Torn turns)
    (split : turns = before ++ turn :: after) (compiled : turn.compiled = true) :
    turn.widening? = none := by
  obtain ⟨q, around, registryOf, action, shared, -, -, rfl, intact⟩ := ran.cut whole split
  by_contra widens
  obtain ⟨-, calls⟩ := (Action.moves_turn around registryOf action q shared intact).closed widens
  rw [Turn.compiled, calls] at compiled
  cases compiled

theorem preprocessed (ran : Ran σ h turns p) (whole : ¬ Torn turns)
    (split : turns = before ++ turn :: after) (compiled : turn.compiled = true) :
    turn.Preprocessed := by
  obtain ⟨q, around, registryOf, action, shared, -, -, rfl, intact⟩ := ran.cut whole split
  rcases Action.effect_of_spared around registryOf intact with
    ⟨calls, -⟩ | ⟨outcome, requests, effect, calls⟩
  · have silent : (action.turn around registryOf q shared).calls = [] := calls
    rw [Turn.compiled, silent] at compiled
    cases compiled
  · exact Action.preprocessed_of_effect effect ⟨rfl, rfl⟩ rfl calls compiled

/-- What was added from one stage to a later one. -/
theorem includePaths_later (ran : Ran σ h turns p) (whole : ¬ Torn turns)
    {between : List Turn} (split : turns = before ++ first :: (between ++ second :: after))
    (compiled : first.compiled = true) :
    second.includePaths = first.includePaths ++ widenedBy between := by
  -- The path that the later stage finds is that of the earlier one and what was added since.
  have later : turns = (before ++ first :: between) ++ second :: after := by
    rw [split, List.append_assoc, List.cons_append]
  have plain : widenedBy [first] = [] := by
    rw [widenedBy, List.filterMap_cons, ran.widening?_of_compiled whole split compiled]
    rfl
  rw [ran.includePaths_eq whole later, ran.includePaths_eq whole split, widenedBy_append,
    ← List.singleton_append, widenedBy_append, plain, List.nil_append]

/-- All attached stages have been preprocessed with the same include paths exactly if
    none was added in between. -/
theorem uniform_iff (ran : Ran σ h turns p) (whole : ¬ Torn turns) :
    Uniform (attached turns) ↔ ¬ Widened turns := by
  constructor
  -- Two attached stages with a widening in between have found different paths.
  · rintro uniform ⟨before, first, between, second, after, split, compiled, later, kept, widened⟩
    have same := uniform first (mem_attached_iff.mpr ⟨before, _, split, compiled, kept⟩)
      second (mem_attached_iff.mpr ⟨before ++ first :: between, after, ?_, later, ?_⟩)
    · rw [ran.includePaths_later whole split compiled] at same
      exact widened (List.self_eq_append_right.mp same)
    · rw [split, List.append_assoc, List.cons_append]
    · exact fun turn member => kept turn (List.mem_cons_of_mem _ (List.mem_append_right _ member))
  · intro narrow
    -- Of two attached stages, one is the earlier.
    have ordered : ∀ {before first between second after},
        turns = before ++ first :: (between ++ second :: after) → first.compiled = true →
          second.compiled = true →
          (∀ turn ∈ first :: (between ++ second :: after), turn.removes = false) →
          first.includePaths = second.includePaths := by
      intro before first between second after split compiled later kept
      rw [ran.includePaths_later whole split compiled]
      have none : widenedBy between = [] := by
        by_contra widened
        exact narrow ⟨before, first, between, second, after, split, compiled, later, kept, widened⟩
      rw [none, List.append_nil]
    intro first fst second snd
    obtain ⟨before, after, split, compiled, kept⟩ := mem_attached_iff.mp fst
    obtain ⟨before', after', split', compiled', kept'⟩ := mem_attached_iff.mp snd
    rcases List.append_eq_append_iff.mp (split.symm.trans split') with
      ⟨between, rfl, rest⟩ | ⟨between, rfl, rest⟩
    · rcases List.cons_eq_append_iff.mp rest with ⟨rfl, same⟩ | ⟨more, rfl, rfl⟩
      · rw [(List.cons_eq_cons.mp same).1]
      · exact ordered split compiled compiled' kept
    · rcases List.cons_eq_append_iff.mp rest with ⟨rfl, same⟩ | ⟨more, rfl, rfl⟩
      · rw [(List.cons_eq_cons.mp same).1]
      · exact (ordered split' compiled' compiled kept').symm

/-- One more turn, on a device in order. -/
theorem next (ran : Ran σ h turns p) (whole : ¬ Torn turns) (around : Surroundings)
    (registryOf : String → Registry) (action : Action) {shared : Shared σ}
    (free : shared.poisoned = false) (calm : Device.Calm shared.device) {q : Program}
    (leaves : (action.session around registryOf p shared).owner = q) :
    Ran σ h (turns ++ [action.turn around registryOf p shared]) q ∧
      ¬ Torn (turns ++ [action.turn around registryOf p shared]) := by
  refine ⟨leaves ▸ ran.acted around registryOf action shared fun torn => absurd torn whole, ?_⟩
  rintro ⟨turn, member, crashed⟩
  rcases List.mem_append.mp member with old | new
  · exact whole ⟨turn, old, crashed⟩
  · obtain rfl := List.mem_singleton.mp new
    obtain ⟨outcome, left, requests, effect, ends⟩ :=
      Action.effect_of_run around registryOf free calm action
    -- No effect ends in a crash.
    have ended : (action.turn around registryOf p shared).outcome = outcome := ends.outcome
    rw [ended] at crashed
    cases effect <;> cases crashed

/-- A turn that compiles a source which only asks for a block. -/
theorem staged_request {shared : Shared Scripted} (stage : Stage) (name : Path)
    (fits : p.phase ≠ .compileFailed) (free : shared.poisoned = false)
    (calm : Device.Calm shared.device) (accepts : shared.device.compileFailures = []) :
    let action : Action := .addStage stage (.code name "#autoresolve Camera\n".toList)
    let turn := action.turn default (fun _ => default) p shared
    turn.compiled = true ∧ turn.removes = false ∧ turn.links = false ∧
      (action.session default (fun _ => default) p shared).owner =
        { p with phase := .compiled, autoresolve := p.autoresolve ++ ["Camera"] } := by
  intro action turn
  have reply : Program.compileReply shared.device p stage ⟨['\n'], ["Camera"], []⟩ = .ok () := by
    change Scripted.outcome (shared.device.compileFailures.lookup stage) = .ok ()
    rw [accepts]
    rfl
  have ends : ComesTo shared (Operation.run (action.run default fun _ => default)
      (Session.start p shared)) _ _ _ :=
    (Program.stage_accepted fits free calm (StageSource.expansion_request name _ _) reply).map _
  have calls : turn.calls = Device.journal shared.device [.version, _] := ends.calls
  have accepted : turn.calls.any Call.compiled =
      (Program.compileReply shared.device p stage ⟨['\n'], ["Camera"], []⟩).isOk := by
    rw [calls]
    exact Bool.or_false _
  refine ⟨accepted.trans (by rw [reply]; rfl), ?_, ?_, ends.owner⟩
  · rw [Turn.removes, calls]
    rfl
  · rw [Turn.links, calls]
    rfl

/-- With which include paths the stages were preprocessed that are attached when the
    device is asked to link: those compiled since the last attempt with the present
    ones, and any others with the first of these. They are the same for all if and
    only if none was added in between, which nothing prevents once the device has been
    asked to link, whether it did or not. -/
theorem includePaths_at_link (ran : Ran σ h turns p) (split : turns = before ++ turn :: after)
    (links : turn.links = true) :
    (Uniform (attached before) ↔ ¬ Widened before) ∧
      (∀ stage ∈ attached (sinceLink before), stage.includePaths = turn.includePaths) ∧
      ∀ stage ∈ attached before, stage.Preprocessed ∧ stage.includePaths <+: turn.includePaths := by
  obtain ⟨q, earlier, whole, now⟩ := ran.whole split links
  have tracked := earlier.tracked whole
  refine ⟨earlier.uniform_iff whole, fun stage member => ?_, fun stage member => ?_⟩
  · rw [now]
    exact (tracked.cycle stage member).1
  · obtain ⟨first, rest, cut, compiled, -⟩ := mem_attached_iff.mp member
    refine ⟨earlier.preprocessed whole cut compiled, ?_⟩
    rw [now, tracked.paths, earlier.includePaths_eq whole cut, cut, widenedBy_append]
    exact List.prefix_append _ _

/-- A program with one include path is given two stages, and is linked: both were
    preprocessed with that path, and so none was added in between. -/
theorem includePaths_at_link_two_stages :
    ∃ before turn p, Ran Scripted 1 (before ++ [turn]) p ∧
      (before ++ [turn]).map (fun turn => turn.action) = [.addIncludePath ⟨"inc"⟩,
        .addStage .vertex (.code ⟨"sky.vert"⟩ "#autoresolve Camera\n".toList),
        .addStage .fragment (.code ⟨"sky.frag"⟩ "#autoresolve Camera\n".toList), .link "main"] ∧
      turn.links = true ∧ (attached before).map (fun stage => stage.includePaths) =
        [turn.includePaths, turn.includePaths] ∧
      ¬ Widened before ∧
      ∀ stage ∈ attached before, stage.Preprocessed := by
  let shared : Shared Scripted := ⟨{}, false⟩
  have free : shared.poisoned = false := rfl
  have calm : Device.Calm shared.device := Scripted.calm rfl
  let registryOf : String → Registry := fun _ => default
  let vertex : Action := .addStage .vertex (.code ⟨"sky.vert"⟩ "#autoresolve Camera\n".toList)
  let fragment : Action := .addStage .fragment (.code ⟨"sky.frag"⟩ "#autoresolve Camera\n".toList)
  let p₁ : Program := ⟨1, .empty, [⟨"inc"⟩], [], []⟩
  let p₂ : Program := ⟨1, .compiled, [⟨"inc"⟩], ["Camera"], []⟩
  let p₃ : Program := ⟨1, .compiled, [⟨"inc"⟩], ["Camera", "Camera"], []⟩
  obtain ⟨compiled, removes, -, staged⟩ := staged_request (p := p₁) .vertex ⟨"sky.vert"⟩
    (by decide) free calm rfl
  obtain ⟨compiled', removes', -, staged'⟩ := staged_request (p := p₂) .fragment ⟨"sky.frag"⟩
    (by decide) free calm rfl
  have none : ¬ Torn [] := fun ⟨_, member, _⟩ => List.not_mem_nil member
  obtain ⟨ran, whole⟩ := (Ran.created (h := 1)).next none default registryOf
    (.addIncludePath ⟨"inc"⟩) free calm (q := p₁) rfl
  obtain ⟨ran, whole⟩ := ran.next whole default registryOf vertex free calm (q := p₂) staged
  obtain ⟨ran, whole⟩ := ran.next whole default registryOf fragment free calm (q := p₃) staged'
  obtain ⟨ran, -⟩ := ran.next whole default registryOf (.link "main") free calm rfl
  obtain ⟨uniform, -, stages⟩ := includePaths_at_link ran rfl rfl
  -- Both stages are attached at the link, as no turn in between removes any.
  refine ⟨_, _, _, ran, rfl, rfl, ?_, uniform.mp ?_, fun stage member => (stages stage member).1⟩
  all_goals rw [attached_compiled removes' compiled', attached_compiled removes compiled,
    attached_idle rfl rfl]
  · rfl
  · have found : ∀ stage ∈ [vertex.turn default registryOf p₁ shared,
        fragment.turn default registryOf p₂ shared], stage.includePaths = [⟨"inc"⟩] :=
      List.forall_mem_cons.mpr ⟨rfl, List.forall_mem_singleton.mpr rfl⟩
    exact fun first fst second snd => (found first fst).trans (found second snd).symm

/-- A vertex stage, a refused attempt to link, one more include path, a fragment stage,
    and another attempt to link: the two stages were preprocessed with different include
    paths. -/
theorem widened_after_refusal :
    ∃ before turn p, Ran Scripted 1 (before ++ [turn]) p ∧
      (before ++ [turn]).map (fun turn => turn.action) =
        [.addStage .vertex (.code ⟨"sky.vert"⟩ "#autoresolve Camera\n".toList), .link "main",
          .addIncludePath ⟨"inc"⟩,
          .addStage .fragment (.code ⟨"sky.frag"⟩ "#autoresolve Camera\n".toList), .link "main"] ∧
      turn.links = true ∧
      (attached before).map (fun stage => stage.includePaths) = [[], [⟨"inc"⟩]] ∧
      ¬ Uniform (attached before) := by
  let shared : Shared Scripted := ⟨{ linkFailure := some (.linkage "no fragment stage") }, false⟩
  have free : shared.poisoned = false := rfl
  have calm : Device.Calm shared.device := Scripted.calm rfl
  let registryOf : String → Registry := fun _ => default
  let vertex : Action := .addStage .vertex (.code ⟨"sky.vert"⟩ "#autoresolve Camera\n".toList)
  let fragment : Action := .addStage .fragment (.code ⟨"sky.frag"⟩ "#autoresolve Camera\n".toList)
  let p₁ : Program := ⟨1, .compiled, [], ["Camera"], []⟩
  let p₂ : Program := ⟨1, .linkFailed, [], ["Camera"], []⟩
  let p₃ : Program := ⟨1, .linkFailed, [⟨"inc"⟩], ["Camera"], []⟩
  let p₄ : Program := ⟨1, .compiled, [⟨"inc"⟩], ["Camera", "Camera"], []⟩
  obtain ⟨compiled, removes, -, staged⟩ := staged_request (p := Program.new 1) .vertex ⟨"sky.vert"⟩
    (by decide) free calm rfl
  obtain ⟨compiled', removes', -, staged'⟩ := staged_request (p := p₃) .fragment ⟨"sky.frag"⟩
    (by decide) free calm rfl
  have none : ¬ Torn [] := fun ⟨_, member, _⟩ => List.not_mem_nil member
  obtain ⟨ran, whole⟩ := (Ran.created (h := 1)).next none default registryOf vertex free calm
    (q := p₁) staged
  obtain ⟨ran, whole⟩ := ran.next whole default registryOf (.link "main") free calm (q := p₂) rfl
  obtain ⟨ran, whole⟩ := ran.next whole default registryOf (.addIncludePath ⟨"inc"⟩) free calm
    (q := p₃) rfl
  obtain ⟨ran, whole⟩ := ran.next whole default registryOf fragment free calm (q := p₄) staged'
  obtain ⟨ran, -⟩ := ran.next whole default registryOf (.link "main") free calm rfl
  refine ⟨_, _, _, ran, rfl, rfl, ?_⟩
  rw [attached_compiled removes' compiled', attached_idle rfl rfl, attached_idle rfl rfl,
    attached_compiled removes compiled]
  refine ⟨rfl, fun uniform => ?_⟩
  have same : ([] : List Path) = [⟨"inc"⟩] := uniform _ List.mem_cons_self _
    (List.mem_cons_of_mem _ (List.mem_singleton_self _))
  exact absurd same (List.cons_ne_nil _ _).symm

end Ran

end ShaderBuild
