import ShaderBuild.Proofs.Since
import ShaderBuild.Workspace.Basic

/-!
# The History of a Registry

What is found in a registry, read off what has been done with it.

Buffers are registered and removed in any order, and a registry keeps no record of it.
Still it has nothing that its history does not say: under a name it has the buffer that
was registered there last, unless the name was freed since. An attempt that was refused
does not count, and whether one was cannot be told from the action. So a history is a
list of turns, each of which says what its action has come to.

Names do not get in each other's way. An action matters to a name only if it registers
a buffer under it or frees it (`RegistryTurn.Touches`), whatever it does to other names.
One lemma on what an action leaves under each name (`Follows.concat`) is then enough for
all of them.

## Main definitions

* `RegistryTurn`: One action on a registry, with what it came to.
* `RegistryTurn.Touches`: The turn has registered a buffer under a name, or freed it.
* `Held`: A buffer was registered under a name, and the name was not touched since.
* `Registry.after`, `Registry.turns`: A registry after some actions, and their turns.
* `Registry.Follows`: What is found under each name is what is held there.

## Theorems

* `run_register_free`, `run_register_taken`: What comes of registering a buffer.
* `Follows.concat`: What an action has to leave under each name.
* `Follows.run`: What is held is found after one more action.
* `Registry.follows_after`: It is found after any number of actions.
* `Registry.latest_registered`: A registry is the map that its history says.
-/

namespace ShaderBuild

/-- One action on a registry, with what it came to. -/
structure RegistryTurn where
  action : RegistryAction
  outcome : Except Failure Reply

namespace RegistryTurn

/-- The turn has registered a buffer. An attempt that was refused has not. -/
def Registers (b : UniformBuffer) (turn : RegistryTurn) : Prop :=
  turn.action = .register b ∧ turn.outcome.isOk = true

/-- The turn has freed a name, by itself or together with all others. -/
def Frees (name : String) (turn : RegistryTurn) : Prop :=
  turn.action = .remove name ∨ turn.action = .clear

/-- The turn has registered a buffer under a name, or freed it. -/
def Touches (name : String) (turn : RegistryTurn) : Prop :=
  (∃ b, turn.Registers b ∧ b.name = name) ∨ turn.Frees name

theorem Registers.unique {turn : RegistryTurn} {b c : UniformBuffer} (first : turn.Registers b)
    (second : turn.Registers c) : b = c :=
  RegistryAction.register.inj (first.1.symm.trans second.1)

/-- To register a buffer frees no name, whether or not it is refused. -/
theorem not_frees_of_register {turn : RegistryTurn} {b : UniformBuffer}
    (register : turn.action = .register b) (name : String) : ¬ turn.Frees name := by
  rintro (removes | clears)
  · cases register.symm.trans removes
  · cases register.symm.trans clears

end RegistryTurn

/-- A buffer was registered under a name, and the name was not touched since. -/
def Held (turns : List RegistryTurn) (name : String) (b : UniformBuffer) : Prop :=
  Since (fun turn => turn.Registers b ∧ b.name = name) (fun turn => ¬ turn.Touches name) turns

namespace RegistryAction

variable {r : Registry} {b : UniformBuffer}

theorem run_register_free (free : r.find? b.name = none) :
    ((register b).run r).1.value = .ok (.buffer (some b)) ∧
      ((register b).run r).2 = r.add b.name b.bindingPoint b.buffer free := by
  simp only [run, Registry.register_free free, and_self]

theorem run_register_taken (taken : r.find? b.name ≠ none) :
    ((register b).run r).1.value =
        .error (.invalidResource s!"Uniform buffer '{b.name}' already registered") ∧
      ((register b).run r).2 = r := by
  simp only [run, Registry.register_taken taken, and_self]

end RegistryAction

namespace Registry

/-- A registry after some actions. -/
def after (r : Registry) (actions : List RegistryAction) : Registry :=
  actions.foldl (fun r action => (action.run r).2) r

/-- The turns of some actions on a registry, one after another. -/
def turns (r : Registry) : List RegistryAction → List RegistryTurn
  | [] => []
  | action :: rest => ⟨action, (action.run r).1.value⟩ :: (action.run r).2.turns rest

/-- What is found under each name is what some turns have it hold. -/
def Follows (past : List RegistryTurn) (r : Registry) : Prop :=
  ∀ name b, r.find? name = some b ↔ Held past name b

section Follows

variable {past : List RegistryTurn} {r next : Registry} {turn : RegistryTurn}

theorem follows_empty : Follows [] empty :=
  fun _ _ => iff_of_false (fun found => by cases found) not_since_nil

/-- A turn has to leave under each name what it registers there, or nothing where it
    frees the name, or else what was there. -/
theorem Follows.concat (follows : Follows past r)
    (registered : ∀ b, turn.Registers b → next.find? b.name = some b)
    (freed : ∀ name, turn.Frees name → next.find? name = none)
    (kept : ∀ name, ¬ turn.Touches name → next.find? name = r.find? name) :
    Follows (past ++ [turn]) next := by
  intro name b
  rw [Held, since_concat]
  -- What the turn does with the name decides: it registers a buffer, frees it, or neither.
  by_cases touches : turn.Touches name
  · rw [or_iff_left fun old => old.2 touches]
    rcases touches with ⟨c, registers, named⟩ | frees
    · rw [← named, registered c registers, Option.some_inj]
      constructor
      · rintro rfl
        exact ⟨registers, rfl⟩
      · exact fun own => registers.unique own.1
    · rw [freed name frees]
      refine iff_of_false (fun found => by cases found) ?_
      exact fun own => RegistryTurn.not_frees_of_register own.1.1 name frees
  · rw [kept name touches, or_iff_right fun own => touches (Or.inl ⟨b, own⟩)]
    exact (follows name b).trans (and_iff_left touches).symm

/-- A turn that neither registers nor frees anything leaves the registry as it is. -/
theorem Follows.idle (follows : Follows past r) (registers : ∀ b, ¬ turn.Registers b)
    (frees : ∀ name, ¬ turn.Frees name) : Follows (past ++ [turn]) r :=
  follows.concat (fun b own => absurd own (registers b)) (fun name own => absurd own (frees name))
    fun _ _ => rfl

/-- What is held is found after one more action. -/
theorem Follows.run (follows : Follows past r) (action : RegistryAction) :
    Follows (past ++ [⟨action, (action.run r).1.value⟩]) (action.run r).2 := by
  -- By the action: the first three change what is found, the others only ask.
  cases action with
  | register b =>
      cases found : r.find? b.name with
      | none =>
          obtain ⟨value, left⟩ := RegistryAction.run_register_free found
          rw [value, left]
          refine follows.concat ?_ ?_ ?_
          · rintro c ⟨same, -⟩
            obtain rfl := RegistryAction.register.inj same
            exact (find?_add found b.name).trans (if_pos rfl)
          · exact fun name frees => absurd frees (RegistryTurn.not_frees_of_register rfl name)
          · intro name untouched
            refine (find?_add found name).trans (if_neg ?_)
            exact fun named => untouched (Or.inl ⟨b, ⟨rfl, rfl⟩, named.symm⟩)
      | some c =>
          obtain ⟨value, left⟩ := RegistryAction.run_register_taken (found ▸ Option.some_ne_none c)
          rw [value, left]
          refine follows.idle ?_ (RegistryTurn.not_frees_of_register rfl)
          rintro d ⟨-, accepted⟩
          cases accepted
  | remove removed =>
      change Follows _ (r.remove removed).2
      refine follows.concat ?_ ?_ ?_
      · rintro b ⟨registers, -⟩
        cases registers
      · rintro name (removes | clears)
        · rw [find?_remove, if_pos (RegistryAction.remove.inj removes).symm]
        · cases clears
      · intro name untouched
        have other : name ≠ removed := fun same =>
          untouched (Or.inr (Or.inl (congrArg RegistryAction.remove same.symm)))
        rw [find?_remove, if_neg other]
  | clear =>
      change Follows _ empty
      refine follows.concat ?_ ?_ ?_
      · rintro b ⟨registers, -⟩
        cases registers
      · exact fun _ _ => rfl
      · exact fun name untouched => absurd (Or.inr (Or.inr rfl)) untouched
  -- The questions.
  | _ =>
      refine follows.idle ?_ ?_
      · rintro b ⟨registers, -⟩
        cases registers
      · rintro name (removes | clears)
        · cases removes
        · cases clears

end Follows

/-- What is held is found after any number of actions. -/
theorem follows_after {past : List RegistryTurn} {r : Registry} (follows : Follows past r)
    (actions : List RegistryAction) : Follows (past ++ r.turns actions) (r.after actions) := by
  -- Induction on the actions, each of which adds a turn to the past.
  induction actions generalizing past r with
  | nil => rwa [turns, List.append_nil]
  | cons action rest ih =>
      rw [turns, List.append_cons]
      exact ih (follows.run action)

theorem mem_names_iff {r : Registry} {name : String} :
    name ∈ r.names ↔ (r.find? name).isSome = true := by
  rw [Option.isSome_iff_ne_none, ne_eq, find?_eq_none_iff, not_not]

/-- What each action answers after any actions on an empty registry, told by `Registry.find?`
    alone: what is found under a name is the buffer that was registered under it last, if
    the name was not freed since, and nothing if there is none; and it has that name. To
    find a name answers just that. To register a buffer succeeds with that buffer if nothing
    is found under its name; else it fails, with one failure that says so, and then nothing
    changes. To remove a name answers what is found under it, and takes out just that. The
    names that are answered are all different, are those under which something is found, and
    are as many as are counted. -/
theorem latest_registered (actions : List RegistryAction) :
    let r := empty.after actions
    let past := empty.turns actions
    let answer := fun action => (RegistryAction.run r action).1.value
    let left := fun action => (RegistryAction.run r action).2
    (∀ name b, r.find? name = some b ↔ Held past name b) ∧
    (∀ name, r.find? name = none ↔ ∀ b, ¬ Held past name b) ∧
    (∀ name b, r.find? name = some b → b.name = name) ∧
    (∀ name, answer (.find name) = .ok (.buffer (r.find? name))) ∧
    (∀ b, r.find? b.name = none → answer (.register b) = .ok (.buffer (some b))) ∧
    (∀ b failure, answer (.register b) = .error failure ↔ r.find? b.name ≠ none ∧
      failure = .invalidResource s!"Uniform buffer '{b.name}' already registered") ∧
    (∀ b failure, answer (.register b) = .error failure → left (.register b) = r) ∧
    (∀ name, answer (.remove name) = .ok (.buffer (r.find? name)) ∧
      r.entries.Perm
        ((r.find? name).toList.map (Prod.mk name) ++ (left (.remove name)).entries)) ∧
    ∃ names, answer .names = .ok (.names names) ∧ names.Nodup ∧
      (∀ name, name ∈ names ↔ (r.find? name).isSome = true) ∧
      answer .count = .ok (.count names.length) := by
  intro r past answer left
  have follows : Follows past r := follows_after follows_empty actions
  refine ⟨follows, fun name => ?_, fun name b found => ?_, fun name => rfl, fun b free => ?_,
    fun b failure => ?_, fun b failure failed => ?_, fun name => ⟨?_, ?_⟩,
    r.names, rfl, r.keys_nodup, fun name => mem_names_iff, ?_⟩
  · rw [Option.eq_none_iff_forall_ne_some]
    exact forall_congr' fun b => not_congr (follows name b)
  · -- The history says which buffer was registered, and under which name.
    obtain ⟨turn, -, -, named⟩ := ((follows name b).mp found).exists_mem
    exact named
  · exact (RegistryAction.run_register_free free).1
  -- Free or taken: the same question that the registry asks first.
  · by_cases found : r.find? b.name = none
    · rw [show answer (.register b) = _ from (RegistryAction.run_register_free found).1]
      exact iff_of_false (fun failed => by cases failed) fun taken => taken.1 found
    · rw [show answer (.register b) = _ from (RegistryAction.run_register_taken found).1,
        Except.error.injEq, eq_comm]
      exact (and_iff_right found).symm
  · by_cases found : r.find? b.name = none
    · cases (RegistryAction.run_register_free found).1.symm.trans failed
    · exact (RegistryAction.run_register_taken found).2
  · exact congrArg (fun found => Except.ok (Reply.buffer found)) (r.remove_fst name)
  · rw [← r.remove_fst name]
    exact r.entries_perm_remove name
  · exact congrArg (fun n => Except.ok (Reply.count n)) (List.length_map Prod.fst).symm

/-- An attempt that is refused, and the name registered again after it was freed. -/
example :
    let actions : List RegistryAction := [.register ⟨"Camera", 0, 17⟩,
      .register ⟨"Camera", 1, 18⟩, .remove "Camera", .register ⟨"Camera", 2, 21⟩]
    (empty.after (actions.take 2)).find? "Camera" = some ⟨"Camera", 0, 17⟩ ∧
      (empty.after actions).find? "Camera" = some ⟨"Camera", 2, 21⟩ := by
  decide

end Registry

end ShaderBuild
