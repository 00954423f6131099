import Mathlib.Order.WellFounded
import ShaderBuild.Proofs.Include.Moves

/-!
# Every Pass Ends

How long the loop over the open files goes on, and what the stack looks like at each of
its turns.

That the run over a source is defined at all is because every step leaves less work, but
the run does not show its steps. `Stack.after` counts them. The loop ends after some
number of turns, with what the run comes to, and it is at a stack before each.

The order in which the work gets less is one of stacks alone. It knows neither the files
nor what identifies them, so it does not matter if a file is never recognized as one that
is open already, and not even if the files become others from one turn to the next
(`wellFounded_steps`). What bounds the work is the number of open files. That no file is
open twice is another matter, and is found out on the way.

## Main definitions

* `Stack.after`: What some number of turns of the loop come to.

## Theorems

* `wellFounded_steps`: No work goes on for ever, whatever becomes of the files.
* `reaches_of_after`: The stacks at which turns begin are those of the pass.
* `exists_after`: The loop ends, with the result of the run.
* `source_finishes`: So does the loop of every pass, and no file is ever open twice.
-/

namespace ShaderBuild

namespace Stack

variable {search : SearchPath} {tree : Tree}

/-- What `n` turns of the loop come to. A loop that has ended stays so. -/
def after (search : SearchPath) (tree : Tree) : Nat → Stack → Outcome
  | 0, s => .more s
  | n + 1, s => match (s.step search tree).value with
    | .more next => next.after search tree n
    | outcome => outcome

/-- No work goes on for ever, also if includes are searched elsewhere and the files are
    others at every step. -/
theorem wellFounded_steps :
    WellFounded fun next s => ∃ search tree, Steps search tree s next :=
  Subrelation.wf (fun {_ _} ⟨_, _, hstep⟩ => weight_lt_of_step hstep)
    (InvImage.wf weight (Weight.wf maxOpenFiles))

/-- A turn begins at a stack that the work has come to. -/
theorem reaches_of_after {n : Nat} {s t : Stack} (h : s.after search tree n = .more t) :
    Reaches search tree s t := by
  -- Induction on the turns, each from the stack that the one before has left.
  induction n generalizing s with
  | zero => exact Outcome.more.inj h ▸ .refl
  | succ n ih =>
      rw [after] at h
      cases hstep : (s.step search tree).value with
      | more next =>
          rw [hstep] at h
          exact .head hstep (ih h)
      | done result =>
          rw [hstep] at h
          cases h
      | failed failure =>
          rw [hstep] at h
          cases h

/-- The first turn may be counted apart. -/
theorem after_succ {s next : Stack} (h : Steps search tree s next) (n : Nat) :
    s.after search tree (n + 1) = next.after search tree n := by
  rw [Steps] at h
  rw [after, h]

/-- The loop ends after some number of turns, with the result of the run. Every turn
    begins at a stack. -/
theorem exists_after (search : SearchPath) (tree : Tree) (s : Stack) :
    ∃ n, (∀ m < n, ∃ t, s.after search tree m = .more t) ∧
      ((∃ result, s.after search tree n = .done result ∧
          (s.run search tree).value = .ok result) ∨
        ∃ failure, s.after search tree n = .failed failure ∧
          (s.run search tree).value = .error failure) := by
  -- How many turns there will be is not known before, so the induction is on the work.
  induction s using wellFounded_steps.induction with
  | _ s ih =>
    have hfirst : ∀ m < 1, ∃ t, s.after search tree m = .more t := by
      intro m hm
      obtain rfl := Nat.lt_one_iff.mp hm
      exact ⟨s, rfl⟩
    cases hstep : (s.step search tree).value with
    | done result =>
        refine ⟨1, hfirst, Or.inl ⟨result, ?_, ?_⟩⟩
        · rw [after, hstep]
        · rw [run_done hstep]
    | failed failure =>
        refine ⟨1, hfirst, Or.inr ⟨failure, ?_, ?_⟩⟩
        · rw [after, hstep]
        · rw [run_failed hstep]
    | more next =>
        obtain ⟨n, hturns, hend⟩ := ih next ⟨search, tree, hstep⟩
        -- One turn more than from the next stack.
        refine ⟨n + 1, fun m hm => ?_, ?_⟩
        · cases m with
          | zero => exact ⟨s, rfl⟩
          | succ m =>
              rw [after_succ hstep]
              exact hturns m (Nat.lt_of_succ_lt_succ hm)
        · rw [after_succ hstep, run_more hstep]
          exact hend

end Stack

namespace Flattener

/-- The loop of every pass ends after some number of turns, with what the pass comes to,
    whatever the files are and even if they change meanwhile. Each turn begins with at
    least one open file and no more than there may be, and no two of them are the same. -/
theorem source_finishes (f : Flattener) (path : Path) (content : Text) :
    (∀ work : Nat → Stack, ∃ n, ∀ search tree,
        ¬ Stack.Steps search tree (work n) (work (n + 1))) ∧
      match OpenFile.ofText f.tree path .none content with
      | .error failure => (f.source path content).value = .error failure
      | .ok file => ∃ n,
        (∀ m < n, ∃ s, (Stack.ofFile file).after f.search f.tree m = .more s ∧
          1 ≤ s.files.length ∧ s.files.length ≤ maxOpenFiles ∧
          (s.files.map OpenFile.identity).Nodup) ∧
        ((∃ result, (Stack.ofFile file).after f.search f.tree n = .done result ∧
            (f.source path content).value = .ok (f.finish result)) ∨
          ∃ failure, (Stack.ofFile file).after f.search f.tree n = .failed failure ∧
            (f.source path content).value = .error failure) := by
  constructor
  · -- The files may change at every step, so these need not be the stacks of one pass.
    intro work
    have : IsWellFounded Stack fun next s => ∃ search tree, Stack.Steps search tree s next :=
      ⟨Stack.wellFounded_steps⟩
    obtain ⟨n, hn⟩ := WellFounded.not_rel_apply_succ
      (r := fun next s => ∃ search tree, Stack.Steps search tree s next) work
    exact ⟨n, fun search tree hstep => hn ⟨search, tree, hstep⟩⟩
  · have hvalue := f.value_source_eq ⟨path, content⟩
    dsimp only at hvalue
    rw [hvalue, OpenFile.ofText]
    cases htokens : tokenize content with
    | error bad => rfl
    | ok tokens =>
        dsimp only
        obtain ⟨n, hturns, hend⟩ := Stack.exists_after f.search f.tree
          (Stack.ofFile ⟨path, f.tree.identity path, .none, tokens, []⟩)
        -- The number of turns is what the loop needs from the source alone.
        refine ⟨n, fun m hm => ?_, ?_⟩
        · obtain ⟨s, hs⟩ := hturns m hm
          have hreach : f.Reaches ⟨path, content⟩ s :=
            ⟨tokens, htokens, Stack.reaches_of_after hs⟩
          obtain ⟨opened, hfollows⟩ := follows_of_reaches hreach
          exact ⟨s, hs, Nat.succ_le_succ (Nat.zero_le _), s.outer_lt, hfollows.distinct⟩
        · rcases hend with ⟨result, hdone, hrun⟩ | ⟨failure, hfailed, hrun⟩
          · exact Or.inl ⟨result, hdone, by rw [hrun]; rfl⟩
          · exact Or.inr ⟨failure, hfailed, by rw [hrun]; rfl⟩

end Flattener

end ShaderBuild
