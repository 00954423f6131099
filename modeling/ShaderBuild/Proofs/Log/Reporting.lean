import ShaderBuild.Include.Flatten
import ShaderBuild.Workspace.Basic

/-!
# Failures Are Reported

How many errors a computation reports that may fail.

A failure is reported where it arises and handed on without another word, so what
has failed has made one entry of the highest severity, and what has not failed has
made none. Entries of lower severity do not count: a search says which files it
passes over, and includes that are no proper text are read with a warning.

A failure is counted by the value it ends in (`failures`), so that both halves are
one equation, which adds up along a computation.

## Main definitions

* `errorsIn`: How many errors some entries report.
* `failures`: One for a failure, none for anything else.
* `Logged.Honest`: Failing is reported once, and not failing is not.

## Theorems

* `errorsIn_append`: Entries made in two parts.
* `errorsIn_find`: A search reports no error, whether or not it finds a file.
* `errorsIn_step`, `honest_run`: A step reports its failure, and so does a run.
* `honest_flatten`: A pass over a source is honest.
* `RegistryAction.honest_run`: So is everything that is done with a registry.
-/

namespace ShaderBuild

/-- How many errors some entries report. -/
def errorsIn (entries : List Entry) : Nat :=
  entries.countP fun e => e.severity = .error

/-- One for a failure, none for anything else. -/
def failures {ε α : Type} : Except ε α → Nat
  | .ok _ => 0
  | .error _ => 1

@[simp] theorem errorsIn_nil : errorsIn [] = 0 := rfl

@[simp] theorem errorsIn_append (a b : List Entry) :
    errorsIn (a ++ b) = errorsIn a + errorsIn b :=
  List.countP_append

@[simp] theorem errorsIn_report (severity : Severity) (source message : String)
    (rest : List Entry) : errorsIn (.report severity source message :: rest) =
      (if severity = .error then 1 else 0) + errorsIn rest := by
  rw [← List.singleton_append, errorsIn_append]
  cases severity <;> rfl

@[simp] theorem errorsIn_ofFailure (source : String) (f : Failure) (rest : List Entry) :
    errorsIn (.ofFailure source f :: rest) = 1 + errorsIn rest :=
  errorsIn_report .error source f.message rest

namespace Logged

variable {α : Type}

/-- Failing is reported by one error, and not failing by none. -/
def Honest (x : Logged (Except Failure α)) : Prop :=
  errorsIn x.entries = failures x.value

theorem honest_fail (source : String) (f : Failure) :
    Honest (fail source f : Logged (Except Failure α)) := rfl

theorem honest_refuse (source message : String) :
    Honest (refuse source message : Logged (Except Failure α)) := rfl

end Logged

namespace SearchPath

theorem errorsIn_decode (path : Path) (bytes : List UInt8) :
    errorsIn (decode path bytes).entries = 0 := by
  unfold decode
  cases Utf8.decode? bytes with
  | some text => rfl
  | none => rfl

theorem errorsIn_findFrom (tree : Tree) (name : String) (roots : List Path) :
    errorsIn (findFrom tree name roots).entries = 0 := by
  induction roots with
  | nil => rfl
  | cons root rest ih =>
      simp only [findFrom]
      split
      -- A file that cannot be read is noted at a low severity, and the search goes on.
      · cases tree.read (root.join name) with
        | ok bytes => simp [errorsIn_decode]
        | error fault => simp [ih]
      · exact ih

/-- A search reports no error, whether or not it finds a file. -/
theorem errorsIn_find (search : SearchPath) (tree : Tree) (name : String) :
    errorsIn (search.find tree name).entries = 0 := by
  unfold find
  split
  · rfl
  · exact errorsIn_findFrom tree name search.roots

end SearchPath

namespace Stack

/-- One for a step that fails, none for any other. -/
def Outcome.failures : Outcome → Nat
  | .failed _ => 1
  | .more _ | .done _ => 0

theorem errorsIn_close (s : Stack) : s.close.failures = 0 := by
  unfold close
  split <;> rfl

theorem errorsIn_enter (s : Stack) (tree : Tree) (found : Found) (terminator : Terminator) :
    errorsIn (s.enter tree found terminator).entries =
      (s.enter tree found terminator).value.failures := by
  unfold enter
  split
  · split <;> rfl
  · rfl

/-- A step reports that it fails, and nothing else as an error. -/
theorem errorsIn_step (search : SearchPath) (tree : Tree) (s : Stack) :
    errorsIn (s.step search tree).entries = (s.step search tree).value.failures := by
  -- An include is the only step that reports an error; the search in front of it does not.
  unfold step
  split
  · exact s.errorsIn_close.symm
  · rfl
  · rfl
  · next name line terminator rest pending =>
    simp only [Logged.entries_bind, Logged.value_bind, errorsIn_append,
      SearchPath.errorsIn_find, Nat.zero_add]
    split
    · rfl
    · exact errorsIn_enter _ tree _ terminator

theorem honest_run (search : SearchPath) (tree : Tree) (s : Stack) :
    (s.run search tree).Honest := by
  -- Along the run: a step that goes on has reported nothing, so the run reports its end.
  fun_induction run search tree s with
  | case1 s result entries done =>
      have reported := errorsIn_step search tree s
      rw [done] at reported
      exact reported
  | case2 s failure entries failed =>
      have reported := errorsIn_step search tree s
      rw [failed] at reported
      exact reported
  | case3 s next entries stepped rest ih =>
      have quiet := errorsIn_step search tree s
      rw [stepped] at quiet
      rw [Logged.Honest, errorsIn_append, quiet]
      exact (Nat.zero_add _).trans ih

end Stack

namespace Flattener

theorem honest_source (f : Flattener) (path : Path) (content : Text) :
    (f.source path content).Honest := by
  unfold source
  split
  · exact Logged.honest_fail _ _
  · next file opened =>
    have run := Stack.honest_run f.search f.tree (Stack.ofFile file)
    rw [Logged.Honest] at run ⊢
    rw [Logged.entries_bind, Logged.value_bind, errorsIn_append, run]
    cases ((Stack.ofFile file).run f.search f.tree).value with
    | error failure => rfl
    | ok result => rfl

end Flattener

/-- A pass over a source reports its failure once. -/
theorem StageSource.honest_flatten (source : StageSource) (f : Flattener) :
    (source.flatten f).Honest := by
  cases source with
  | code name content => exact f.honest_source name content
  | file path =>
      simp only [flatten, Flattener.file]
      cases f.tree.readText path with
      | error fault => exact Logged.honest_fail _ _
      | ok content => exact f.honest_source path content

theorem Registry.honest_register (r : Registry) (name : String) (bindingPoint buffer : UInt32) :
    (r.register name bindingPoint buffer).Honest := by
  unfold register
  split
  · exact Logged.honest_refuse _ _
  · rfl

/-- Everything that is done with a registry reports its failure once. -/
theorem RegistryAction.honest_run (action : RegistryAction) (r : Registry) :
    (action.run r).1.Honest := by
  cases action with
  | register b =>
      have registered := r.honest_register b.name b.bindingPoint b.buffer
      rw [Logged.Honest] at registered
      simp only [run]
      split
      · next buffer after value => rwa [value] at registered
      · next failure value => rwa [value] at registered
  | find name => rfl
  | remove name => rfl
  | count => rfl
  | names => rfl
  | clear => rfl

end ShaderBuild
