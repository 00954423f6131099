import ShaderBuild.Include.Stack

/-!
# Flattening a Source

The whole pass over one source: open it, work until no file is open, and put
the version line in front. The pass reports every failure once, where it
arises, and reports its result at the end.

The path of a source is what its diagnostics say. If it happens to lead to a
real file, that file counts as open, so a source cannot include itself.

## Main definitions

* `Stack.run`: Steps until no file is open.
* `Flattener`: What a pass depends on besides the source.
* `Flattener.source`, `Flattener.file`: The pass over a given text, and over a
  file.

## Theorems

* `run_more`, `run_done`, `run_failed`: A run is its first step and the rest.
-/

namespace ShaderBuild

namespace Stack

/-- Steps until no file is open. -/
def run (search : SearchPath) (tree : Tree) (s : Stack) : Logged (Except Failure Flattened) :=
  match _h : s.step search tree with
  | ⟨.done result, entries⟩ => ⟨.ok result, entries⟩
  | ⟨.failed failure, entries⟩ => ⟨.error failure, entries⟩
  | ⟨.more next, entries⟩ =>
    let rest := next.run search tree
    ⟨rest.value, entries ++ rest.entries⟩
termination_by s.weight
decreasing_by exact weight_lt_of_step (by rw [_h])

theorem run_more {search : SearchPath} {tree : Tree} {s next : Stack}
    (h : (s.step search tree).value = .more next) :
    s.run search tree = ⟨(next.run search tree).value,
      (s.step search tree).entries ++ (next.run search tree).entries⟩ := by
  rw [run]
  split <;> simp_all

theorem run_done {search : SearchPath} {tree : Tree} {s : Stack} {result : Flattened}
    (h : (s.step search tree).value = .done result) :
    s.run search tree = ⟨.ok result, (s.step search tree).entries⟩ := by
  rw [run]
  split <;> simp_all

theorem run_failed {search : SearchPath} {tree : Tree} {s : Stack} {failure : Failure}
    (h : (s.step search tree).value = .failed failure) :
    s.run search tree = ⟨.error failure, (s.step search tree).entries⟩ := by
  rw [run]
  split <;> simp_all

end Stack

/-- What a pass depends on besides the source: where includes are searched, the
    files, and the line put in front. -/
structure Flattener where
  search : SearchPath
  tree : Tree
  version : Text

namespace Flattener

/-- What the entries of a pass give as their source. -/
def origin : String := Stack.source

/-- The pass over a given text. -/
def source (f : Flattener) (path : Path) (content : Text) :
    Logged (Except Failure Flattened) := do
  match OpenFile.ofText f.tree path .none content with
  | .error failure => Logged.fail origin failure
  | .ok file =>
    match ← (Stack.ofFile file).run f.search f.tree with
    | .error failure => pure (.error failure)
    | .ok result => do
      Logged.note (.report .debug origin (s!"Preprocessed {path.text}: " ++
        s!"{result.included.length} include(s), " ++
        s!"{result.autoresolve.length} autoresolve block(s)"))
      pure (.ok { result with text := f.version ++ result.text })

/-- The pass over a file. -/
def file (f : Flattener) (path : Path) : Logged (Except Failure Flattened) :=
  match f.tree.readText path with
  | .error fault => Logged.fail origin (.unreadable path fault.message)
  | .ok content => f.source path content

end Flattener

end ShaderBuild
