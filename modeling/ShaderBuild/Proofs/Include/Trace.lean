import Mathlib.Logic.Relation
import ShaderBuild.Include.Flatten

/-!
# Traces of the Stack

The stacks that the work on a source passes through, and what one step does at
each of them.

A run is a value, so it says nothing about the stacks on the way. Facts about
one file of a source are facts about a stretch of the run, from the moment the
file is on top to the moment it is on top with nothing left to read. Such
stretches can be put end to end, and what a run comes to is the same from
wherever it is taken up (`value_run_of_reaches`).

## Main definitions

* `Stack.Steps`, `Stack.Reaches`: One stack leads to another by one step, or by
  some number of steps, that leave files open.
* `Stack.Identified`: The open files are identified by their own paths.

## Theorems

* `value_run_of_reaches`: A run comes to the same from every stack on it.
* `close_of_outer_nil`, `close_of_outer_cons`: What closing a file leads to.
* `value_step_nil`, `value_step_text`, `value_step_autoresolve`: A step at a
  token that opens nothing.
* `value_step_missing`, `value_step_refused`, `value_step_malformed`,
  `value_step_opened`: The four ways an include can go.
* `identified_push`: Opening a file identifies it by its own path.
-/

namespace ShaderBuild

namespace Stack

variable {search : SearchPath} {tree : Tree}

/-- One step leads from a stack to another, with files still open. -/
def Steps (search : SearchPath) (tree : Tree) (s next : Stack) : Prop :=
  (s.step search tree).value = .more next

/-- Some number of steps leads from a stack to another. -/
def Reaches (search : SearchPath) (tree : Tree) : Stack → Stack → Prop :=
  Relation.ReflTransGen (Steps search tree)

theorem value_run_of_reaches {s t : Stack} (h : Reaches search tree s t) :
    (s.run search tree).value = (t.run search tree).value := by
  -- A run is opened at its first step, so the induction is from the front.
  induction h using Relation.ReflTransGen.head_induction_on with
  | refl => rfl
  | head hstep _ ih => rw [run_more hstep, ih]

theorem value_step_nil {s : Stack} (h : s.innermost.pending = []) :
    (s.step search tree).value = s.close := by
  simp only [step, h, Logged.value_pure]

theorem close_of_outer_nil {s : Stack} (h : s.outer = []) :
    -- The match on the files around it is decided by the hypothesis.
    s.close = .done ⟨s.innermost.inlined, s.autoresolve, s.included⟩ := by
  unfold close
  split
  · rfl
  · next hcons => rw [h] at hcons; exact absurd hcons (List.cons_ne_nil _ _).symm

theorem close_of_outer_cons {s : Stack} {includer : OpenFile} {outer : List OpenFile}
    (h : s.outer = includer :: outer) : ∃ next, s.close = .more next ∧
      next.innermost = includer.write s.innermost.inlined ∧ next.outer = outer ∧
      next.autoresolve = s.autoresolve ∧ next.included = s.included := by
  unfold close
  split
  · next hnil => rw [h] at hnil; exact absurd hnil (List.cons_ne_nil _ _)
  · next hcons =>
    rcases List.cons.inj (hcons.symm.trans h) with ⟨rfl, rfl⟩
    exact ⟨_, rfl, rfl, rfl, rfl, rfl⟩

theorem value_step_text {s : Stack} {t : Text} {rest : List Token}
    (h : s.innermost.pending = .text t :: rest) :
    (s.step search tree).value = .more (s.advance rest t) := by
  simp only [step, h, Logged.value_pure]

theorem value_step_autoresolve {s : Stack} {name : String} {line : Nat} {rest : List Token}
    (h : s.innermost.pending = .autoresolve name line :: rest) :
    (s.step search tree).value = .more ((s.advance rest []).request name) := by
  simp only [step, h, Logged.value_bind, Logged.value_pure]

/-- Reading on in the innermost file changes nothing about which files may be
    opened. -/
theorem admits_advance (s : Stack) (rest : List Token) (t : Text) (identity : Identity) :
    (s.advance rest t).Admits identity ↔ s.Admits identity := by
  simp only [Admits, files, advance, OpenFile.write, List.length_cons, List.forall_mem_cons]

section Include

variable {s : Stack} {name : String} {line : Nat} {terminator : Terminator} {rest : List Token}

theorem value_step_missing (h : s.innermost.pending = .includeFile name line terminator :: rest)
    (hfind : (search.find tree name).value = none) :
    (s.step search tree).value = .failed (.includeNotFound name s.innermost.path line) := by
  simp only [step, h, Logged.value_bind, hfind, stop, Logged.value_pure]

theorem value_step_found {found : Found}
    (h : s.innermost.pending = .includeFile name line terminator :: rest)
    (hfind : (search.find tree name).value = some found) :
    (s.step search tree).value = ((s.advance rest []).enter tree found terminator).value := by
  simp only [step, h, Logged.value_bind, hfind]

theorem value_step_refused {found : Found}
    (h : s.innermost.pending = .includeFile name line terminator :: rest)
    (hfind : (search.find tree name).value = some found)
    (hadmits : ¬ s.Admits (tree.identity found.path)) :
    (s.step search tree).value =
      .failed (.includeCycle found.path (s.chain ++ [found.path])) := by
  rw [value_step_found h hfind, enter, dif_neg (mt (admits_advance s rest [] _).mp hadmits)]
  rfl

theorem value_step_malformed {found : Found} {bad : Malformed}
    (h : s.innermost.pending = .includeFile name line terminator :: rest)
    (hfind : (search.find tree name).value = some found)
    (hadmits : s.Admits (tree.identity found.path))
    (hbad : tokenize found.content = .error bad) :
    (s.step search tree).value =
      .failed (.malformedDirective found.path bad.line bad.defect.message) := by
  rw [value_step_found h hfind, enter, dif_pos ((admits_advance s rest [] _).mpr hadmits),
    OpenFile.ofText, hbad]
  rfl

theorem value_step_opened {found : Found} {tokens : List Token}
    (h : s.innermost.pending = .includeFile name line terminator :: rest)
    (hfind : (search.find tree name).value = some found)
    (hadmits : s.Admits (tree.identity found.path))
    (htokens : tokenize found.content = .ok tokens) :
    (s.step search tree).value = .more ((s.advance rest []).push
      ⟨found.path, tree.identity found.path, terminator, tokens, []⟩ hadmits.1) := by
  rw [value_step_found h hfind, enter, dif_pos ((admits_advance s rest [] _).mpr hadmits),
    OpenFile.ofText, htokens]
  rfl

end Include

/-- Every open file is identified by its own path. -/
def Identified (tree : Tree) (s : Stack) : Prop :=
  ∀ file ∈ s.files, file.identity = tree.identity file.path

theorem identified_ofFile {path : Path} {terminator : Terminator} {tokens : List Token} :
    (ofFile ⟨path, tree.identity path, terminator, tokens, []⟩).Identified tree := by
  intro file hfile
  rw [files, ofFile, List.mem_singleton] at hfile
  rw [hfile]

theorem identified_push {s : Stack} (hid : s.Identified tree) {child : OpenFile}
    (hchild : child.identity = tree.identity child.path)
    -- The new file is on top of those that were open before.
    (hlt : s.files.length < maxOpenFiles) : (s.push child hlt).Identified tree := by
  intro file hfile
  rcases List.mem_cons.mp hfile with rfl | houter
  · exact hchild
  · exact hid file houter

end Stack

end ShaderBuild
