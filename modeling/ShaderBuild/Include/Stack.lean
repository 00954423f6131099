import ShaderBuild.Directive.Scan
import ShaderBuild.Include.Search
import ShaderBuild.Include.Weight

/-!
# The Stack of Open Files

A source is flattened by reading its tokens in order and opening an included
file wherever an include stands. The files that are open at one moment form a
stack: each was included by the one below it. A file may be included many
times, but not inside itself, and only a limited number of files may be open
at once; both show as a cycle, with the chain of files that led there.

Every open file collects its own text. When a file is closed its text goes to
the file that included it, ended by the terminator of the directive's line
unless it already ends a line. So nothing included can run into the text after
it, and a directive on a last line without terminator adds none.

The limit on open files is part of the type, and is what makes the work end:
see `Weight`.

## Main definitions

* `OpenFile`: A file being read.
* `Stack`: The open files, with what has been collected so far.
* `Stack.step`: The next token of the innermost file.
* `Stack.weight`: The work left, from the outermost file inwards.

## Theorems

* `text_write`: What is written goes to the end of the text.
* `weight_lt_of_step`: Every step that leaves files open leaves less work.
-/

namespace ShaderBuild

/-- The most files that may be open at once, the source itself included. -/
def maxOpenFiles : Nat := 32

/-- A file being read. `terminator` ends the directive that opened it, and
    `written` holds the pieces of its text so far, newest first. -/
structure OpenFile where
  path : Path
  identity : Identity
  terminator : Terminator
  pending : List Token
  written : List Text
  deriving DecidableEq, Repr

namespace OpenFile

/-- The text of a file so far, with everything it included in place. -/
def text (file : OpenFile) : Text :=
  file.written.reverse.flatten

/-- A file with more text written. -/
def write (file : OpenFile) (t : Text) : OpenFile :=
  { file with written := t :: file.written }

theorem text_write (file : OpenFile) (t : Text) : (file.write t).text = file.text ++ t := by
  simp [text, write]

/-- Open a file, which takes reading all of its directives. -/
def ofText (tree : Tree) (path : Path) (terminator : Terminator) (content : Text) :
    Except Failure OpenFile :=
  match tokenize content with
  | .error bad => .error (.malformedDirective path bad.line bad.defect.message)
  | .ok tokens => .ok ⟨path, tree.identity path, terminator, tokens, []⟩

/-- What a closed file puts in place of the directive that opened it. -/
def inlined (file : OpenFile) : Text :=
  let t := file.text
  if t.getLast? = some '\n' then t else t ++ file.terminator.text

end OpenFile

/-- A source with everything it includes in place. -/
structure Flattened where
  text : Text
  /-- The blocks to bind, in the order they were asked for. -/
  autoresolve : List String
  /-- The files that were included, in the order they were opened. -/
  included : List Path
  deriving DecidableEq, Repr

/-- The open files, innermost first, with what has been collected so far. -/
structure Stack where
  innermost : OpenFile
  outer : List OpenFile
  autoresolve : List String
  included : List Path
  outer_lt : outer.length < maxOpenFiles := by decide

/-- What one step leads to. -/
inductive Stack.Outcome where
  | more (stack : Stack)
  | done (result : Flattened)
  | failed (failure : Failure)

namespace Stack

/-- What the entries of this stage give as their source. -/
def source : String := "galaxy3d::glsl::Preprocessor"

/-- The stack with one file open and nothing collected. -/
def ofFile (file : OpenFile) : Stack where
  innermost := file
  outer := []
  autoresolve := []
  included := []

/-- The open files, innermost first. -/
def files (s : Stack) : List OpenFile :=
  s.innermost :: s.outer

/-- The paths of the open files, outermost first. -/
def chain (s : Stack) : List Path :=
  (s.files.map OpenFile.path).reverse

/-- Whether a file with this identity may be opened now. -/
def Admits (s : Stack) (identity : Identity) : Prop :=
  s.files.length < maxOpenFiles ∧ ∀ file ∈ s.files, file.identity ≠ identity

instance (s : Stack) (identity : Identity) : Decidable (s.Admits identity) :=
  inferInstanceAs (Decidable (_ ∧ _))

/-- The stack with the innermost file read on to `rest` and more text written. -/
def advance (s : Stack) (rest : List Token) (t : Text) : Stack :=
  { s with innermost := { s.innermost.write t with pending := rest } }

/-- The stack with one more block to bind. -/
def request (s : Stack) (name : String) : Stack :=
  { s with autoresolve := s.autoresolve ++ [name] }

/-- The stack with one more file open. -/
def push (s : Stack) (child : OpenFile) (h : s.files.length < maxOpenFiles) : Stack where
  innermost := child
  outer := s.files
  autoresolve := s.autoresolve
  included := s.included ++ [child.path]
  outer_lt := h

/-- Close the innermost file. -/
def close (s : Stack) : Outcome :=
  match h : s.outer with
  | [] => .done ⟨s.innermost.inlined, s.autoresolve, s.included⟩
  | includer :: outer =>
    .more { s with
      innermost := includer.write s.innermost.inlined
      outer := outer
      outer_lt := by have := s.outer_lt; rw [h, List.length_cons] at this; omega }

/-- Report a failure and stop. -/
def stop (failure : Failure) : Logged Outcome := do
  Logged.note (.ofFailure source failure)
  pure (.failed failure)

/-- Open the file that an include led to, if it may be opened now. -/
def enter (s : Stack) (tree : Tree) (found : Found) (terminator : Terminator) : Logged Outcome :=
  if h : s.Admits (tree.identity found.path) then
    -- A file with a malformed directive is never open, so it is not collected.
    match OpenFile.ofText tree found.path terminator found.content with
    | .error failure => stop failure
    | .ok child => pure (.more (s.push child h.1))
  else stop (.includeCycle found.path (s.chain ++ [found.path]))

/-- The next token of the innermost file, or its end. -/
def step (search : SearchPath) (tree : Tree) (s : Stack) : Logged Outcome :=
  match s.innermost.pending with
  | [] => pure s.close
  | .text t :: rest => pure (.more (s.advance rest t))
  | .autoresolve name line :: rest => do
    Logged.note (.report .trace source s!"{s.innermost.path.text}:{line}: autoresolve `{name}`")
    pure (.more ((s.advance rest []).request name))
  | .includeFile name line terminator :: rest => do
    match ← search.find tree name with
    | none => stop (.includeNotFound name s.innermost.path line)
    | some found => (s.advance rest []).enter tree found terminator

/-- The work left, from the outermost file inwards. A file without tokens still
    has to be closed. -/
def weight (s : Stack) : Weight maxOpenFiles :=
  .ofList maxOpenFiles (s.files.map fun file => file.pending.length + 1).reverse

theorem weight_eq (s : Stack) : s.weight = .ofList maxOpenFiles
    ((s.outer.map fun file => file.pending.length + 1).reverse ++
      [s.innermost.pending.length + 1]) := by
  simp [weight, files]

theorem outer_reverse_lt (s : Stack) :
    (s.outer.map fun file => file.pending.length + 1).reverse.length < maxOpenFiles := by
  simpa using s.outer_lt

theorem weight_advance_lt (s : Stack) {token : Token} {rest : List Token}
    (h : s.innermost.pending = token :: rest) (t : Text) :
    Weight.Lt maxOpenFiles (s.advance rest t).weight s.weight := by
  rw [weight_eq, weight_eq]
  exact Weight.ofList_lt _ s.outer_reverse_lt (by simp [advance, h]) _ _

theorem weight_push_lt (s : Stack) {token : Token} {rest : List Token}
    (h : s.innermost.pending = token :: rest) (t : Text) (child : OpenFile)
    (hlt : (s.advance rest t).files.length < maxOpenFiles) :
    Weight.Lt maxOpenFiles ((s.advance rest t).push child hlt).weight s.weight := by
  rw [weight_eq, weight_eq]
  simp only [push, files, advance, List.map_cons, List.reverse_cons, List.append_assoc]
  exact Weight.ofList_lt _ s.outer_reverse_lt (by simp [h]) _ _

theorem weight_close_lt (s : Stack) {next : Stack} (hclose : s.close = .more next) :
    Weight.Lt maxOpenFiles next.weight s.weight := by
  unfold close at hclose
  split at hclose
  · simp at hclose
  · next includer outer houter =>
    have hbelow : (s.outer.map fun file => file.pending.length + 1).reverse =
        (outer.map fun file => file.pending.length + 1).reverse ++ [includer.pending.length + 1] := by
      rw [houter, List.map_cons, List.reverse_cons]
    have hlt := s.outer_reverse_lt
    rw [hbelow] at hlt
    injection hclose with hnext
    subst hnext
    rw [s.weight_eq, hbelow, weight_eq]
    exact Weight.ofList_lt_of_take _ hlt (Nat.succ_pos _)

theorem weight_lt_of_step {search : SearchPath} {tree : Tree} {s next : Stack}
    (h : (s.step search tree).value = .more next) :
    Weight.Lt maxOpenFiles next.weight s.weight := by
  unfold step at h
  split at h
  · exact s.weight_close_lt h
  · next t rest hpending =>
    injection h with hnext
    subst hnext
    exact s.weight_advance_lt hpending t
  · next name line rest hpending =>
    injection h with hnext
    subst hnext
    exact s.weight_advance_lt hpending []
  · next name line terminator rest hpending =>
    rw [Logged.value_bind] at h
    split at h
    · simp [stop] at h
    · unfold enter at h
      split at h
      · next hadmits =>
        split at h
        · simp [stop] at h
        · injection h with hnext
          subst hnext
          exact s.weight_push_lt hpending [] _ hadmits.1
      · simp [stop] at h

end Stack

end ShaderBuild
