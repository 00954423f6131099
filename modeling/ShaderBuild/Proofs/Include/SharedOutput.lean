import ShaderBuild.Proofs.Include.Emission

/-!
# Writing to One Text

The work on a stack of open files, done with a single text that all of them write to.

An open file need not hold what it has written. If everything goes to one text, in the
order in which it is read, then a file has to know only how long that text was when it
was opened (`Frame.start`): what it has written so far is the rest of the text from
there. Closing it looks at that rest to see whether it ends a line, and hands nothing
over, since the includer writes to the same text.

This is the loop as a program would run it. It does the same as the stack, turn for
turn: the state that it is in can be read off the stack (`Stack.loop`), and a turn
from there comes to what a step of the stack comes to, with the same entries
(`step_loop`). Only the end looks different. The loop is over when no file is open,
while a stack always has one, so closing the source leaves a loop with nothing to do.

What the text begins with is the version line, written before the source is opened. It
belongs to no file, and shifts where each of them starts.

## Main definitions

* `Frame`: An open file, with the length of the text when it was opened.
* `Loop`, `Loop.step`: The state of the loop, and one turn of it.
* `Loop.Ends`: What a loop comes to, with all entries made on the way.
* `Stack.loop`: The state of the loop at a stack.

## Theorems

* `Ends.unique`: A loop comes to one end.
* `drop_start`: What a file has written is the rest of the text from its start.
* `step_loop`: A turn of the loop does what a step of the stack does.
* `ends_run`: A loop comes to what the run of its stack comes to.
* `source_ends`: A pass is a loop that begins with the version line.
-/

namespace ShaderBuild

/-- An open file that writes to a text it shares with others. `start` is how long the
    text was when the file was opened, and `terminator` ends the directive that opened
    it. -/
structure Frame where
  path : Path
  identity : Identity
  pending : List Token
  start : Nat
  terminator : Terminator

/-- Close a file: the line of the directive is ended, unless what the file has written
    ends a line or the directive stood on a last line without end. -/
def Frame.close (frame : Frame) (output : Text) : Text :=
  if frame.terminator ≠ .none ∧ (output.drop frame.start).getLast? ≠ some '\n' then
    output ++ frame.terminator.text
  else output

/-- The open files, innermost first, the text they all write to, and what has been
    collected so far. -/
structure Loop where
  frames : List Frame
  output : Text
  autoresolve : List String
  included : List Path

namespace Loop

/-- Open the file that an include led to, if it may be opened now. -/
def enter (tree : Tree) (l : Loop) (found : Found) (terminator : Terminator) :
    Logged (Except Failure Loop) :=
  if maxOpenFiles ≤ l.frames.length ∨ tree.identity found.path ∈ l.frames.map Frame.identity then
    Logged.fail Stack.source
      (.includeCycle found.path ((l.frames.map Frame.path).reverse ++ [found.path]))
  else
    match tokenize found.content with
    | .error bad =>
      Logged.fail Stack.source (.malformedDirective found.path bad.line bad.defect.message)
    | .ok tokens => pure (.ok { l with
        frames := ⟨found.path, tree.identity found.path, tokens, l.output.length, terminator⟩ ::
          l.frames
        included := l.included ++ [found.path] })

/-- One turn of the loop, with the innermost file and those around it. -/
def turn (search : SearchPath) (tree : Tree) (l : Loop) (frame : Frame) (outer : List Frame) :
    Logged (Except Failure Loop) :=
  match frame.pending with
  | [] => pure (.ok { l with frames := outer, output := frame.close l.output })
  | .text t :: rest => pure (.ok { l with
      frames := { frame with pending := rest } :: outer
      output := l.output ++ t })
  | .autoresolve name line :: rest => do
    Logged.note (.report .trace Stack.source s!"{frame.path.text}:{line}: autoresolve `{name}`")
    pure (.ok { l with
      frames := { frame with pending := rest } :: outer
      autoresolve := l.autoresolve ++ [name] })
  | .includeFile name line terminator :: rest => do
    match ← search.find tree name with
    | none => Logged.fail Stack.source (.includeNotFound name frame.path line)
    | some found =>
      Loop.enter tree { l with frames := { frame with pending := rest } :: outer } found terminator

/-- One turn of the loop, or none if no file is open. -/
def step (search : SearchPath) (tree : Tree) (l : Loop) : Option (Logged (Except Failure Loop)) :=
  match l.frames with
  | [] => none
  | frame :: outer => some (l.turn search tree frame outer)

/-- What a loop comes to, with all entries made on the way. -/
inductive Ends (search : SearchPath) (tree : Tree) :
    Loop → Except Failure Flattened → List Entry → Prop where
  | empty {l : Loop} (closed : l.step search tree = none) :
    Ends search tree l (.ok ⟨l.output, l.autoresolve, l.included⟩) []
  | failed {l : Loop} {failure : Failure} {entries : List Entry}
      (turn : l.step search tree = some ⟨.error failure, entries⟩) :
    Ends search tree l (.error failure) entries
  | turned {l next : Loop} {result : Except Failure Flattened} {entries later : List Entry}
      (turn : l.step search tree = some ⟨.ok next, entries⟩)
      (rest : Ends search tree next result later) : Ends search tree l result (entries ++ later)

/-- A loop comes to one end. -/
theorem Ends.unique {search : SearchPath} {tree : Tree} {l : Loop}
    {first second : Except Failure Flattened} {entries later : List Entry}
    (one : Ends search tree l first entries) (other : Ends search tree l second later) :
    first = second ∧ entries = later := by
  -- Both ends begin with the same turn, so they go on in the same way.
  induction one generalizing second later with
  | empty closed =>
      cases other with
      | empty _ => exact ⟨rfl, rfl⟩
      | failed turn => cases closed.symm.trans turn
      | turned turn _ => cases closed.symm.trans turn
  | failed turn =>
      cases other with
      | empty closed => cases closed.symm.trans turn
      | failed again =>
          cases turn.symm.trans again
          exact ⟨rfl, rfl⟩
      | turned again _ => cases turn.symm.trans again
  | turned turn _ ih =>
      cases other with
      | empty closed => cases closed.symm.trans turn
      | failed again => cases turn.symm.trans again
      | turned again rest =>
          cases turn.symm.trans again
          obtain ⟨rfl, rfl⟩ := ih rest
          exact ⟨rfl, rfl⟩

end Loop

/-- Open files as frames, if the given text was there before any of them. -/
def Frame.ofFiles (version : Text) : List OpenFile → List Frame
  | [] => []
  | file :: outer => ⟨file.path, file.identity, file.pending,
      (version ++ outer.reverse.flatMap OpenFile.text).length, file.terminator⟩ ::
        Frame.ofFiles version outer

section Frames

variable (version : Text) (files : List OpenFile)

theorem length_ofFiles : (Frame.ofFiles version files).length = files.length := by
  induction files with
  | nil => rfl
  | cons file outer ih => exact congrArg (· + 1) ih

theorem map_path_ofFiles :
    (Frame.ofFiles version files).map Frame.path = files.map OpenFile.path := by
  induction files with
  | nil => rfl
  | cons file outer ih => exact congrArg (file.path :: ·) ih

theorem map_identity_ofFiles :
    (Frame.ofFiles version files).map Frame.identity = files.map OpenFile.identity := by
  induction files with
  | nil => rfl
  | cons file outer ih => exact congrArg (file.identity :: ·) ih

end Frames

namespace Stack

variable {search : SearchPath} {tree : Tree} (version : Text)

/-- The state of the loop at a stack. -/
def loop (s : Stack) : Loop :=
  ⟨Frame.ofFiles version s.files, version ++ s.output, s.autoresolve, s.included⟩

/-- The state of the loop after a step. With the last file closed there is nothing left
    to do. -/
def Outcome.loop : Outcome → Except Failure Loop
  | .more next => .ok (next.loop version)
  | .done result => .ok ⟨[], version ++ result.text, result.autoresolve, result.included⟩
  | .failed failure => .error failure

theorem loop_ofFile {file : OpenFile} (hwritten : file.written = []) :
    (ofFile file).loop version = ⟨[⟨file.path, file.identity, file.pending, version.length,
      file.terminator⟩], version, [], []⟩ := by
  have start : version ++ [].reverse.flatMap OpenFile.text = version := List.append_nil _
  rw [loop, output_ofFile hwritten, List.append_nil, show (ofFile file).files = [file] from rfl,
    Frame.ofFiles, start]
  rfl

/-- What a file has written is the rest of the text from its start. -/
theorem drop_start (s : Stack) :
    (version ++ s.output).drop (version ++ s.outer.reverse.flatMap OpenFile.text).length =
      s.innermost.text := by
  -- The includer's text is in front of the start already, so only the end is added.
  rw [output_eq, ← List.append_assoc, List.drop_left]

/-- Closing the innermost file writes what its includer would be handed over. -/
theorem close_ofFile (s : Stack) :
    Frame.close ⟨s.innermost.path, s.innermost.identity, s.innermost.pending,
        (version ++ s.outer.reverse.flatMap OpenFile.text).length, s.innermost.terminator⟩
        (version ++ s.output) =
      version ++ (s.output ++ s.innermost.terminator.after s.innermost.text) := by
  rw [Frame.close, drop_start, Terminator.after, ← List.append_assoc]
  split
  · rfl
  · rw [List.append_nil]

theorem barred_loop_iff (s : Stack) (identity : Identity) :
    (maxOpenFiles ≤ (s.loop version).frames.length ∨
      identity ∈ (s.loop version).frames.map Frame.identity) ↔ ¬ s.Admits identity := by
  simp only [loop, length_ofFiles, map_identity_ofFiles, Admits, not_and_or, Nat.not_lt,
    List.mem_map, not_forall, not_not, exists_prop]

/-- Opening a file does the same for the loop and for the stack. -/
theorem enter_loop (s : Stack) (found : Found) (terminator : Terminator) :
    (s.loop version).enter tree found terminator =
      ⟨(s.enter tree found terminator).value.loop version,
        (s.enter tree found terminator).entries⟩ := by
  -- Both look at how many files are open and which, and these are the same.
  by_cases admits : s.Admits (tree.identity found.path)
  · rw [Loop.enter, if_neg fun barred => (barred_loop_iff version s _).mp barred admits, enter,
      dif_pos admits, OpenFile.ofText]
    cases tokenize found.content with
    | error bad => rfl
    | ok tokens =>
        -- The new file starts where the text ends now, and has written nothing to it.
        have output : (s.push ⟨found.path, tree.identity found.path, terminator, tokens, []⟩
            admits.1).output = s.output := (output_eq _).trans (List.append_nil _)
        simp only [Logged.value_pure, Logged.entries_pure, Outcome.loop, loop, output]
        rfl
  · rw [Loop.enter, if_pos ((barred_loop_iff version s _).mpr admits), enter, dif_neg admits, loop,
      map_path_ofFiles]
    rfl

/-- Reading on in the innermost file moves no start. -/
theorem loop_advance (s : Stack) (rest : List Token) (t : Text) :
    (s.advance rest t).loop version = { s.loop version with
      frames := ⟨s.innermost.path, s.innermost.identity, rest,
        (version ++ s.outer.reverse.flatMap OpenFile.text).length, s.innermost.terminator⟩ ::
          Frame.ofFiles version s.outer
      output := (s.loop version).output ++ t } := by
  rw [loop, output_advance, ← List.append_assoc]
  rfl

/-- Closing the innermost file leaves the loop where the stack goes on, or over. -/
theorem close_loop (s : Stack) : s.close.loop version = .ok { s.loop version with
    frames := Frame.ofFiles version s.outer
    output := version ++ (s.output ++ s.innermost.terminator.after s.innermost.text) } := by
  -- With the last file closed the loop has no frames, and the stack is done.
  cases around : s.outer with
  | nil =>
      rw [close_of_outer_nil around, Outcome.loop, OpenFile.inlined_eq, output_eq, around]
      rfl
  | cons includer outer =>
      obtain ⟨next, hclose, innermost, outer_eq, autoresolve, included⟩ := close_of_outer_cons around
      rw [hclose, Outcome.loop, loop, output_close around innermost outer_eq, files, innermost,
        outer_eq, autoresolve, included]
      rfl

/-- A turn of the loop does what a step of the stack does. -/
theorem step_loop (s : Stack) : (s.loop version).step search tree =
    some ⟨(s.step search tree).value.loop version, (s.step search tree).entries⟩ := by
  refine congrArg some ?_
  -- By what is read next, as the loop and the stack ask for it.
  cases pending : s.innermost.pending with
  | nil =>
      simp only [Loop.turn, step, pending, Logged.value_pure, close_loop]
      rw [← close_ofFile, pending]
      rfl
  | cons token rest =>
      cases token with
      | text t =>
          simp only [Loop.turn, step, pending, Logged.value_pure, Outcome.loop, loop_advance]
          rfl
      | autoresolve name line =>
          have read : ((s.advance rest []).request name).loop version =
              { (s.advance rest []).loop version with autoresolve := s.autoresolve ++ [name] } := rfl
          rw [loop_advance, List.append_nil] at read
          simp only [Loop.turn, step, pending, Logged.value_bind, Logged.value_pure, Outcome.loop,
            read]
          rfl
      | includeFile name line terminator =>
          simp only [Loop.turn, step, pending]
          cases search.find tree name with
          | mk sought entries =>
              cases sought with
              | none => rfl
              | some found =>
                  -- The loop has read on before it opens anything, like the stack.
                  have entered := @enter_loop tree version (s.advance rest []) found terminator
                  rw [loop_advance, List.append_nil] at entered
                  exact congrArg (fun x : Logged (Except Failure Loop) =>
                    Logged.mk x.value (entries ++ x.entries)) entered

/-- A loop comes to what the run of its stack comes to, behind the given text. -/
theorem ends_run (s : Stack) : Loop.Ends search tree (s.loop version)
    ((s.run search tree).value.map fun r => { r with text := version ++ r.text })
    (s.run search tree).entries := by
  -- The induction is that of the run, on the work that a step leaves.
  have turn := @step_loop search tree version s
  cases hstep : (s.step search tree).value with
  | done result =>
      rw [hstep] at turn
      rw [run_done hstep, ← List.append_nil (s.step search tree).entries]
      exact .turned turn (.empty rfl)
  | failed failure =>
      rw [hstep] at turn
      rw [run_failed hstep]
      exact .failed turn
  | more next =>
      rw [hstep] at turn
      rw [run_more hstep]
      exact .turned turn (ends_run next)
termination_by s.weight
decreasing_by exact weight_lt_of_step hstep

end Stack

/-- The loop over a source, with the version line written. -/
def Flattener.loop (f : Flattener) (path : Path) (tokens : List Token) : Loop :=
  ⟨[⟨path, f.tree.identity path, tokens, f.version.length, .none⟩], f.version, [], []⟩

/-- A pass is the loop over its source: it comes to the same result, which is the only one
    the loop comes to, and its entries begin with those of the loop. -/
theorem Flattener.source_ends (f : Flattener) (path : Path) {content : Text}
    {tokens : List Token} (scanned : tokenize content = .ok tokens) :
    (∃ entries, (f.loop path tokens).Ends f.search f.tree (f.source path content).value entries ∧
      entries <+: (f.source path content).entries) ∧
    ∀ result entries, (f.loop path tokens).Ends f.search f.tree result entries →
      result = (f.source path content).value := by
  -- The loop starts at the one-file stack, and the version line is the text before any file.
  let s : Stack := .ofFile ⟨path, f.tree.identity path, .none, tokens, []⟩
  have state : s.loop f.version = f.loop path tokens := Stack.loop_ofFile f.version rfl
  have value : (f.source path content).value = (s.run f.search f.tree).value.map f.finish := by
    rw [value_source_eq f ⟨path, content⟩, scanned]
  have ends : (f.loop path tokens).Ends f.search f.tree (f.source path content).value
      (s.run f.search f.tree).entries := by
    rw [value, ← state]
    exact s.ends_run f.version
  refine ⟨⟨_, ends, ?_⟩, fun result entries other => (other.unique ends).1⟩
  simp only [source, OpenFile.ofText, scanned, Logged.entries_bind]
  exact List.prefix_append _ _

end ShaderBuild
