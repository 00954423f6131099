import ShaderBuild.Proofs.Include.Moves
import ShaderBuild.Proofs.Include.Settled

/-!
# Directives and the Comments of the Output

Where a directive stands in the text that has been put out when it is acted on.

Comments are followed in each file by itself, from its first line, while the
compiler follows them through the whole output. The two agree as long as every
file that has been closed ended outside of block comments, and this is all that
is needed. Files that are still open, or come later, may end in a comment, and so
may the source. So a directive is in no comment of the output if this holds of
the files that were closed before it (`directive_in_code`).

Where it does not hold, directives are acted on in what the compiler takes for a
comment (`source_requests_commented`). A file has been scanned as a whole before
anything that it includes is read, so what those files leave open cannot keep a
line of it from being a directive.

The text put out so far is spread over the open files, each of which holds what
it will hand over when it is closed. Put one after the other they begin the text
of the result (`output_prefix_of_run`).

## Main definitions

* `Stack.output`: What the open files have written.
* `Flattener.Visits`: The stacks of a pass, with the files closed and open.
* `Stack.Waiting`: Files wait behind the includes that opened others.
* `Stack.Tracks`: The scan of the innermost file is in the state of the output.

## Theorems

* `opened_of_steps`, `closed_of_steps`: A step at an include opens the file that it
  leads to, and a step at the end of a file closes it.
* `output_prefix_of_steps`, `output_prefix_of_run`: Output is never taken back.
* `Visits.reaches`, `Visits.of_reaches`: What is visited is what a pass comes to.
* `Visits.included`: Including a file that is nothing but text.
* `Visits.tracks`: All stacks of a pass are in the state of the output, if the
  files closed by then leave no comment open.
* `directive_in_code`: So no directive is acted on in a comment.
* `source_requests_commented`: If not, one may be.
-/

namespace ShaderBuild

theorem ofText_eq_ok {tree : Tree} {path : Path} {terminator : Terminator} {content : Text}
    {file : OpenFile} (h : OpenFile.ofText tree path terminator content = .ok file) :
    ∃ tokens, tokenize content = .ok tokens ∧
      file = ⟨path, tree.identity path, terminator, tokens, []⟩ := by
  rw [OpenFile.ofText] at h
  split at h
  · cases h
  · next tokens htokens => exact ⟨tokens, htokens, (Except.ok.inj h).symm⟩

namespace Stack

variable {search : SearchPath} {tree : Tree}

/-- What the open files have written, outermost first. -/
def output (s : Stack) : Text :=
  s.files.reverse.flatMap OpenFile.text

theorem output_eq (s : Stack) :
    s.output = s.outer.reverse.flatMap OpenFile.text ++ s.innermost.text := by
  simp only [output, files, List.reverse_cons, List.flatMap_append, List.flatMap_singleton]

theorem output_ofFile {file : OpenFile} (hwritten : file.written = []) :
    (ofFile file).output = [] := by
  have htext : file.text = [] := by rw [OpenFile.text, hwritten]; rfl
  exact (output_eq _).trans htext

theorem output_advance (s : Stack) (rest : List Token) (t : Text) :
    (s.advance rest t).output = s.output ++ t := by
  have htext : (s.advance rest t).innermost.text = s.innermost.text ++ t :=
    OpenFile.text_write s.innermost t
  rw [output_eq, output_eq, htext, List.append_assoc]
  rfl

/-- A request puts nothing out. -/
theorem output_request (s : Stack) (rest : List Token) (name : String) :
    ((s.advance rest []).request name).output = s.output :=
  (output_advance s rest []).trans (List.append_nil _)

/-- A file that is opened in the place of a directive has written nothing yet. -/
theorem output_push (s : Stack) (rest : List Token) {path : Path} {identity : Identity}
    {terminator : Terminator} {tokens : List Token}
    (hlt : (s.advance rest []).files.length < maxOpenFiles) :
    ((s.advance rest []).push ⟨path, identity, terminator, tokens, []⟩ hlt).output = s.output := by
  have hopened : ((s.advance rest []).push ⟨path, identity, terminator, tokens, []⟩ hlt).output =
      (s.advance rest []).output := by
    rw [output_eq]
    exact List.append_nil _
  exact hopened.trans ((output_advance s rest []).trans (List.append_nil _))

/-- Closing a file adds the end of its last line, if that is missing. -/
theorem output_close {s next : Stack} {includer : OpenFile} {outer : List OpenFile}
    (houter : s.outer = includer :: outer)
    (hinnermost : next.innermost = includer.write s.innermost.inlined)
    (hnext : next.outer = outer) :
    next.output = s.output ++ s.innermost.terminator.after s.innermost.text := by
  rw [output_eq, output_eq, hinnermost, hnext, houter, OpenFile.text_write, OpenFile.inlined_eq]
  simp only [List.reverse_cons, List.flatMap_append, List.flatMap_singleton, List.append_assoc]

/-- A step at an include that leaves files open has opened the file that the
    include leads to. -/
theorem opened_of_steps {s next : Stack} {name : String} {line : Nat} {terminator : Terminator}
    {rest : List Token} (hpending : s.innermost.pending = .includeFile name line terminator :: rest)
    (hstep : Steps search tree s next) :
    ∃ found tokens hlt, (search.find tree name).value = some found ∧
      tokenize found.content = .ok tokens ∧
      next = (s.advance rest []).push
        ⟨found.path, tree.identity found.path, terminator, tokens, []⟩ hlt := by
  -- Of the moves only one starts at an include.
  cases move_of_step hstep with
  | text pending => rw [pending] at hpending; cases hpending
  | request pending => rw [pending] at hpending; cases hpending
  | opens pending find admits scanned =>
      rw [pending] at hpending
      cases hpending
      exact ⟨_, _, admits.1, find, scanned, rfl⟩
  | closes pending => rw [pending] at hpending; cases hpending

/-- A step at the end of a file that leaves files open has handed its text over. -/
theorem closed_of_steps {s next : Stack} (hpending : s.innermost.pending = [])
    (hstep : Steps search tree s next) :
    ∃ includer outer, s.outer = includer :: outer ∧
      next.innermost = includer.write s.innermost.inlined ∧ next.outer = outer := by
  cases move_of_step hstep with
  | text pending => rw [pending] at hpending; cases hpending
  | request pending => rw [pending] at hpending; cases hpending
  | opens pending => rw [pending] at hpending; cases hpending
  | closes _ around innermost outer_eq => exact ⟨_, _, around, innermost, outer_eq⟩

theorem output_prefix_of_steps {s next : Stack} (hstep : Steps search tree s next) :
    s.output <+: next.output := by
  -- All moves put something behind the output or nothing.
  cases move_of_step hstep with
  | text pending =>
      rw [output_advance]
      exact List.prefix_append _ _
  | request pending => exact (output_request s _ _).symm ▸ List.prefix_rfl
  | opens pending find admits scanned => exact (output_push s _ _).symm ▸ List.prefix_rfl
  | closes pending around innermost outer_eq =>
      rw [output_close around innermost outer_eq]
      exact List.prefix_append _ _

theorem output_prefix_of_done {s : Stack} {result : Flattened}
    (hdone : (s.step search tree).value = .done result) : s.output <+: result.text := by
  cases move_of_step hdone with
  | finishes pending around =>
      -- The last file ends the output, with nothing around it.
      rw [output_eq, around, OpenFile.inlined_eq]
      exact List.prefix_append _ _

/-- Output is never taken back: it begins the text of the result. -/
theorem output_prefix_of_run {s : Stack} {result : Flattened}
    (h : (s.run search tree).value = .ok result) : s.output <+: result.text := by
  -- Recursion along the run, whose stacks get lighter.
  cases hstep : (s.step search tree).value with
  | done result' =>
      rw [run_done hstep] at h
      exact Except.ok.inj h ▸ output_prefix_of_done hstep
  | failed failure =>
      rw [run_failed hstep] at h
      cases h
  | more next =>
      rw [run_more hstep] at h
      exact (output_prefix_of_steps hstep).trans (output_prefix_of_run h)
termination_by s.weight
decreasing_by exact weight_lt_of_step hstep

/-- The files around one wait behind the includes that opened the others, the
    first of which ends with `terminator`. -/
inductive Waiting : Terminator → List OpenFile → List Found → Prop where
  | nobody {terminator : Terminator} : Waiting terminator [] []
  | includer {terminator : Terminator} {file : OpenFile} {outer : List OpenFile} {found : Found}
      {around : List Found} (ended : file.pending ≠ [] → terminator ≠ .none)
      (reads : Reads false file.pending (commentAfter false (lines found.content)))
      (rest : Waiting file.terminator outer around) :
    Waiting terminator (file :: outer) (found :: around)

/-- The innermost file is being read in the comment state of the output, and the
    files around it wait. -/
structure Tracks (version : Text) (s : Stack) (file : Found) (around : List Found) : Prop where
  reads : Reads (openAfter false (lines (version ++ s.output))) s.innermost.pending
    (commentAfter false (lines file.content))
  aligned : s.innermost.pending ≠ [] → LineAligned (version ++ s.output)
  waiting : Waiting s.innermost.terminator s.outer around

namespace Tracks

variable {version : Text} {s : Stack} {file : Found} {around : List Found} {rest : List Token}

/-- Text moves the comment state of the file and of the output alike. -/
theorem text {t : Text} (h : s.Tracks version file around)
    (hpending : s.innermost.pending = .text t :: rest) :
    (s.advance rest t).Tracks version file around := by
  have haligned : LineAligned (version ++ s.output) := h.aligned (by rw [hpending]; exact List.cons_ne_nil _ _)
  have hreads := h.reads
  rw [hpending] at hreads
  generalize hstate : openAfter false (lines (version ++ s.output)) = state at hreads
  cases hreads with
  | text inert aligned after =>
      refine ⟨?_, ?_, h.waiting⟩
      · rw [output_advance, ← List.append_assoc, lines_append haligned, openAfter_append, hstate]
        exact after
      · intro hrest
        rw [output_advance, ← List.append_assoc]
        exact haligned.append (aligned hrest)

/-- A request leaves the comment state as it is. -/
theorem request {name : String} {line : Nat} (h : s.Tracks version file around)
    (hpending : s.innermost.pending = .autoresolve name line :: rest) :
    ((s.advance rest []).request name).Tracks version file around := by
  have haligned : LineAligned (version ++ s.output) := h.aligned (by rw [hpending]; exact List.cons_ne_nil _ _)
  have houtput : ((s.advance rest []).request name).output = s.output := output_request s rest name
  have hreads := h.reads
  rw [hpending] at hreads
  -- The comment state of the output is the one that the reading starts in.
  generalize hstate : openAfter false (lines (version ++ s.output)) = state at hreads
  cases hreads with
  | autoresolve after =>
      refine ⟨?_, fun _ => houtput ▸ haligned, h.waiting⟩
      rw [houtput, hstate]
      exact after

/-- Opening a file puts nothing out, and the file begins outside of comments like
    the directive. -/
theorem push {name : String} {line : Nat} {terminator : Terminator} {found : Found}
    {tokens : List Token} (h : s.Tracks version file around)
    (hpending : s.innermost.pending = .includeFile name line terminator :: rest)
    (htokens : tokenize found.content = .ok tokens) (identity : Identity)
    (hlt : (s.advance rest []).files.length < maxOpenFiles) :
    ((s.advance rest []).push ⟨found.path, identity, terminator, tokens, []⟩ hlt).Tracks version
      found (file :: around) := by
  have haligned : LineAligned (version ++ s.output) := h.aligned (by rw [hpending]; exact List.cons_ne_nil _ _)
  have houtput : ((s.advance rest []).push ⟨found.path, identity, terminator, tokens, []⟩
      hlt).output = s.output := output_push s rest hlt
  have hreads := h.reads
  rw [hpending] at hreads
  generalize hstate : openAfter false (lines (version ++ s.output)) = state at hreads
  cases hreads with
  | includeFile ended after =>
      refine ⟨?_, fun _ => houtput ▸ haligned, Waiting.includer ended after h.waiting⟩
      rw [houtput, hstate]
      exact reads_of_tokenize htokens

/-- A file that leaves no comment open is closed where its includer goes on, at
    the start of a line. -/
theorem close {next : Stack} {includer : OpenFile} {outer : List OpenFile}
    (h : s.Tracks version file around) (hpending : s.innermost.pending = [])
    (hcode : EndsInCode file.content) (houter : s.outer = includer :: outer)
    (hinnermost : next.innermost = includer.write s.innermost.inlined)
    (hnext : next.outer = outer) :
    ∃ found others, around = found :: others ∧ next.Tracks version found others := by
  have houtput := output_close houter hinnermost hnext
  have hwaiting := h.waiting
  rw [houter] at hwaiting
  have hreads := h.reads
  rw [hpending, show commentAfter false (lines file.content) = false from hcode] at hreads
  generalize hstate : openAfter false (lines (version ++ s.output)) = state at hreads
  cases hreads
  cases hwaiting with
  | @includer _ _ _ found others ended reads waiting =>
      refine ⟨found, others, rfl, ?_, ?_, ?_⟩
      · -- What ends the last line of the file is in no comment either.
        -- The two cases of `after`: a line end behind the file, or nothing.
        have hended : openAfter false (lines (version ++ next.output)) = false := by
          rw [houtput, ← List.append_assoc, Terminator.after]
          split
          · rw [openAfter_terminated, hstate]
          · rw [List.append_nil, hstate]
        rw [hended, hinnermost]
        exact reads
      · intro hrest
        rw [hinnermost] at hrest
        -- An includer that goes on was left at a line that ends, so the closed file is ended too.
        have hlast := getLast?_after (ended hrest) s.innermost.text
        refine Or.inr ?_
        rw [houtput, output_eq, List.append_assoc, ← List.append_assoc version,
          List.getLast?_append, hlast, Option.some_or]
      · rw [hinnermost, hnext]
        exact waiting

end Tracks

end Stack

namespace Flattener

open Stack

/-- What has been put out at a stack of a pass begins the text of its result. -/
theorem Reaches.output_prefix {f : Flattener} {source : Found} {s : Stack}
    (h : f.Reaches source s) {r : Flattened}
    (hresult : (f.source source.path source.content).value = .ok r) :
    f.version ++ s.output <+: r.text := by
  obtain ⟨result, hrun, rfl⟩ := h.run_eq_ok hresult
  exact (List.prefix_append_right_inj f.version).mpr (output_prefix_of_run hrun)

/-- The pass over a source comes to a stack. The files that have been closed by
    then and those that are open are given, the latest first. -/
inductive Visits (f : Flattener) (source : Found) : List Found → List Found → Stack → Prop where
  | opened {file : OpenFile}
      (file_eq : OpenFile.ofText f.tree source.path .none source.content = .ok file) :
    Visits f source [] [source] (Stack.ofFile file)
  | passed {closed opened : List Found} {s next : Stack} {token : Token} {rest : List Token}
      (before : Visits f source closed opened s) (pending : s.innermost.pending = token :: rest)
      (stays : ∀ name line terminator, token ≠ .includeFile name line terminator)
      (step : Steps f.search f.tree s next) : Visits f source closed opened next
  | entered {closed opened : List Found} {s next : Stack} {name : String} {line : Nat}
      {terminator : Terminator} {rest : List Token} {child : Found}
      (before : Visits f source closed opened s)
      (pending : s.innermost.pending = .includeFile name line terminator :: rest)
      (find : (f.search.find f.tree name).value = some child)
      (step : Steps f.search f.tree s next) : Visits f source closed (child :: opened) next
  | left {closed opened : List Found} {s next : Stack} {file : Found}
      (before : Visits f source closed (file :: opened) s) (pending : s.innermost.pending = [])
      (step : Steps f.search f.tree s next) : Visits f source (file :: closed) opened next

namespace Visits

variable {f : Flattener} {source : Found} {closed opened : List Found} {s : Stack}

theorem reaches (h : Visits f source closed opened s) : f.Reaches source s := by
  induction h with
  | opened file_eq =>
      obtain ⟨tokens, htokens, rfl⟩ := ofText_eq_ok file_eq
      exact ⟨tokens, htokens, .refl⟩
  | passed before pending stays step ih => exact ih.trans (.single step)
  | entered before pending find step ih => exact ih.trans (.single step)
  | left before pending step ih => exact ih.trans (.single step)

/-- Conversely every stack that a pass comes to is visited, with as many files open as it
    has. -/
theorem of_reaches (h : f.Reaches source s) :
    ∃ closed opened, Visits f source closed opened s ∧ opened.length = s.files.length := by
  obtain ⟨tokens, htokens, hreach⟩ := h
  -- A step is one of four moves, and each is a way to visit the next stack.
  induction hreach with
  | refl => exact ⟨[], [source], .opened (by rw [OpenFile.ofText, htokens]), rfl⟩
  | tail _ hstep ih =>
      obtain ⟨closed, opened, hvisits, hlength⟩ := ih
      cases move_of_step hstep with
      | text pending =>
          exact ⟨closed, opened, hvisits.passed pending (by rintro _ _ _ ⟨⟩) hstep, hlength⟩
      | request pending =>
          exact ⟨closed, opened, hvisits.passed pending (by rintro _ _ _ ⟨⟩) hstep, hlength⟩
      | opens pending find admits scanned =>
          exact ⟨closed, _ :: opened, hvisits.entered pending find hstep, congrArg (· + 1) hlength⟩
      | closes pending around innermost outer_eq =>
          -- The length says that there is a file to leave.
          rw [Stack.files, around] at hlength
          cases opened with
          | nil => cases hlength
          | cons file others =>
              refine ⟨file :: closed, others, hvisits.left pending hstep, ?_⟩
              rw [Stack.files, outer_eq]
              exact Nat.succ.inj hlength

theorem output_prefix (h : Visits f source closed opened s) {r : Flattened}
    (hresult : (f.source source.path source.content).value = .ok r) :
    f.version ++ s.output <+: r.text :=
  h.reaches.output_prefix hresult

/-- All stacks of a pass are in the comment state of the output, if the files
    closed by then leave no comment open. -/
theorem tracks (h : Visits f source closed opened s) (haligned : LineAligned f.version)
    (hversion : openAfter false (lines f.version) = false)
    (hclosed : ∀ file ∈ closed, EndsInCode file.content) :
    ∃ file around, opened = file :: around ∧ s.Tracks f.version file around := by
  -- Induction on the way to the stack; a file that is left has to end in code.
  induction h with
  | @opened file file_eq =>
      obtain ⟨tokens, htokens, rfl⟩ := ofText_eq_ok file_eq
      refine ⟨source, [], rfl, ?_, fun _ => ?_, Waiting.nobody⟩
      · rw [output_ofFile rfl, List.append_nil, hversion]
        exact reads_of_tokenize htokens
      · rw [output_ofFile rfl, List.append_nil]
        exact haligned
  | @passed closed opened s next token rest before pending stays step ih =>
      obtain ⟨file, around, hopened, htracks⟩ := ih hclosed
      refine ⟨file, around, hopened, ?_⟩
      -- A token other than an include determines the step.
      rw [Steps] at step
      cases token with
      | text t =>
          rw [value_step_text pending] at step
          exact Outcome.more.inj step ▸ htracks.text pending
      | autoresolve name line =>
          rw [value_step_autoresolve pending] at step
          exact Outcome.more.inj step ▸ htracks.request pending
      | includeFile name line terminator => exact absurd rfl (stays name line terminator)
  | @entered closed opened s next name line terminator rest child before pending find step ih =>
      obtain ⟨file, around, rfl, htracks⟩ := ih hclosed
      obtain ⟨found, tokens, hlt, hfind, htokens, rfl⟩ := opened_of_steps pending step
      obtain rfl : found = child := Option.some.inj (hfind.symm.trans find)
      exact ⟨found, file :: around, rfl, htracks.push pending htokens _ hlt⟩
  | @left closed opened s next file before pending step ih =>
      -- The file that is left is among the closed ones, and its includer goes on tracking.
      obtain ⟨hfile, hothers⟩ := List.forall_mem_cons.mp hclosed
      obtain ⟨_, around, heq, htracks⟩ := ih hothers
      obtain ⟨rfl, rfl⟩ := List.cons.inj heq
      obtain ⟨includer, outer, houter, hinnermost, hnext⟩ := closed_of_steps pending step
      exact htracks.close pending hfile houter hinnermost hnext

/-- A file that is nothing but text is included and left behind. -/
theorem included (h : Visits f source closed opened s) {name : String} {line : Nat}
    {terminator : Terminator} {rest : List Token} {child : Found} {t : Text}
    (pending : s.innermost.pending = .includeFile name line terminator :: rest)
    (find : (f.search.find f.tree name).value = some child)
    (admits : s.Admits (f.tree.identity child.path))
    (tokens : tokenize child.content = .ok [.text t]) :
    ∃ next, Visits f source (child :: closed) opened next ∧ next.innermost.pending = rest ∧
      next.output = s.output ++ t ++ terminator.after t := by
  -- Three steps: the file is opened, its one token is read, and it is closed.
  let file : OpenFile := ⟨child.path, f.tree.identity child.path, terminator, [.text t], []⟩
  let inside := (s.advance rest []).push file admits.1
  have hinside : Visits f source closed (child :: opened) inside :=
    h.entered pending find (value_step_opened pending find admits tokens)
  have hread : Visits f source closed (child :: opened) (inside.advance [] t) :=
    hinside.passed rfl nofun (value_step_text rfl)
  obtain ⟨next, hclose, hinnermost, houter, -⟩ :=
    close_of_outer_cons (s := inside.advance [] t) rfl
  have hstep : Steps f.search f.tree (inside.advance [] t) next :=
    (value_step_nil rfl).trans hclose
  refine ⟨next, hread.left rfl hstep, ?_, ?_⟩
  · rw [hinnermost]
    rfl
  · have houtput := output_close rfl hinnermost houter
    have hsame : inside.output = s.output := output_push s rest admits.1
    have htext : (inside.advance [] t).innermost.text = t := List.append_nil t
    rw [houtput, output_advance, hsame, htext]
    rfl

end Visits

/-- No directive is acted on in a comment of the output, if the files closed before
    it leave no comment open. The output so far begins the text of the result. -/
theorem directive_in_code (f : Flattener) (path : Path) {content : Text} {r : Flattened}
    {v : ContextVersion} (version : f.version = v.directive.toList)
    (h : (f.source path content).value = .ok r) {closed opened : List Found} {s : Stack}
    (visits : Visits f ⟨path, content⟩ closed opened s) {token : Token} {rest : List Token}
    (pending : s.innermost.pending = token :: rest) (directive : ∀ t, token ≠ .text t)
    (code : ∀ file ∈ closed, EndsInCode file.content) :
    f.version ++ s.output <+: r.text ∧ openAfter false (lines (f.version ++ s.output)) = false := by
  have haligned : LineAligned f.version := version ▸ v.lineAligned_directive
  have hversion : openAfter false (lines f.version) = false :=
    version ▸ v.openAfter_directive false
  obtain ⟨file, around, -, htracks⟩ := visits.tracks haligned hversion code
  have hreads := htracks.reads
  rw [pending] at hreads
  exact ⟨visits.output_prefix h, hreads.eq_false_of_directive directive⟩

/-- A request behind a file that was included and left no comment open. -/
theorem directive_behind_include :
    let f : Flattener := ⟨⟨[⟨"own"⟩], []⟩,
      ⟨[(["own"], .directory), (["own", "sun.glsl"], .file [120])]⟩,
      (ContextVersion.directive ⟨4, 5, false⟩).toList⟩
    let content := "#include <sun.glsl>\n#autoresolve Camera\n".toList
    let r : Flattened := ⟨"#version 450\nx\n\n".toList, ["Camera"], [⟨"own/sun.glsl"⟩]⟩
    let sun : Found := ⟨⟨"own/sun.glsl"⟩, ['x']⟩
    (f.source ⟨"main"⟩ content).value = .ok r ∧
      ∃ s rest, Visits f ⟨⟨"main"⟩, content⟩ [sun] [⟨⟨"main"⟩, content⟩] s ∧
        s.innermost.pending = .autoresolve "Camera" 2 :: rest ∧
        s.output = ['x', '\n'] ∧ f.version ++ s.output <+: r.text ∧
        openAfter false (lines (f.version ++ s.output)) = false := by
  intro f content r sun
  have hfind : (f.search.find f.tree "sun.glsl").value = some sun := rfl
  have hfree : ¬ Barred f.tree ([] ++ [⟨"main"⟩]) sun.path := by decide
  have htokens : tokenize content = .ok [.includeFile "sun.glsl" 1 .lineFeed,
      .autoresolve "Camera" 2, .text ['\n']] := rfl
  have hsun : tokenize sun.content = .ok [.text ['x']] := rfl
  have hsource : (f.source ⟨"main"⟩ content).value = .ok r := by
    rw [value_source, expand_tokens htokens, expandTokens_include hfind hfree,
      expand_tokens hsun, expandTokens_text, expandTokens, expandTokens_text]
    rfl
  have hopened : Visits f ⟨⟨"main"⟩, content⟩ [] [⟨⟨"main"⟩, content⟩] _ :=
    Visits.opened (by rw [OpenFile.ofText, htokens])
  obtain ⟨s, hvisits, hpending, houtput⟩ := hopened.included rfl hfind (by decide) hsun
  exact ⟨hsource, s, _, hvisits, hpending, houtput,
    directive_in_code f ⟨"main"⟩ rfl hsource hvisits hpending (by simp) (by decide)⟩

/-- A request behind a file that was included and left a comment open. -/
theorem source_requests_commented :
    let f : Flattener := ⟨⟨[⟨"own"⟩], []⟩,
      ⟨[(["own"], .directory), (["own", "open.glsl"], .file [47, 42, 10])]⟩,
      (ContextVersion.directive ⟨4, 5, false⟩).toList⟩
    let content := "#include <open.glsl>\n#autoresolve Camera\n".toList
    let r : Flattened := ⟨"#version 450\n/*\n\n".toList, ["Camera"], [⟨"own/open.glsl"⟩]⟩
    (f.source ⟨"main"⟩ content).value = .ok r ∧
      ∃ closed opened s rest, Visits f ⟨⟨"main"⟩, content⟩ closed opened s ∧
        s.innermost.pending = .autoresolve "Camera" 2 :: rest ∧
        openAfter false (lines (f.version ++ s.output)) = true := by
  intro f content r
  have hfind : (f.search.find f.tree "open.glsl").value =
    some ⟨⟨"own/open.glsl"⟩, ['/', '*', '\n']⟩ := rfl
  have hfree : ¬ Barred f.tree ([] ++ [⟨"main"⟩]) ⟨"own/open.glsl"⟩ := by decide
  have htokens : tokenize content = .ok [.includeFile "open.glsl" 1 .lineFeed,
      .autoresolve "Camera" 2, .text ['\n']] := rfl
  have hopen : tokenize ['/', '*', '\n'] = .ok [.text ['/', '*', '\n']] := rfl
  have hsource : (f.source ⟨"main"⟩ content).value = .ok r := by
    rw [value_source, expand_tokens htokens, expandTokens_include hfind hfree,
      expand_tokens hopen, expandTokens_text, expandTokens, expandTokens_text]
    rfl
  have hopened : Visits f ⟨⟨"main"⟩, content⟩ [] [⟨⟨"main"⟩, content⟩] _ :=
    Visits.opened (by rw [OpenFile.ofText, htokens])
  obtain ⟨s, hvisits, hpending, houtput⟩ := hopened.included rfl hfind (by decide) hopen
  refine ⟨hsource, _, _, s, _, hvisits, hpending, ?_⟩
  rw [houtput]
  decide

end Flattener

end ShaderBuild
