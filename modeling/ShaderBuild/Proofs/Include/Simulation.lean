import Mathlib.Logic.Basic
import ShaderBuild.Proofs.Include.Expansion
import ShaderBuild.Proofs.Include.Trace

/-!
# The Stack Expands

The work on a stack of open files comes to the expansion of its source, with
the same text, the same blocks and files in the same order, or the same
failure.

All files of a stack write to the same two lists, and each has a text of its
own that it hands over when it is closed. So what one stretch of the work
collects cannot be read off the stack that it ends on; it is what that stack
has collected more than the one it began on. `Continues` says so, for a
stretch that begins and ends in one file, and such stretches add up.

A file that is included is opened on top of the tokens its includer has still
to read. Its stretch begins with the text empty, ends when it has no tokens
left, and closing it turns that stretch into one of the includer.

## Main definitions

* `Stack.ancestors`: The files around the innermost one.
* `Stack.collected`: What a stack has collected.
* `Stack.Continues`: A stretch of the work within one file, by what it collects.
* `Stack.Settles`: What the work on the innermost file comes to.
* `Stack.TokensSettle`, `Stack.FileSettles`: It comes to an expansion, wherever
  the file is being read.

## Theorems

* `not_admits_iff_barred`: A stack refuses the files an expansion refuses.
* `settles_prepend`: A stretch may be put in front of the work.
* `continues_of_closed`: The stretch of an included file, seen from its includer.
* `exists_continues_of_settles`: A file that can be read to its end is closed.
* `tokensSettle`: Work on a file comes to the expansion of its tokens.
* `value_source`, `value_file`: What the pass over a text, and over a file, comes to.
* `source_refines_expand`: A pass comes to the expansion of its source.
-/

namespace ShaderBuild

theorem OpenFile.inlined_eq (file : OpenFile) :
    file.inlined = file.text ++ file.terminator.after file.text := by
  unfold inlined Terminator.after
  by_cases hend : file.text.getLast? = some '\n'
  · simp only [hend, if_true, ne_eq, not_true_eq_false, and_false, if_false, List.append_nil]
  · cases file.terminator <;> simp [hend, Terminator.text]

namespace Stack

variable {search : SearchPath} {tree : Tree}

/-- The paths of the files around the innermost one, outermost first. -/
def ancestors (s : Stack) : List Path :=
  (s.outer.map OpenFile.path).reverse

theorem chain_eq (s : Stack) : s.chain = s.ancestors ++ [s.innermost.path] := by
  simp only [chain, files, ancestors, List.map_cons, List.reverse_cons]

theorem not_admits_iff_barred {s : Stack} (hid : s.Identified tree) (path : Path) :
    ¬ s.Admits (tree.identity path) ↔ Barred tree s.chain path := by
  -- The stack looks at its files and the expansion at their paths, and the
  -- paths say as much as long as they are what identifies the files.
  have hlength : s.chain.length = s.files.length := by
    rw [chain, List.length_reverse, List.length_map]
  have hopen : tree.identity path ∈ s.chain.map tree.identity ↔
      ∃ file ∈ s.files, file.identity = tree.identity path := by
    simp only [chain, List.map_reverse, List.mem_reverse, List.map_map, List.mem_map,
      Function.comp_apply]
    refine exists_congr fun file => and_congr_right fun hfile => ?_
    rw [hid file hfile]
  -- What is left is the negation of `Admits`, taken apart.
  rw [Barred, hopen, hlength, Admits, not_and_or, Nat.not_lt]
  simp only [not_forall, not_not, exists_prop]

/-- What the innermost file has written, and what all files have put into one
    list each. -/
def collected (s : Stack) : Flattened :=
  ⟨s.innermost.text, s.autoresolve, s.included⟩

/-- The work leads from one stack to another without leaving the innermost file,
    and collects `e` on the way. -/
structure Continues (s : Stack) (e : Flattened) (t : Stack) : Prop where
  path : t.innermost.path = s.innermost.path
  identity : t.innermost.identity = s.innermost.identity
  terminator : t.innermost.terminator = s.innermost.terminator
  outer : t.outer = s.outer
  collected : t.collected = s.collected ++ e

theorem Continues.refl (s : Stack) : Continues s .empty s :=
  ⟨rfl, rfl, rfl, rfl, (Flattened.append_empty _).symm⟩

theorem Continues.trans {s t u : Stack} {d e : Flattened} (h1 : Continues s d t)
    (h2 : Continues t e u) : Continues s (d ++ e) u where
  path := h2.path.trans h1.path
  identity := h2.identity.trans h1.identity
  terminator := h2.terminator.trans h1.terminator
  outer := h2.outer.trans h1.outer
  collected := by rw [h2.collected, h1.collected, Flattened.append_assoc]

theorem Continues.identified {s t : Stack} {e : Flattened} (h : Continues s e t)
    (hid : s.Identified tree) : t.Identified tree := by
  intro file hfile
  rcases List.mem_cons.mp hfile with rfl | houter
  · rw [h.identity, h.path]
    exact hid _ List.mem_cons_self
  · rw [h.outer] at houter
    exact hid file (List.mem_cons_of_mem _ houter)

theorem continues_advance (s : Stack) (rest : List Token) (t : Text) :
    Continues s ⟨t, [], []⟩ (s.advance rest t) where
  path := rfl
  identity := rfl
  terminator := rfl
  outer := rfl
  collected := by
    have htext : (s.advance rest t).innermost.text = s.innermost.text ++ t :=
      OpenFile.text_write _ _
    simp only [Stack.collected, htext, Flattened.append_def, List.append_nil]
    rfl

theorem continues_request (s : Stack) (name : String) :
    Continues s ⟨[], [name], []⟩ (s.request name) where
  path := rfl
  identity := rfl
  terminator := rfl
  outer := rfl
  collected := by
    simp only [Stack.collected, Flattened.append_def, List.append_nil]
    rfl

/-- What the work on the innermost file of a stack comes to: its end, with what
    was collected, or a failure. -/
def Settles (search : SearchPath) (tree : Tree) (s : Stack) : Except Failure Flattened → Prop
  | .ok e => ∃ t, Reaches search tree s t ∧ Continues s e t ∧ t.innermost.pending = []
  | .error failure => ∃ t, Reaches search tree s t ∧ (t.step search tree).value = .failed failure

theorem settles_prepend {s t : Stack} {d : Flattened} {result : Except Failure Flattened}
    -- A failure says where the work ends and nothing of what has been collected.
    (hreaches : Reaches search tree s t) (hcontinues : Continues s d t)
    (hsettles : t.Settles search tree result) :
    s.Settles search tree (do let e ← result; .ok (d ++ e)) := by
  cases result with
  | error failure =>
      rcases hsettles with ⟨u, hu, hfailed⟩
      exact ⟨u, hreaches.trans hu, hfailed⟩
  | ok e =>
      rcases hsettles with ⟨u, hu, hread, hpending⟩
      exact ⟨u, hreaches.trans hu, hcontinues.trans hread, hpending⟩

theorem settles_of_failed {s : Stack} {failure : Failure}
    (h : (s.step search tree).value = .failed failure) :
    s.Settles search tree (.error failure) :=
  ⟨s, Relation.ReflTransGen.refl, h⟩

/-- The stretch of an included file, seen from its includer: the directive has
    been replaced by what the file collected. -/
theorem continues_of_closed {s t next : Stack} {rest : List Token} {found : Found}
    {child : OpenFile} {e : Flattened} (hpath : child.path = found.path)
    (hwritten : child.written = []) (hlt : (s.advance rest []).files.length < maxOpenFiles)
    (hread : Continues ((s.advance rest []).push child hlt) e t)
    (hclose : t.close = .more next) :
    Continues s (found.inlined child.terminator e) next ∧ next.innermost.pending = rest := by
  have houter : t.outer = (s.advance rest []).innermost :: s.outer := hread.outer
  have hcollected : t.collected =
      ⟨[], s.autoresolve, s.included ++ [found.path]⟩ ++ e := by
    rw [hread.collected]
    simp only [collected, push, advance, OpenFile.text, hwritten, hpath, List.reverse_nil,
      List.flatten_nil]
  rw [Flattened.append_def, collected, Flattened.mk.injEq] at hcollected
  rcases hcollected with ⟨htext, hauto, hincluded⟩
  rw [List.nil_append] at htext
  have hinlined : t.innermost.inlined = e.text ++ child.terminator.after e.text := by
    rw [OpenFile.inlined_eq, htext, hread.terminator]
    rfl
  -- The included file started with nothing written, and put its blocks and files behind
  -- those of its includer.
  rcases close_of_outer_cons houter with ⟨after, hafter, hinner, hout, ha, hi⟩
  obtain rfl : after = next := by
    rw [hclose] at hafter
    injection hafter with heq
    exact heq.symm
  refine ⟨⟨?_, ?_, ?_, hout, ?_⟩, ?_⟩
  · rw [hinner]; rfl
  · rw [hinner]; rfl
  · rw [hinner]; rfl
  · -- The includer has written nothing in the meantime.
    have hwrite : after.innermost.text = s.innermost.text ++ t.innermost.inlined := by
      rw [hinner, OpenFile.text_write]
      have := OpenFile.text_write s.innermost []
      rw [List.append_nil] at this
      exact congrArg (· ++ t.innermost.inlined) this
    rw [collected, hwrite, ha, hi, hauto, hincluded, hinlined, List.append_assoc,
      List.singleton_append]
    rfl
  · rw [hinner]; rfl

/-- The innermost file of a stack is at `path`, opened inside `ancestors`. -/
structure Within (tree : Tree) (s : Stack) (ancestors : List Path) (path : Path) : Prop where
  identified : s.Identified tree
  ancestors : s.ancestors = ancestors
  path : s.innermost.path = path

theorem Within.chain_eq {s : Stack} {ancestors : List Path} {path : Path}
    (h : s.Within tree ancestors path) : s.chain = ancestors ++ [path] := by
  rw [Stack.chain_eq, h.ancestors, h.path]

theorem Within.admits_iff {s : Stack} {ancestors : List Path} {path : Path}
    (h : s.Within tree ancestors path) (other : Path) :
    s.Admits (tree.identity other) ↔ ¬ Barred tree (ancestors ++ [path]) other := by
  rw [← h.chain_eq, ← not_admits_iff_barred h.identified, not_not]

theorem Within.continues {s t : Stack} {e : Flattened} {ancestors : List Path} {path : Path}
    (h : s.Within tree ancestors path) (hread : Continues s e t) :
    t.Within tree ancestors path where
  identified := hread.identified h.identified
  ancestors := by rw [Stack.ancestors, hread.outer]; exact h.ancestors
  path := hread.path.trans h.path

theorem Within.push {s : Stack} {ancestors : List Path} {path : Path}
    (h : s.Within tree ancestors path) {child : OpenFile}
    (hchild : child.identity = tree.identity child.path) (hlt : s.files.length < maxOpenFiles) :
    (s.push child hlt).Within tree (ancestors ++ [path]) child.path where
  identified := identified_push h.identified hchild hlt
  ancestors := h.chain_eq
  path := rfl

/-- Wherever a file is being read, reading `tokens` comes to their expansion. -/
def TokensSettle (search : SearchPath) (tree : Tree) (ancestors : List Path) (path : Path)
    (tokens : List Token) : Prop :=
  ∀ s : Stack, s.Within tree ancestors path → s.innermost.pending = tokens →
    s.Settles search tree (expandTokens search tree ancestors path tokens)

/-- Wherever a file has been opened, reading it comes to its expansion. -/
def FileSettles (search : SearchPath) (tree : Tree) (ancestors : List Path) (file : Found) :
    Prop :=
  ∀ s : Stack, s.Within tree ancestors file.path →
    tokenize file.content = .ok s.innermost.pending →
      s.Settles search tree (expand search tree ancestors file)

/-- A file that has been opened in the place of an include, and can be read to its
    end, is closed there. -/
theorem exists_continues_of_settles {s : Stack} {name : String} {line : Nat}
    {terminator : Terminator} {rest tokens : List Token} {found : Found} {e : Flattened}
    (hpending : s.innermost.pending = .includeFile name line terminator :: rest)
    (hfind : (search.find tree name).value = some found)
    (hadmits : s.Admits (tree.identity found.path)) (htokens : tokenize found.content = .ok tokens)
    (hsettles : ((s.advance rest []).push
      ⟨found.path, tree.identity found.path, terminator, tokens, []⟩ hadmits.1).Settles
        search tree (.ok e)) :
    ∃ next, Reaches search tree s next ∧ Continues s (found.inlined terminator e) next ∧
      next.innermost.pending = rest := by
  have hopened : Steps search tree s _ := value_step_opened hpending hfind hadmits htokens
  rcases hsettles with ⟨t, hreaches, hread, hend⟩
  -- The file is read to its end, so the next step closes it.
  rcases close_of_outer_cons hread.outer with ⟨next, hclose, -⟩
  rcases continues_of_closed rfl rfl hadmits.1 hread hclose with ⟨hnext, hleft⟩
  have hclosed : Steps search tree t next := (value_step_nil hend).trans hclose
  exact ⟨next, (hreaches.head hopened).tail hclosed, hnext, hleft⟩

/-- The include step: if the file it leads to settles, and the tokens after it
    do, then so do the tokens from the include on. -/
theorem tokensSettle_include {ancestors : List Path} {path : Path} {name : String} {line : Nat}
    {terminator : Terminator} {rest : List Token} {found : Found}
    (hfind : (search.find tree name).value = some found)
    (hfree : ¬ Barred tree (ancestors ++ [path]) found.path)
    (hchild : FileSettles search tree (ancestors ++ [path]) found)
    (hrest : TokensSettle search tree ancestors path rest) :
    TokensSettle search tree ancestors path (.includeFile name line terminator :: rest) := by
  intro s hs hpending
  -- The stack and the expansion refuse the same files, so the include is followed.
  have hadmits : s.Admits (tree.identity found.path) := (hs.admits_iff _).mpr hfree
  rw [expandTokens_include hfind hfree]
  cases htokens : tokenize found.content with
  | error bad =>
      rw [expand_malformed htokens]
      exact settles_of_failed (value_step_malformed hpending hfind hadmits htokens)
  | ok tokens =>
      have hopened : Steps search tree s _ := value_step_opened hpending hfind hadmits htokens
      have hbelow := hs.continues (continues_advance s rest [])
      have hopen := hchild ((s.advance rest []).push
        ⟨found.path, tree.identity found.path, terminator, tokens, []⟩ hadmits.1)
        (hbelow.push rfl hadmits.1) htokens
      cases hexpand : expand search tree (ancestors ++ [path]) found with
      | error failure =>
          rw [hexpand] at hopen
          rcases hopen with ⟨t, hreaches, hfailed⟩
          exact ⟨t, hreaches.head hopened, hfailed⟩
      | ok e =>
          rw [hexpand] at hopen
          rcases exists_continues_of_settles hpending hfind hadmits htokens hopen with
            ⟨next, hreaches, hnext, hleft⟩
          exact settles_prepend hreaches hnext (hrest next (hs.continues hnext) hleft)

theorem tokensSettle (search : SearchPath) (tree : Tree) (ancestors : List Path) (path : Path)
    (tokens : List Token) : TokensSettle search tree ancestors path tokens := by
  -- Induction along the recursion of the expansion, over files and tokens at once.
  refine expandTokens.induct search tree (FileSettles search tree) (TokensSettle search tree)
    ?_ ?_ ?_ ?_ ?_ ?_ ?_ ?_ ancestors path tokens
  · -- A malformed file has no tokens, so it is on no stack.
    intro ancestors file bad hbad s hs htokens
    rw [hbad] at htokens
    exact absurd htokens (by simp only [reduceCtorEq, not_false_eq_true])
  · -- Any other file is its tokens.
    intro ancestors file tokens htokens ih s hs hpending
    rw [expand_tokens htokens]
    rw [htokens, Except.ok.injEq] at hpending
    exact ih s hs hpending.symm
  · -- With nothing left to read the stretch is empty.
    intro ancestors path s hs hpending
    rw [expandTokens]
    exact ⟨s, Relation.ReflTransGen.refl, Continues.refl s, hpending⟩
  · -- Text, and a request below, are read in one step that stays in the file.
    intro ancestors path t rest ih s hs hpending
    rw [expandTokens]
    have hnext := continues_advance s rest t
    exact settles_prepend (Relation.ReflTransGen.single (value_step_text hpending)) hnext
      (ih _ (hs.continues hnext) rfl)
  · intro ancestors path name line rest ih s hs hpending
    rw [expandTokens]
    have hnext := (continues_advance s rest []).trans (continues_request _ name)
    exact settles_prepend (Relation.ReflTransGen.single (value_step_autoresolve hpending)) hnext
      (ih _ (hs.continues hnext) rfl)
  · -- An include that leads nowhere.
    intro ancestors path name line terminator rest hfind s hs hpending
    rw [expandTokens_missing hfind, ← hs.path]
    exact settles_of_failed (value_step_missing hpending hfind)
  · -- An include that may not be opened. Both name the same chain of files.
    intro ancestors path name line terminator rest found hfind hbarred s hs hpending
    have hrefused := value_step_refused hpending hfind
      (fun hadmits => (hs.admits_iff _).mp hadmits hbarred)
    rw [hs.chain_eq, List.append_assoc] at hrefused
    rw [expandTokens_barred hfind hbarred]
    exact settles_of_failed hrefused
  · intro ancestors path name line terminator rest found hfind hfree hchild hrest
    exact tokensSettle_include hfind hfree hchild hrest

/-- A run over a file that nothing includes comes to what the work on the file
    comes to. -/
theorem value_run_of_settles {file : OpenFile} {result : Except Failure Flattened}
    (hterminator : file.terminator = .none) (hwritten : file.written = [])
    (h : (ofFile file).Settles search tree result) :
    ((ofFile file).run search tree).value = result := by
  -- Nothing stands around the file, so what is left to do at its end is the last step.
  cases result with
  | error failure =>
      rcases h with ⟨t, hreaches, hfailed⟩
      rw [value_run_of_reaches hreaches, run_failed hfailed]
  | ok e =>
      rcases h with ⟨t, hreaches, hread, hend⟩
      have hcollected : t.collected = e := by
        rw [hread.collected, collected, ofFile, OpenFile.text, hwritten]
        exact Flattened.empty_append e
      -- No directive stands around the source whose line would have to end.
      have hinlined : t.innermost.inlined = t.innermost.text := by
        rw [OpenFile.inlined_eq, hread.terminator, ofFile, hterminator, Terminator.after]
        simp only [ne_eq, not_true_eq_false, false_and, if_false, List.append_nil]
      have hdone : (t.step search tree).value = .done _ :=
        (value_step_nil hend).trans (close_of_outer_nil hread.outer)
      rw [value_run_of_reaches hreaches, run_done hdone, hinlined, ← hcollected]
      rfl

end Stack

namespace Flattener

/-- The result of a pass, from the expansion of its source. -/
def finish (f : Flattener) (e : Flattened) : Flattened :=
  ⟨f.version ++ e.text, e.autoresolve, e.included⟩

theorem value_source (f : Flattener) (path : Path) (content : Text) :
    (f.source path content).value = (expand f.search f.tree [] ⟨path, content⟩).map f.finish := by
  cases htokens : tokenize content with
  | error bad =>
      rw [expand_malformed htokens]
      simp only [source, OpenFile.ofText, htokens, Logged.fail]
      rfl
  | ok tokens =>
      -- The pass starts with the source as the only open file, where no file stands around it.
      have hsettles := Stack.tokensSettle f.search f.tree [] path tokens
        (Stack.ofFile ⟨path, f.tree.identity path, .none, tokens, []⟩)
        ⟨Stack.identified_ofFile, rfl, rfl⟩ rfl
      have hrun := Stack.value_run_of_settles rfl rfl hsettles
      rw [expand_tokens htokens]
      simp only [source, OpenFile.ofText, htokens, Logged.value_bind, hrun]
      cases expandTokens f.search f.tree [] path tokens with
      | error failure => rfl
      | ok e => rfl

/-- The pass over a file: it is read whole before anything is expanded, and one that cannot
    be read fails with the reason. -/
theorem value_file (f : Flattener) (path : Path) :
    (f.file path).value = match f.tree.readText path with
      | .error fault => .error (.unreadable path fault.message)
      | .ok content => (expand f.search f.tree [] ⟨path, content⟩).map f.finish := by
  rw [file]
  cases f.tree.readText path with
  | error fault => rfl
  | ok content => exact f.value_source path content

theorem value_source_ok_iff (f : Flattener) (path : Path) (content : Text) {r : Flattened} :
    (f.source path content).value = .ok r ↔
      ∃ e, expand f.search f.tree [] ⟨path, content⟩ = .ok e ∧ r = f.finish e := by
  rw [value_source]
  cases expand f.search f.tree [] ⟨path, content⟩ with
  | error failure => simp only [Except.map, reduceCtorEq, false_and, exists_false]
  | ok e => simp only [Except.map, Except.ok.injEq, exists_eq_left', eq_comm]

/-- A pass comes to the expansion of its source: the version line and then the
    same text, the same blocks and the same files in the same order, or the
    same failure. -/
theorem source_refines_expand (f : Flattener) (path : Path) (content : Text) :
    match expand f.search f.tree [] ⟨path, content⟩ with
    | .ok e =>
      (f.source path content).value = .ok ⟨f.version ++ e.text, e.autoresolve, e.included⟩
    | .error failure => (f.source path content).value = .error failure := by
  have hvalue := f.value_source path content
  cases hexpand : expand f.search f.tree [] ⟨path, content⟩ with
  | error failure =>
      rw [hexpand] at hvalue
      exact hvalue
  | ok e =>
      rw [hexpand] at hvalue
      exact hvalue

end Flattener

end ShaderBuild
