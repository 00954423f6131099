import ShaderBuild.Proofs.Include.Emission

/-!
# Where Included Text Begins and Ends

Where in the output the text of a file stands that is put in the place of an include.

Whether a file has to be ended is found out when it is closed, from its own text, and
this text may itself end with that of another file, which was closed with no terminator
because its directive had none. What makes up for this is that a directive without
terminator stands on the last line of its file. Nothing is put out after it until some
file around is closed whose directive has one. So there are two things to keep, for the
stack as a whole: a file with something left to read stands at the start of an output
line, and one that waits with something left to read will get a whole number of lines.

Both are said of files that have something left to read and of no others. The output
does end in the middle of a line again and again, but then nothing comes before the end
of the line does.

## Main definitions

* `Stack.Aligned`: What is read next is put out at the start of a line.
* `Stack.Inlines`: What is put in the place of an include, and where.

## Theorems

* `aligned_of_reaches`: All stacks of a pass are aligned.
* `exists_inlines`: What an include leads to stands on lines of its own.
-/

namespace ShaderBuild

/-- The rest of some tokens is read after the first of them. -/
theorem Reads.exists_of_append {commented final : Bool} {front tokens : List Token}
    (h : Reads commented (front ++ tokens) final) : ∃ between, Reads between tokens final := by
  -- Reading goes over the tokens one by one, from one comment state to the next.
  induction front generalizing commented with
  | nil => exact ⟨commented, h⟩
  | cons token rest ih =>
      cases h with
      | text _ _ after => exact ih after
      | includeFile _ after => exact ih after
      | autoresolve after => exact ih after

/-- What is left of an open file is read as a scan of the file reads it. -/
theorem OpenFile.Of.exists_reads {tree : Tree} {file : OpenFile} {found : Found}
    (h : file.Of tree found) : ∃ commented final, Reads commented file.pending final := by
  obtain ⟨read, hread⟩ := h.pending
  obtain ⟨commented, hreads⟩ := (reads_of_tokenize hread).exists_of_append
  exact ⟨commented, _, hreads⟩

namespace Stack

variable {search : SearchPath} {tree : Tree} {version : Text}

/-- What is left to read of the innermost file is put out at the start of a line, and so
    will be what is left of the files around it. -/
structure Aligned (version : Text) (s : Stack) : Prop where
  starts : s.innermost.pending ≠ [] → LineAligned (version ++ s.output)
  ended : s.files.IsChain fun inner outer => outer.pending ≠ [] → inner.terminator ≠ .none

theorem aligned_ofFile {file : OpenFile} (hwritten : file.written = [])
    (h : LineAligned version) : (ofFile file).Aligned version where
  starts _ := by rwa [output_ofFile hwritten, List.append_nil]
  ended := List.isChain_singleton file

/-- Only its terminator ties the innermost file to those around it. -/
theorem Aligned.ended_of_terminator_eq {s : Stack} (h : s.Aligned version) (next : Stack)
    (hterminator : next.innermost.terminator = s.innermost.terminator)
    (houter : next.outer = s.outer) :
    next.files.IsChain fun inner outer => outer.pending ≠ [] → inner.terminator ≠ .none := by
  have hended := h.ended
  rw [Stack.files, List.isChain_cons] at hended ⊢
  rw [hterminator, houter]
  exact hended

/-- Every step keeps a stack aligned. -/
theorem Aligned.move {s next : Stack} {commented final : Bool} (h : s.Aligned version)
    (reads : Reads commented s.innermost.pending final)
    (hmove : s.Move search tree (.more next)) : next.Aligned version := by
  cases hmove with
  | text pending =>
      -- Text that tokens follow is a whole number of lines.
      have hstart := h.starts (by rw [pending]; exact List.cons_ne_nil _ _)
      rw [pending] at reads
      cases reads with
      | text _ aligned _ =>
          refine ⟨fun hrest => ?_, h.ended_of_terminator_eq _ rfl rfl⟩
          rw [output_advance, ← List.append_assoc]
          exact hstart.append (aligned hrest)
  | request pending =>
      -- Nothing is put out, so the rest starts where the directive did.
      have hstart := h.starts (by rw [pending]; exact List.cons_ne_nil _ _)
      refine ⟨fun _ => ?_, h.ended_of_terminator_eq _ rfl rfl⟩
      rw [output_request]
      exact hstart
  | opens pending find admits scanned =>
      -- The file starts where its directive stood, and the directive's line is ended if
      -- anything follows it.
      have hstart := h.starts (by rw [pending]; exact List.cons_ne_nil _ _)
      rw [pending] at reads
      cases reads with
      | includeFile ended _ =>
          refine ⟨fun _ => (output_push s _ _).symm ▸ hstart, List.isChain_cons_cons.mpr ⟨ended, ?_⟩⟩
          exact h.ended_of_terminator_eq (s.advance _ []) rfl rfl
  | @closes includer outer _ pending around innermost outer_eq =>
      have hended := h.ended
      rw [Stack.files, around, List.isChain_cons_cons] at hended
      refine ⟨fun hrest => Or.inr ?_, ?_⟩
      · -- The includer goes on, so the file that is closed is one that is ended.
        rw [innermost] at hrest
        rw [output_close around innermost outer_eq, output_eq, List.append_assoc,
          ← List.append_assoc version, List.getLast?_append, getLast?_after (hended.1 hrest),
          Option.some_or]
      · have hrest := List.isChain_cons.mp hended.2
        rw [Stack.files, innermost, outer_eq, List.isChain_cons]
        exact hrest

theorem Continues.output {s t : Stack} {e : Flattened} (h : Continues s e t) :
    t.output = s.output ++ e.text := by
  have htext : t.innermost.text = s.innermost.text ++ e.text :=
    congrArg Flattened.text h.collected
  rw [output_eq, output_eq, h.outer, htext, List.append_assoc]

/-- Where a run that succeeds meets an include, the expansion of the file that it leads
    to is put out, then what ends it, and the includer goes on. -/
theorem exists_expand_of_run_ok {s : Stack} {name : String} {line : Nat} {terminator : Terminator}
    {rest : List Token} {result : Flattened} (hid : s.Identified tree)
    (hpending : s.innermost.pending = .includeFile name line terminator :: rest)
    (hrun : (s.run search tree).value = .ok result) :
    ∃ found e next, (search.find tree name).value = some found ∧
      expand search tree s.chain found = .ok e ∧ Reaches search tree s next ∧
      next.innermost.pending = rest ∧
      next.output = s.output ++ (e.text ++ terminator.after e.text) := by
  -- The work on the tokens settles, so the case split is on what their expansion comes to.
  have hwithin : s.Within tree s.ancestors s.innermost.path := ⟨hid, rfl, rfl⟩
  have hsettles := tokensSettle search tree s.ancestors s.innermost.path _ s hwithin hpending
  cases hexpand : expandTokens search tree s.ancestors s.innermost.path
      (.includeFile name line terminator :: rest) with
  | error failure =>
      -- The work on the tokens would come to a failure, and so would the run.
      rw [hexpand] at hsettles
      obtain ⟨t, hreach, hfailed⟩ := hsettles
      rw [value_run_of_reaches hreach, run_failed hfailed] at hrun
      cases hrun
  | ok whole =>
      -- The expansion names the file, and the work on it comes to the file's expansion.
      obtain ⟨found, e, _, hfind, hfree, he, -, -⟩ := expandTokens_include_eq_ok_iff.mp hexpand
      obtain ⟨tokens, htokens, hexpanded⟩ := expand_eq_ok_iff.mp he
      have hadmits : s.Admits (tree.identity found.path) := (hwithin.admits_iff _).mpr hfree
      let child : OpenFile := ⟨found.path, tree.identity found.path, terminator, tokens, []⟩
      have hinside : ((s.advance rest []).push child hadmits.1).Within tree
          (s.ancestors ++ [s.innermost.path]) found.path :=
        (hwithin.continues (continues_advance s rest [])).push rfl hadmits.1
      have hread := tokensSettle search tree _ _ tokens _ hinside rfl
      rw [hexpanded] at hread
      obtain ⟨next, hreach, hnext, hleft⟩ :=
        exists_continues_of_settles hpending hfind hadmits htokens hread
      exact ⟨found, e, next, hfind, s.chain_eq ▸ he, hreach, hleft, hnext.output⟩

/-- What is put in the place of an include: the expansion `e` of the file that it leads
    to and then `added`. It begins with a line of the output and ends like the line of
    the include, and the includer goes on behind it. -/
structure Inlines (f : Flattener) (source : Found) (r : Flattened) (s : Stack) (name : String)
    (terminator : Terminator) (rest : List Token) (e : Flattened) (added : Text) : Prop where
  expands : ∃ child, (f.search.find f.tree name).value = some child ∧
    expand f.search f.tree s.chain child = .ok e
  starts : LineAligned (f.version ++ s.output)
  within : f.version ++ s.output ++ e.text ++ added <+: r.text
  continues : ∃ next, f.Reaches source next ∧ next.innermost.pending = rest ∧
    next.output = s.output ++ e.text ++ added
  ends : terminator ≠ .none → (e.text ++ added).getLast? = some '\n'
  adds : added = [] ∨
    added = terminator.text ∧ (e.text = [] ∨ e.text.getLast? ≠ some '\n')

end Stack

namespace Flattener

open Stack

variable {f : Flattener} {source : Found} {s : Stack}

/-- All stacks of a pass are aligned. -/
theorem aligned_of_reaches (h : f.Reaches source s) (version : LineAligned f.version) :
    s.Aligned f.version := by
  -- That the stack is aligned is kept together with which files are open, since a step needs
  -- how these are read.
  have hboth : (∃ opened, s.Follows f.search f.tree source opened) ∧ s.Aligned f.version := by
    refine reaches_induction (P := fun s =>
      (∃ opened, s.Follows f.search f.tree source opened) ∧ s.Aligned f.version) h ?_ ?_
    · intro tokens htokens
      exact ⟨⟨_, follows_ofFile htokens⟩, aligned_ofFile rfl version⟩
    · rintro s next ⟨⟨opened, hfollows⟩, haligned⟩ hmove
      obtain ⟨found, around, -, hof, -⟩ := hfollows.innermost
      obtain ⟨commented, final, hreads⟩ := hof.exists_reads
      exact ⟨hfollows.move hmove, haligned.move hreads hmove⟩
  exact hboth.2

/-- What an include leads to is put on lines of its own. -/
theorem Reaches.exists_inlines (h : f.Reaches source s) (version : LineAligned f.version)
    {r : Flattened} (hresult : (f.source source.path source.content).value = .ok r)
    {name : String} {line : Nat} {terminator : Terminator} {rest : List Token}
    (pending : s.innermost.pending = .includeFile name line terminator :: rest) :
    ∃ e added, s.Inlines f source r name terminator rest e added := by
  obtain ⟨opened, hfollows⟩ := follows_of_reaches h
  obtain ⟨result, hrun, -⟩ := h.run_eq_ok hresult
  obtain ⟨child, e, next, hfind, he, hreach, hrest, houtput⟩ :=
    exists_expand_of_run_ok hfollows.identified pending hrun
  have hnext : f.Reaches source next := h.trans hreach
  rw [← List.append_assoc] at houtput
  refine ⟨e, terminator.after e.text, ⟨child, hfind, he⟩, ?_, ?_, ⟨next, hnext, hrest, houtput⟩,
    fun hterminator => getLast?_after hterminator e.text, ?_⟩
  · exact (aligned_of_reaches h version).starts (by rw [pending]; exact List.cons_ne_nil _ _)
  · have hprefix := hnext.output_prefix hresult
    rw [houtput, ← List.append_assoc, ← List.append_assoc] at hprefix
    exact hprefix
  · rw [Terminator.after]
    split
    · next hadded => exact Or.inr ⟨rfl, Or.inr hadded.2⟩
    · exact Or.inl rfl

end Flattener

end ShaderBuild
