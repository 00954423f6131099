import ShaderBuild.Proofs.Include.Graph

/-!
# Where a Pass Comes to

The stacks that a pass over a source comes to, one for each turn of its loop, and what
can be said of all of them.

What a step can do is said once, with everything that had to be the case for it. Facts
about all stacks of a pass are then proved by going through these cases, and no proof
opens the step itself. A pass fails at one of its stacks, so facts about failures come
out of facts about stacks as well.

The files that are open always lie on a walk along includes that begins with the source.
This ties the stack, which has only paths and what is left to read of each file, to the
files themselves and to the graph that they make up. No two of the files are the same
one, since a file is only opened if it is not open already.

## Main definitions

* `Stack.Move`: What a step can come to.
* `Flattener.Reaches`: A pass comes to a stack.
* `OpenFile.Of`: An open file is one that was found, partly read.
* `Stack.Follows`: The open files lie on a walk from the source.

## Theorems

* `move`: A step comes to one of these.
* `reaches_induction`: What holds at first and is kept by every step holds of all stacks
  of a pass.
* `Reaches.run_eq_ok`, `exists_of_source_error`: A pass succeeds from every stack on it,
  and fails where a step does.
* `follows_of_reaches`: The open files lie on a walk from the source, no file twice.
-/

namespace ShaderBuild

namespace Stack

variable {search : SearchPath} {tree : Tree}

/-- What a step can come to, and what has to be the case for it. -/
inductive Move (search : SearchPath) (tree : Tree) (s : Stack) : Outcome → Prop where
  | text {t : Text} {rest : List Token} (pending : s.innermost.pending = .text t :: rest) :
    Move search tree s (.more (s.advance rest t))
  | request {name : String} {line : Nat} {rest : List Token}
      (pending : s.innermost.pending = .autoresolve name line :: rest) :
    Move search tree s (.more ((s.advance rest []).request name))
  | opens {name : String} {line : Nat} {terminator : Terminator} {rest tokens : List Token}
      {found : Found} (pending : s.innermost.pending = .includeFile name line terminator :: rest)
      (find : (search.find tree name).value = some found)
      (admits : s.Admits (tree.identity found.path))
      (scanned : tokenize found.content = .ok tokens) :
    Move search tree s (.more ((s.advance rest []).push
      ⟨found.path, tree.identity found.path, terminator, tokens, []⟩
      ((admits_advance s rest [] _).mpr admits).1))
  | closes {includer : OpenFile} {outer : List OpenFile} {next : Stack}
      (pending : s.innermost.pending = []) (around : s.outer = includer :: outer)
      (innermost : next.innermost = includer.write s.innermost.inlined)
      (outer_eq : next.outer = outer) : Move search tree s (.more next)
  | finishes (pending : s.innermost.pending = []) (around : s.outer = []) :
    Move search tree s (.done ⟨s.innermost.inlined, s.autoresolve, s.included⟩)
  | missing {name : String} {line : Nat} {terminator : Terminator} {rest : List Token}
      (pending : s.innermost.pending = .includeFile name line terminator :: rest)
      (find : (search.find tree name).value = none) :
    Move search tree s (.failed (.includeNotFound name s.innermost.path line))
  | refused {name : String} {line : Nat} {terminator : Terminator} {rest : List Token}
      {found : Found} (pending : s.innermost.pending = .includeFile name line terminator :: rest)
      (find : (search.find tree name).value = some found)
      (barred : ¬ s.Admits (tree.identity found.path)) :
    Move search tree s (.failed (.includeCycle found.path (s.chain ++ [found.path])))
  | malformed {name : String} {line : Nat} {terminator : Terminator} {rest : List Token}
      {found : Found} {bad : Malformed}
      (pending : s.innermost.pending = .includeFile name line terminator :: rest)
      (find : (search.find tree name).value = some found)
      (admits : s.Admits (tree.identity found.path))
      (scanned : tokenize found.content = .error bad) :
    Move search tree s (.failed (.malformedDirective found.path bad.line bad.defect.message))

/-- A step comes to one of these. -/
theorem move (search : SearchPath) (tree : Tree) (s : Stack) :
    s.Move search tree (s.step search tree).value := by
  -- The cases are taken in the order in which the step asks for them: what is read next,
  -- and of an include if its file is there, if it may be opened and if it can be read.
  cases pending : s.innermost.pending with
  | nil =>
      rw [value_step_nil pending]
      cases around : s.outer with
      | nil =>
          rw [close_of_outer_nil around]
          exact .finishes pending around
      | cons includer outer =>
          obtain ⟨next, hclose, innermost, outer_eq, -⟩ := close_of_outer_cons around
          rw [hclose]
          exact .closes pending around innermost outer_eq
  | cons token rest =>
      cases token with
      | text t =>
          rw [value_step_text pending]
          exact .text pending
      | autoresolve name line =>
          rw [value_step_autoresolve pending]
          exact .request pending
      | includeFile name line terminator =>
          cases find : (search.find tree name).value with
          | none =>
              rw [value_step_missing pending find]
              exact .missing pending find
          | some found =>
              by_cases admits : s.Admits (tree.identity found.path)
              · cases scanned : tokenize found.content with
                | error bad =>
                    rw [value_step_malformed pending find admits scanned]
                    exact .malformed pending find admits scanned
                | ok tokens =>
                    rw [value_step_opened pending find admits scanned]
                    exact .opens pending find admits scanned
              · rw [value_step_refused pending find admits]
                exact .refused pending find admits

theorem move_of_step {s : Stack} {outcome : Outcome}
    (h : (s.step search tree).value = outcome) : s.Move search tree outcome :=
  h ▸ s.move search tree

/-- A run fails at one of its stacks. -/
theorem exists_of_run_error {s : Stack} {failure : Failure}
    (h : (s.run search tree).value = .error failure) :
    ∃ t, Reaches search tree s t ∧ t.Move search tree (.failed failure) := by
  -- The induction is that of the run itself, on the work that a step leaves.
  cases hstep : (s.step search tree).value with
  | done result =>
      rw [run_done hstep] at h
      cases h
  | failed failure' =>
      rw [run_failed hstep] at h
      obtain rfl := Except.error.inj h
      exact ⟨s, .refl, move_of_step hstep⟩
  | more next =>
      rw [run_more hstep] at h
      obtain ⟨t, hreach, hmove⟩ := exists_of_run_error h
      exact ⟨t, .head hstep hreach, hmove⟩
termination_by s.weight
decreasing_by exact weight_lt_of_step hstep

end Stack

namespace Flattener

variable {f : Flattener} {source : Found} {s : Stack}

/-- The pass over a source comes to a stack. -/
def Reaches (f : Flattener) (source : Found) (s : Stack) : Prop :=
  ∃ tokens, tokenize source.content = .ok tokens ∧ Stack.Reaches f.search f.tree
    (Stack.ofFile ⟨source.path, f.tree.identity source.path, .none, tokens, []⟩) s

/-- What holds of the source alone and is kept by every step holds of all stacks that
    the pass comes to. -/
theorem reaches_induction {P : Stack → Prop} (h : f.Reaches source s)
    (opened : ∀ tokens, tokenize source.content = .ok tokens →
      P (Stack.ofFile ⟨source.path, f.tree.identity source.path, .none, tokens, []⟩))
    (moved : ∀ s next, P s → s.Move f.search f.tree (.more next) → P next) : P s := by
  obtain ⟨tokens, htokens, hreach⟩ := h
  induction hreach with
  | refl => exact opened tokens htokens
  | tail _ hstep ih => exact moved _ _ ih (Stack.move_of_step hstep)

theorem Reaches.trans {next : Stack} (h : f.Reaches source s)
    (hreach : Stack.Reaches f.search f.tree s next) : f.Reaches source next := by
  obtain ⟨tokens, htokens, hbefore⟩ := h
  exact ⟨tokens, htokens, Relation.ReflTransGen.trans hbefore hreach⟩

/-- What a pass comes to is what the run over the source comes to, if the source can be
    read at all. -/
theorem value_source_eq (f : Flattener) (source : Found) :
    (f.source source.path source.content).value =
      match tokenize source.content with
      | .error bad => .error (.malformedDirective source.path bad.line bad.defect.message)
      | .ok tokens => ((Stack.ofFile ⟨source.path, f.tree.identity source.path, .none, tokens,
          []⟩).run f.search f.tree).value.map f.finish := by
  -- A malformed source never comes to a stack.
  cases htokens : tokenize source.content with
  | error bad => simp only [Flattener.source, OpenFile.ofText, htokens, Logged.fail]
  | ok tokens =>
      simp only [Flattener.source, OpenFile.ofText, htokens, Logged.value_bind]
      cases ((Stack.ofFile ⟨source.path, f.tree.identity source.path, .none, tokens, []⟩).run
        f.search f.tree).value <;> rfl

/-- A pass that succeeds does so from every stack that it comes to. -/
theorem Reaches.run_eq_ok {r : Flattened} (h : f.Reaches source s)
    (hresult : (f.source source.path source.content).value = .ok r) :
    ∃ result, (s.run f.search f.tree).value = .ok result ∧ r = f.finish result := by
  -- The result is that of the run from the first stack, and the run passes through `s`.
  obtain ⟨tokens, htokens, hreach⟩ := h
  rw [value_source_eq, htokens] at hresult
  dsimp only at hresult
  rw [Stack.value_run_of_reaches hreach] at hresult
  obtain ⟨result, hrun, heq⟩ := map_eq_ok_iff.mp hresult
  exact ⟨result, hrun, heq.symm⟩

/-- A pass fails where the source cannot be read or a step fails. -/
theorem exists_of_source_error {failure : Failure}
    (h : (f.source source.path source.content).value = .error failure) :
    (∃ bad, tokenize source.content = .error bad ∧
        failure = .malformedDirective source.path bad.line bad.defect.message) ∨
      ∃ s, f.Reaches source s ∧ s.Move f.search f.tree (.failed failure) := by
  rw [value_source_eq] at h
  cases htokens : tokenize source.content with
  | error bad =>
      rw [htokens] at h
      exact Or.inl ⟨bad, rfl, (Except.error.inj h).symm⟩
  | ok tokens =>
      rw [htokens] at h
      dsimp only at h
      cases hrun : ((Stack.ofFile ⟨source.path, f.tree.identity source.path, .none, tokens,
          []⟩).run f.search f.tree).value with
      | ok result =>
          rw [hrun] at h
          cases h
      | error failure' =>
          rw [hrun] at h
          obtain rfl := Except.error.inj h
          obtain ⟨s, hreach, hmove⟩ := Stack.exists_of_run_error hrun
          exact Or.inr ⟨s, ⟨tokens, htokens, hreach⟩, hmove⟩

end Flattener

section Walk

variable {search : SearchPath} {tree : Tree}

/-- An open file is one that was found, read up to some token. -/
structure OpenFile.Of (tree : Tree) (file : OpenFile) (found : Found) : Prop where
  path : file.path = found.path
  identity : file.identity = tree.identity found.path
  pending : ∃ read, tokenize found.content = .ok (read ++ file.pending)

/-- Reading on makes no other file of it. -/
theorem OpenFile.Of.read {file next : OpenFile} {found : Found} {token : Token}
    {rest : List Token} (h : file.Of tree found) (hpending : file.pending = token :: rest)
    (hpath : next.path = file.path) (hidentity : next.identity = file.identity)
    (hrest : next.pending = rest) : next.Of tree found where
  path := hpath.trans h.path
  identity := hidentity.trans h.identity
  pending := by
    obtain ⟨read, hread⟩ := h.pending
    rw [hpending, List.append_cons] at hread
    exact ⟨read ++ [token], hrest.symm ▸ hread⟩

/-- An include that is left to read in an open file leads from it to another. -/
theorem OpenFile.Of.includes {file : OpenFile} {found child : Found} {name : String} {line : Nat}
    {terminator : Terminator} {rest : List Token} (h : file.Of tree found)
    (hpending : file.pending = .includeFile name line terminator :: rest)
    (hfind : (search.find tree name).value = some child) : Includes search tree found child := by
  obtain ⟨read, hread⟩ := h.pending
  rw [hpending] at hread
  exact ⟨_, name, line, terminator, hread, List.mem_append_right _ List.mem_cons_self, hfind⟩

namespace Stack

/-- The open files lie on a walk from the source, the innermost first, and no file is
    open twice. -/
structure Follows (search : SearchPath) (tree : Tree) (source : Found) (s : Stack)
    (opened : List Found) : Prop where
  files : List.Forall₂ (OpenFile.Of tree) s.files opened
  walk : opened.IsChain fun inner outer => Includes search tree outer inner
  first : opened.getLast? = some source
  distinct : (s.files.map OpenFile.identity).Nodup

theorem Follows.innermost {source : Found} {s : Stack} {opened : List Found}
    (h : s.Follows search tree source opened) :
    ∃ found around, opened = found :: around ∧ s.innermost.Of tree found ∧
      List.Forall₂ (OpenFile.Of tree) s.outer around := by
  have hfiles := h.files
  rw [Stack.files] at hfiles
  cases hfiles with
  | cons hinner houter => exact ⟨_, _, rfl, hinner, houter⟩

/-- The open files are identified by their own paths. -/
theorem Follows.identified {source : Found} {s : Stack} {opened : List Found}
    (h : s.Follows search tree source opened) : s.Identified tree := by
  intro file hfile
  -- The stack and the walk have their files in the same order.
  obtain ⟨n, hn, rfl⟩ := List.getElem_of_mem hfile
  have hof := h.files.get hn (h.files.length_eq ▸ hn)
  exact hof.identity.trans (congrArg tree.identity hof.path.symm)

theorem follows_ofFile {source : Found} {tokens : List Token}
    (h : tokenize source.content = .ok tokens) :
    (ofFile ⟨source.path, tree.identity source.path, .none, tokens, []⟩).Follows search tree
      source [source] where
  files := .cons ⟨rfl, rfl, [], h⟩ .nil
  walk := List.isChain_singleton source
  first := rfl
  distinct := List.nodup_singleton _

/-- Reading on in the innermost file leaves the walk as it is. -/
theorem Follows.read {source : Found} {s next : Stack} {opened : List Found} {token : Token}
    {rest : List Token} (h : s.Follows search tree source opened)
    (hpending : s.innermost.pending = token :: rest)
    (hpath : next.innermost.path = s.innermost.path)
    (hidentity : next.innermost.identity = s.innermost.identity)
    (hrest : next.innermost.pending = rest) (houter : next.outer = s.outer) :
    next.Follows search tree source opened where
  files := by
    obtain ⟨found, around, rfl, hinner, haround⟩ := h.innermost
    rw [Stack.files, houter]
    exact .cons (hinner.read hpending hpath hidentity hrest) haround
  walk := h.walk
  first := h.first
  distinct := by
    have hdistinct := h.distinct
    rw [Stack.files, List.map_cons] at hdistinct ⊢
    rw [houter, hidentity]
    exact hdistinct

/-- A step leaves the open files on a walk. -/
theorem Follows.move {source : Found} {s next : Stack} {opened : List Found}
    (h : s.Follows search tree source opened) (hmove : s.Move search tree (.more next)) :
    ∃ opened', next.Follows search tree source opened' := by
  -- Text and requests only read on; the other two moves open and close a file.
  cases hmove with
  | text pending => exact ⟨opened, h.read pending rfl rfl rfl rfl⟩
  | request pending => exact ⟨opened, h.read pending rfl rfl rfl rfl⟩
  | @opens name line terminator rest tokens found pending find admits scanned =>
      have hread : (s.advance rest []).Follows search tree source opened :=
        h.read pending rfl rfl rfl rfl
      refine ⟨found :: opened, .cons ⟨rfl, rfl, [], scanned⟩ hread.files, ?_, ?_, ?_⟩
      · -- The include stands in the innermost file, where the walk has got to.
        obtain ⟨inner, around, rfl, hinner, -⟩ := h.innermost
        exact List.isChain_cons_cons.mpr ⟨hinner.includes pending find, h.walk⟩
      · rw [List.getLast?_cons, h.first]
        rfl
      · refine List.nodup_cons.mpr ⟨fun hmem => ?_, hread.distinct⟩
        obtain ⟨file, hfile, hsame⟩ := List.mem_map.mp hmem
        -- An open file of the same identity is what the step looks for before it opens one.
        exact ((admits_advance s rest [] _).mpr admits).2 file hfile hsame
  | @closes includer outer _ pending around innermost outer_eq =>
      -- The walk is left with its innermost file gone. The includer only gets more text.
      obtain ⟨found, others, rfl, -, hothers⟩ := h.innermost
      have hdistinct := h.distinct
      rw [around] at hothers
      rw [Stack.files, around] at hdistinct
      cases hothers with
      | @cons _ found' _ rest hincluder hrest =>
          refine ⟨found' :: rest, ?_, h.walk.tail, ?_, ?_⟩
          · rw [Stack.files, innermost, outer_eq]
            exact .cons ⟨hincluder.path, hincluder.identity, hincluder.pending⟩ hrest
          · rw [← h.first, List.getLast?_cons_cons]
          · rw [Stack.files, innermost, outer_eq]
            exact (List.nodup_cons.mp hdistinct).2

end Stack

/-- The files that are open at a stack of a pass lie on a walk from the source. -/
theorem Flattener.follows_of_reaches {f : Flattener} {source : Found} {s : Stack}
    (h : f.Reaches source s) : ∃ opened, s.Follows f.search f.tree source opened :=
  reaches_induction (P := fun s => ∃ opened, s.Follows f.search f.tree source opened) h
    (fun _ htokens => ⟨_, Stack.follows_ofFile htokens⟩)
    (fun _ _ ⟨_, hfollows⟩ hmove => hfollows.move hmove)

end Walk

end ShaderBuild
