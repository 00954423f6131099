import ShaderBuild.Include.Stack

/-!
# Expanding a Source by Recursion

What a source comes to, said without a stack. The expansion of a file is that
of its tokens in order, and the expansion of an include is that of the file it
leads to, in the place of the directive. The files around an include are an
argument, outermost first, and are all that a file has to know of them.

The recursion ends for the same reason the work on a stack does: an include
goes one file deeper, and only so many files may be open at once.

## Main definitions

* `Terminator.after`: What ends an included text.
* `Barred`: A file may not be opened inside others.
* `expand`: The expansion of a file.
* `expandTokens`: The expansion of some of its tokens.

## Theorems

* `expand_malformed`, `expand_tokens`: A file with a malformed line fails, any
  other is its tokens.
* `expandTokens_missing`, `expandTokens_barred`, `expandTokens_include`: The
  ways an include can go.
* `expand_request`: A text that only asks for a block.
-/

namespace ShaderBuild

namespace Flattened

/-- One flattened text after another. -/
instance : Append Flattened :=
  ⟨fun a b => ⟨a.text ++ b.text, a.autoresolve ++ b.autoresolve, a.included ++ b.included⟩⟩

/-- A flattened text with nothing in it. -/
def empty : Flattened := ⟨[], [], []⟩

theorem append_def (a b : Flattened) :
    a ++ b = ⟨a.text ++ b.text, a.autoresolve ++ b.autoresolve, a.included ++ b.included⟩ := rfl

theorem append_empty (a : Flattened) : a ++ empty = a := by
  simp only [append_def, empty, List.append_nil]

theorem empty_append (a : Flattened) : empty ++ a = a := by
  simp only [append_def, empty, List.nil_append]

theorem append_assoc (a b c : Flattened) : a ++ b ++ c = a ++ (b ++ c) := by
  simp only [append_def, List.append_assoc]

end Flattened

/-- What ends an included text: the terminator of the directive's line, unless
    the text ends with a line of its own. -/
def Terminator.after (terminator : Terminator) (t : Text) : Text :=
  if terminator ≠ .none ∧ t.getLast? ≠ some '\n' then terminator.text else []

/-- A file may not be opened while the given ones are open. -/
def Barred (tree : Tree) (opened : List Path) (path : Path) : Prop :=
  maxOpenFiles ≤ opened.length ∨ tree.identity path ∈ opened.map tree.identity

instance (tree : Tree) (opened : List Path) (path : Path) : Decidable (Barred tree opened path) :=
  inferInstanceAs (Decidable (_ ∨ _))

theorem length_lt_of_not_barred {tree : Tree} {opened : List Path} {path : Path}
    (h : ¬ Barred tree opened path) : opened.length < maxOpenFiles :=
  Nat.lt_of_not_le fun hle => h (Or.inl hle)

/-- What an include puts in the place of its directive. -/
def Found.inlined (found : Found) (terminator : Terminator) (e : Flattened) : Flattened :=
  ⟨e.text ++ terminator.after e.text, e.autoresolve, found.path :: e.included⟩

mutual

/-- The expansion of a file that was opened inside others, given outermost
    first. -/
def expand (search : SearchPath) (tree : Tree) (ancestors : List Path) (file : Found) :
    Except Failure Flattened :=
  match tokenize file.content with
  | .error bad => .error (.malformedDirective file.path bad.line bad.defect.message)
  | .ok tokens => expandTokens search tree ancestors file.path tokens
termination_by (maxOpenFiles - ancestors.length, 1, 0)

/-- The expansion of some tokens of the file at `path`. -/
def expandTokens (search : SearchPath) (tree : Tree) (ancestors : List Path) (path : Path) :
    List Token → Except Failure Flattened
  | [] => .ok .empty
  | .text t :: rest => do
    let after ← expandTokens search tree ancestors path rest
    .ok (⟨t, [], []⟩ ++ after)
  | .autoresolve name _ :: rest => do
    let after ← expandTokens search tree ancestors path rest
    .ok (⟨[], [name], []⟩ ++ after)
  | .includeFile name line terminator :: rest =>
    match (search.find tree name).value with
    | none => .error (.includeNotFound name path line)
    | some found =>
      if _h : Barred tree (ancestors ++ [path]) found.path then
        .error (.includeCycle found.path (ancestors ++ [path, found.path]))
      else do
        let child ← expand search tree (ancestors ++ [path]) found
        let after ← expandTokens search tree ancestors path rest
        .ok (found.inlined terminator child ++ after)
termination_by tokens => (maxOpenFiles - ancestors.length, 0, tokens.length)
decreasing_by
  · decreasing_tactic
  · decreasing_tactic
  · -- The included file has one more around it.
    have hlt := length_lt_of_not_barred _h
    rw [List.length_append, List.length_singleton] at hlt
    exact Prod.Lex.left _ _ (by rw [List.length_append, List.length_singleton]; omega)
  · decreasing_tactic

end

section Opening

variable {search : SearchPath} {tree : Tree} {ancestors : List Path} {path : Path}

theorem expand_malformed {file : Found} {bad : Malformed}
    (h : tokenize file.content = .error bad) : expand search tree ancestors file =
      .error (.malformedDirective file.path bad.line bad.defect.message) := by
  rw [expand, h]

theorem expand_tokens {file : Found} {tokens : List Token}
    (h : tokenize file.content = .ok tokens) :
    expand search tree ancestors file = expandTokens search tree ancestors file.path tokens := by
  rw [expand, h]

variable {name : String} {line : Nat} {terminator : Terminator} {rest : List Token}

theorem expandTokens_missing (hfind : (search.find tree name).value = none) :
    expandTokens search tree ancestors path (.includeFile name line terminator :: rest) =
      .error (.includeNotFound name path line) := by
  rw [expandTokens, hfind]

theorem expandTokens_barred {found : Found} (hfind : (search.find tree name).value = some found)
    (hbarred : Barred tree (ancestors ++ [path]) found.path) :
    expandTokens search tree ancestors path (.includeFile name line terminator :: rest) =
      .error (.includeCycle found.path (ancestors ++ [path, found.path])) := by
  simp only [expandTokens, hfind, dif_pos hbarred]

theorem expandTokens_include {found : Found} (hfind : (search.find tree name).value = some found)
    (hfree : ¬ Barred tree (ancestors ++ [path]) found.path) :
    expandTokens search tree ancestors path (.includeFile name line terminator :: rest) =
      (do let child ← expand search tree (ancestors ++ [path]) found
          let after ← expandTokens search tree ancestors path rest
          .ok (found.inlined terminator child ++ after)) := by
  simp only [expandTokens, hfind, dif_neg hfree]

end Opening

/-- A text that only asks for a block. -/
theorem expand_request (search : SearchPath) (tree : Tree) (path : Path) :
    expand search tree [] ⟨path, "#autoresolve Camera\n".toList⟩ = .ok ⟨['\n'], ["Camera"], []⟩ := by
  have tokens : tokenize "#autoresolve Camera\n".toList =
      .ok [.autoresolve "Camera" 1, .text ['\n']] := rfl
  rw [expand_tokens tokens, expandTokens, expandTokens, expandTokens]
  rfl

end ShaderBuild
