import ShaderBuild.Directive.Comment
import ShaderBuild.Directive.Grammar
import ShaderBuild.Directive.Token

/-!
# Reading Directives from a File

A file is scanned line by line. The scan carries the number of the line and
whether a block comment is open at its start. A line that is no directive
passes through and moves the comment bit; a directive line does not, because
its own grammar leaves no comment open.

An include takes its whole line with it, terminator included, since what is
inlined brings its own line ends. An autoresolve directive leaves its
terminator behind as text, so the lines after it keep their numbers.

The first malformed line decides: nothing is read from a file with one.

## Main definitions

* `Malformed`: The first line that breaks the grammar.
* `tokenize`: The tokens of a file.
-/

namespace ShaderBuild

/-- A line that breaks the grammar of directives, counted from one. -/
structure Malformed where
  line : Nat
  defect : Defect
  deriving DecidableEq, Repr

/-- The tokens of the lines from number `n` on. -/
def scanLines : Bool → Nat → List Line → Except Malformed (List Token)
  | _, _, [] => .ok []
  | commented, n, line :: rest =>
    -- Inside a comment nothing is a directive.
    match if commented then none else directive? line.body with
    | none => (scanLines (inComment commented line.body) (n + 1) rest).map (consText line.text)
    | some (.includeFile, text) =>
      match readInclude text with
      | .error defect => .error ⟨n, defect⟩
      -- A directive is only read outside of comments, and leaves none open behind it.
      | .ok name => (scanLines false (n + 1) rest).map (.includeFile name n line.terminator :: ·)
    | some (.autoresolve, text) =>
      match readAutoresolve text with
      | .error defect => .error ⟨n, defect⟩
      | .ok name => (scanLines false (n + 1) rest).map fun tokens =>
          .autoresolve name n :: consText line.terminator.text tokens

/-- The tokens of a file. -/
def tokenize (t : Text) : Except Malformed (List Token) :=
  scanLines false 1 (lines t)

end ShaderBuild
