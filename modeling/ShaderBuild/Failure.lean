import ShaderBuild.Files.Path
import ShaderBuild.Stage

/-!
# Failures

Everything that can go wrong while a program is put together, by cause, and
how each cause is worded. A device reports failures of its own with the same
type, which is why the details that come in prose are kept as prose here.

## Main definitions

* `Failure`: What went wrong.
* `Failure.message`: The wording.
-/

namespace ShaderBuild

/-- What went wrong. -/
inductive Failure where
  /-- A source file could not be read. -/
  | unreadable (path : Path) (reason : String)
  /-- No search root holds the file that line `line` of `includer` asks for. -/
  | includeNotFound (name : String) (includer : Path) (line : Nat)
  /-- A file would be opened inside itself, or too deep. The chain leads from
      the outermost open file to the refused one. -/
  | includeCycle (path : Path) (chain : List Path)
  /-- A directive line breaks the grammar. -/
  | malformedDirective (path : Path) (line : Nat) (message : String)
  /-- The device refused a stage. -/
  | compilation (stage : Stage) (log : String)
  /-- The device refused to link. -/
  | linkage (log : String)
  /-- The linked program has no uniform block of a name it asked for. -/
  | blockMissing (name : String)
  /-- No uniform buffer is registered under a name a program asked for. -/
  | bufferMissing (name : String)
  /-- The operation does not fit the state of the program. -/
  | invalidState (message : String)
  /-- The operation was given something it cannot use. -/
  | invalidResource (message : String)
  /-- The device itself is out of order. -/
  | backend (message : String)
  deriving DecidableEq, Repr

namespace Failure

/-- A chain of paths, outermost first. -/
def chainText (chain : List Path) : String :=
  String.intercalate " -> " (chain.map Path.text)

/-- The wording of a failure. -/
def message : Failure → String
  | .unreadable path reason => s!"Failed to open file `{path.text}`: {reason}"
  | .includeNotFound name includer line =>
    s!"Include `{name}` not found in any include path ({includer.text}:{line})"
  | .includeCycle path [] => s!"Recursive include of `{path.text}`"
  | .includeCycle path chain =>
    s!"Recursive include of `{path.text}` (include stack: {chainText chain})"
  | .malformedDirective path line message =>
    s!"Malformed directive at {path.text}:{line}: {message}"
  | .compilation stage log => s!"Compilation of {stage.name} stage failed: {log}"
  | .linkage log => s!"Link failed: {log}"
  | .blockMissing name => s!"Failed to find the UBO `{name}` for autoresolve"
  | .bufferMissing name => s!"Registry has no knowledge of the UBO `{name}`"
  | .invalidState message => s!"Invalid state: {message}"
  | .invalidResource message => s!"Invalid resource: {message}"
  | .backend message => s!"Backend error: {message}"

end Failure

end ShaderBuild
