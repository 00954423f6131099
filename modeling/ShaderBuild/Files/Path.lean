/-!
# Paths

A path is kept exactly as it was written, because that is how it is shown in
messages; nothing is simplified. What a path means is decided by walking its
steps, and a step is what stands between two slashes. An empty piece (from a
doubled slash, or one at an end) is a step that stays where it is, just as `.`
is: the place it is taken from has to be a directory.

Where paths have to be compared without a walk, their outlines are: the steps
without those that stay. A `.` at the very start still counts, so `./f` and `f`
are told apart, while `d//f` and `d/./f` are not.

## Main definitions

* `Path`: A path as written.
* `Path.join`: A name below a directory.
* `Path.steps`: The steps a path is walked in.
* `Path.parentSteps`: The steps to the directory a path is in.
* `Path.outline`: What paths are compared by when they are not walked.
-/

namespace ShaderBuild

/-- A path as written. -/
structure Path where
  text : String
  deriving DecidableEq, Repr, Inhabited

/-- One step of a walk. -/
inductive PathStep where
  | stay
  | up
  | enter (name : String)
  deriving DecidableEq, Repr

/-- How a path begins. -/
inductive Opening where
  | root
  | dot
  | step
  deriving DecidableEq, Repr

/-- What is left of a path when steps that stay do not count. -/
structure Outline where
  opening : Opening
  steps : List PathStep
  deriving DecidableEq, Repr

/-- The pieces of a text between slashes, empty ones included. -/
def pieces : List Char → List (List Char)
  | [] => [[]]
  | c :: rest =>
    if c = '/' then [] :: pieces rest
    else match pieces rest with
      | [] => [[c]]
      | piece :: others => (c :: piece) :: others

/-- The step a piece stands for. -/
def PathStep.ofPiece (piece : List Char) : PathStep :=
  if piece = [] ∨ piece = ['.'] then .stay
  else if piece = ['.', '.'] then .up
  else .enter (String.ofList piece)

namespace Path

/-- Whether a path starts from the root of the file system. -/
def isRooted (p : Path) : Bool :=
  p.text.toList.head? = some '/'

/-- The path of `name` below `root`. The empty root adds nothing, and no slash
    is doubled. -/
def join (root : Path) (name : String) : Path :=
  match root.text.toList.getLast? with
  | none => ⟨name⟩
  | some '/' => ⟨root.text ++ name⟩
  | some _ => ⟨root.text ++ "/" ++ name⟩

/-- The steps a path is walked in. -/
def steps (p : Path) : List PathStep :=
  (pieces p.text.toList).map PathStep.ofPiece

/-- The steps to the directory a path is in. Steps at the end that stay where
    they are do not count. -/
def parentSteps (p : Path) : List PathStep :=
  ((p.steps.reverse.dropWhile (· = .stay)).drop 1).reverse

/-- How a path begins. -/
def opening (p : Path) : Opening :=
  if p.isRooted then .root
  else if (pieces p.text.toList).head? = some ['.'] then .dot
  else .step

/-- What a path is compared by when it is not walked. -/
def outline (p : Path) : Outline :=
  ⟨p.opening, p.steps.filter (· ≠ .stay)⟩

/-- A path without the slashes it ends with. -/
def bare (p : Path) : Path :=
  ⟨String.ofList (p.text.toList.reverse.dropWhile (· = '/')).reverse⟩

end Path

end ShaderBuild
