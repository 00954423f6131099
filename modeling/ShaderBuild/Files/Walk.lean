import ShaderBuild.Files.Tree
import ShaderBuild.Text.Utf8

/-!
# Walking Paths

A path means whatever a walk along its steps arrives at. Every step is taken
from a directory, so `x/../f` needs the directory `x`, and a file can only be
the end of a walk. After a symbolic link the walk goes on from where the link
leads, so `..` behind a link is the parent of the link's target.

The tree is all that can be seen. A walk that leaves it upwards, or starts at
the root of the file system, is among directories in which nothing is found.

A walk follows a limited number of links, which is what makes it end on links
that lead back to themselves: between two links it only consumes steps.

A walk whose very last name is missing from a directory of the tree has not
failed. It arrives at a vacancy, a location where a file could be put. There is
nothing to read at one, so readers treat it as a missing file.

A path is handed to the system as it is written, and only what is written has
to be short enough: links make it possible to read a file whose location has a
name longer than any path. What a file is identified by is that very name, found
by asking for the name of each location on the way. So identifying takes a walk
that passes no location with a name too long, and where it fails only what is
written is left to compare.

## Main definitions

* `Fault`: Why a path could not be used, with the wording of the system.
* `Standing`: What a walk arrives at.
* `Tree.walk`: The walk along some steps.
* `Tree.reach`, `Tree.locate`: What steps and paths lead to.
* `Tree.isFile`, `Tree.read`, `Tree.readText`: Files by path.
* `Identity`, `Tree.identity`: What makes two spellings the same file.

## Theorems

* `isFile_of_read`: A file that can be read is seen as a file.
* `locate_of_read`: A file that can be read is what its path leads to.
-/

namespace ShaderBuild

/-- Why a path could not be used. -/
inductive Fault where
  | notFound
  | inputOutput
  | notDirectory
  | isDirectory
  | nameTooLong
  | tooManyLinks
  | invalidText
  | nulInName
  deriving DecidableEq, Repr

/-- The wording of a fault. -/
def Fault.message : Fault → String
  | .notFound => "No such file or directory (os error 2)"
  | .inputOutput => "Input/output error (os error 5)"
  | .notDirectory => "Not a directory (os error 20)"
  | .isDirectory => "Is a directory (os error 21)"
  | .nameTooLong => "File name too long (os error 36)"
  | .tooManyLinks => "Too many levels of symbolic links (os error 40)"
  | .invalidText => "stream did not contain valid UTF-8"
  | .nulInName => "file name contained an unexpected NUL byte"

/-- A directory a walk can be in: one of the tree, or one around it. -/
inductive Place where
  | inside (location : Location)
  | outside
  deriving DecidableEq, Repr

/-- The directory that holds a directory. -/
def Place.parent : Place → Place
  | .inside [] => .outside
  | .inside location => .inside location.dropLast
  | .outside => .outside

/-- What a walk arrives at. -/
inductive Standing where
  | directory (place : Place)
  | file (location : Location) (bytes : List UInt8)
  | unreadable (location : Location)
  /-- Nothing yet, at a location in an existing directory. -/
  | vacant (location : Location)
  deriving DecidableEq, Repr

/-- The most bytes one name of a path may have. -/
def maxNameBytes : Nat := 255

/-- The most bytes a path may have. -/
def maxPathBytes : Nat := 4095

/-- The most links one walk follows. -/
def maxLinks : Nat := 40

/-- The bytes set aside for the name of the starting directory, which precedes
    the name of every location. -/
def maxStartBytes : Nat := 32

namespace Location

/-- The bytes of the name of a location, as seen from the starting directory. -/
def nameBytes (location : Location) : Nat :=
  location.foldr (fun name bytes => name.utf8ByteSize + 1 + bytes) 0

/-- Whether the full name of a location is short enough to be a path. -/
def isNameable (location : Location) : Bool :=
  decide (maxStartBytes + nameBytes location ≤ maxPathBytes)

end Location

namespace Path

/-- The directory a path starts from, given the one that relative paths start
    from. -/
def start (p : Path) (base : Place) : Place :=
  if p.isRooted then .outside else base

/-- Why the system takes no such path, wherever it would lead. -/
def fault? (p : Path) : Option Fault :=
  if p.text.toList.contains '\x00' then some .nulInName
  else if maxPathBytes < p.text.utf8ByteSize then some .nameTooLong
  else if p.text = "" then some .notFound
  else none

end Path

namespace Tree

/-- Take steps one after the other, with `links` links left to follow, through
    the locations that `passes` allows. A link hands the walk over to `follow`,
    with the link's own steps in front. -/
def takeSteps (tree : Tree) (passes : Location → Bool) (links : Nat)
    (follow : Place → List PathStep → Except Fault Standing) :
    Standing → List PathStep → Except Fault Standing
  | standing, [] => .ok standing
  | .directory place, .stay :: rest => tree.takeSteps passes links follow (.directory place) rest
  | .directory place, .up :: rest =>
    tree.takeSteps passes links follow (.directory place.parent) rest
  | .directory place, .enter name :: rest =>
    if maxNameBytes < name.utf8ByteSize then .error .nameTooLong
    else match place with
      | .outside => .error .notFound
      | .inside parent =>
        let location := parent ++ [name]
        if passes location then
          match tree.node? location with
          | none => if rest = [] then .ok (.vacant location) else .error .notFound
          | some .directory =>
            tree.takeSteps passes links follow (.directory (.inside location)) rest
          | some (.file bytes) => tree.takeSteps passes links follow (.file location bytes) rest
          | some (.link target) => follow (target.start place) (target.steps ++ rest)
          -- Two links lead to such a file, and no step leads on from it.
          | some .unreadable =>
            if links < 2 then .error .tooManyLinks
            else tree.takeSteps passes links follow (.unreadable location) rest
        else .error .nameTooLong
  | _, _ :: _ => .error .notDirectory

/-- Walk steps from a directory through the locations that `passes` allows,
    following at most `links` links. -/
def walk (tree : Tree) (passes : Location → Bool) :
    Nat → Place → List PathStep → Except Fault Standing
  | 0, place, steps =>
    tree.takeSteps passes 0 (fun _ _ => .error .tooManyLinks) (.directory place) steps
  | links + 1, place, steps =>
    tree.takeSteps passes (links + 1) (tree.walk passes links) (.directory place) steps

/-- What steps lead to from a directory. -/
def reach (tree : Tree) (place : Place) (steps : List PathStep) : Except Fault Standing :=
  tree.walk (fun _ => true) maxLinks place steps

/-- What a path leads to. -/
def locate (tree : Tree) (path : Path) : Except Fault Standing :=
  match path.fault? with
  | some fault => .error fault
  | none => tree.reach (path.start (.inside [])) path.steps

/-- Whether a path leads to what looks like a regular file. -/
def isFile (tree : Tree) (path : Path) : Bool :=
  match tree.locate path with
  | .ok (.file _ _) | .ok (.unreadable _) => true
  | _ => false

/-- The bytes of the file a path leads to. -/
def read (tree : Tree) (path : Path) : Except Fault (List UInt8) :=
  match tree.locate path with
  | .error fault => .error fault
  | .ok (.vacant _) => .error .notFound
  | .ok (.directory _) => .error .isDirectory
  | .ok (.unreadable _) => .error .inputOutput
  | .ok (.file _ bytes) => .ok bytes

/-- The text of the file a path leads to, which has to be well formed. -/
def readText (tree : Tree) (path : Path) : Except Fault Text :=
  match tree.read path with
  | .error fault => .error fault
  | .ok bytes => match Utf8.decode? bytes with
    | some text => .ok text
    | none => .error .invalidText

end Tree

/-- What makes two spellings the same file: where a path leads, or its outline if
    that cannot be told. Everything outside the tree is one place, since no
    include is ever found there. -/
inductive Identity where
  | real (place : Place)
  | written (outline : Outline)
  deriving DecidableEq, Repr

namespace Tree

/-- The identity of a path, however long the path is. -/
def identity (tree : Tree) (path : Path) : Identity :=
  if path.text = "" ∨ path.text.toList.contains '\x00' then .written path.outline
  else match tree.walk Location.isNameable maxLinks (path.start (.inside [])) path.steps with
    | .ok (.directory place) => .real place
    | .ok (.file location _) => .real (.inside location)
    | .ok (.unreadable _) => .real .outside
    | .ok (.vacant _) | .error _ => .written path.outline

/-- A file that can be read is what its path leads to. -/
theorem locate_of_read {tree : Tree} {path : Path} {bytes : List UInt8}
    (h : tree.read path = .ok bytes) :
    ∃ location, tree.locate path = .ok (.file location bytes) := by
  unfold read at h
  split at h <;> try (simp at h)
  next location found hlocate =>
    subst h
    exact ⟨location, hlocate⟩

theorem isFile_of_read {tree : Tree} {path : Path} {bytes : List UInt8}
    (h : tree.read path = .ok bytes) : tree.isFile path = true := by
  obtain ⟨location, hlocate⟩ := locate_of_read h
  rw [isFile, hlocate]

end Tree

end ShaderBuild
