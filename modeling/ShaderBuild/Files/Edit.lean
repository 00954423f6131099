import ShaderBuild.Files.Walk

/-!
# Changing Files by Path

What can be put at a path differs in how its last name is taken. A file is
written to wherever the path leads, so a link at the end is followed: the file
it leads to gets new bytes, and if the link leads to a vacancy the file appears
there. A link, on the other hand, is put at the name itself, and removing takes
away the name itself, be it a file, a link or a directory with all it holds.

A directory is emptied before it is removed, and it is removed by its path. So a
path that leads through what the directory holds, such as `d/e/../../d`, leaves
the directory behind, as does one that leads to it without naming it.

Before anything else the directories that lead to the path are created, also
when something is to be removed. Where the system would refuse the change
itself, nothing is changed.

## Main definitions

* `Tree.makeDirectories`: The missing directories along some steps.
* `Tree.entry?`: The location that a path names without following its end.
* `Tree.target?`: The location that is to be removed at a path.
* `Tree.write`, `Tree.plant`, `Tree.erase`: The three kinds of change.
* `Tree.edit`: A node put at a path, or the path removed.
-/

namespace ShaderBuild

namespace Tree

/-- Create the directories that are missing along steps, as far as possible. -/
def makeDirectories (tree : Tree) : Place → List PathStep → Tree
  | _, [] => tree
  | place, .stay :: rest => tree.makeDirectories place rest
  | place, .up :: rest => tree.makeDirectories place.parent rest
  | .outside, .enter _ :: _ => tree
  | .inside parent, .enter name :: rest =>
    match tree.reach (.inside parent) [.enter name] with
    | .ok (.directory place) => tree.makeDirectories place rest
    | .ok (.vacant location) =>
      -- A vacancy behind a link is not filled: the name itself is taken.
      if location = parent ++ [name] then
        (tree.put location .directory).makeDirectories (.inside location) rest
      else tree
    | _ => tree

/-- The location that a path names, whatever is there. A path that does not end
    in a name has none. -/
def entry? (tree : Tree) (path : Path) : Option Location :=
  match path.fault?, path.steps.getLast? with
  | none, some (.enter name) =>
    match tree.reach (path.start (.inside [])) path.steps.dropLast with
    | .ok (.directory (.inside parent)) => some (parent ++ [name])
    | _ => none
  | _, _ => none

/-- Write a file to where a path leads. -/
def write (tree : Tree) (path : Path) (bytes : List UInt8) : Tree :=
  match tree.locate path with
  | .ok (.file location _) | .ok (.vacant location) => tree.put location (.file bytes)
  | _ => tree

/-- Put a node at the name a path ends in. -/
def plant (tree : Tree) (path : Path) (node : Node) : Tree :=
  match tree.entry? path with
  | some location => tree.put location node
  | none => tree

/-- The location that is to be removed at a path: the one it names, or that of a
    directory it leads to. -/
def target? (tree : Tree) (path : Path) : Option Location :=
  match tree.entry? path, tree.locate path with
  | some location, _ => some location
  | none, .ok (.directory (.inside location)) => some location
  | none, _ => none

/-- Remove what a path names. What is below it goes first, and the thing itself
    only if the path still names it then, with or without slashes at its end. -/
def erase (tree : Tree) (path : Path) : Tree :=
  match tree.target? path with
  | none => tree
  | some location =>
    let emptied := tree.clear location
    if emptied.entry? path.bare = some location then emptied.remove location else emptied

/-- Put a node at a path, or remove what is there. -/
def edit (tree : Tree) (path : Path) (content : Option Node) : Tree :=
  let base := path.start (.inside [])
  let prepared := tree.makeDirectories base path.parentSteps
  match content with
  | none => prepared.erase path
  | some (.file bytes) => prepared.write path bytes
  | some .directory =>
    -- A directory is made at a name only; slashes behind it make no difference.
    match path.bare.steps.getLast? with
    | some (.enter _) => prepared.makeDirectories base path.steps
    | _ => prepared
  | some (.link target) =>
    -- A target is a path too, and one that the system does not take is refused.
    if target.fault? = none then prepared.plant path (.link target) else prepared
  | some .unreadable => prepared.plant path .unreadable

end Tree

end ShaderBuild
